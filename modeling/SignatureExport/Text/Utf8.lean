import SignatureExport.Text.Basic

/-!
# UTF-8

A text is written as UTF-8 by `encode`.  `decodeLossy` reads any bytes: a block
that starts like a character and cannot be completed becomes one replacement
character `U+FFFD`, and so does each byte that starts no character.  A byte
order mark is an ordinary character.

The decoder is a machine with one state between characters and one for an open
character.  After the lead bytes `E0`, `ED`, `F0` and `F4` the next byte has a
narrower range, which excludes overlong forms, surrogates and code points beyond
`U+10FFFF`.
-/

namespace SignatureExport

namespace Utf8

/-- What the decoder expects next. -/
inductive Expected where
  /-- The first byte of a character. -/
  | lead
  /-- A continuation byte from `low` to `high`, with `left` more bytes after it.
  `bits` is the value read so far. -/
  | continuation (low high : UInt8) (left : Nat) (bits : Nat)
deriving DecidableEq, Repr

/-- The character that stands for undecodable bytes. -/
def replacement : Char := '\ufffd'

/-- Reads a byte between characters: what it adds to the text and what must follow. -/
def readLead (byte : UInt8) : Text × Expected :=
  if byte < 0x80 then ([Char.ofNat byte.toNat], .lead)
  else if byte < 0xC2 then ([replacement], .lead)
  else if byte < 0xE0 then ([], .continuation 0x80 0xBF 0 (byte.toNat - 0xC0))
  else if byte == 0xE0 then ([], .continuation 0xA0 0xBF 1 0x0)
  else if byte == 0xED then ([], .continuation 0x80 0x9F 1 0xD)
  else if byte < 0xF0 then ([], .continuation 0x80 0xBF 1 (byte.toNat - 0xE0))
  else if byte == 0xF0 then ([], .continuation 0x90 0xBF 2 0x0)
  else if byte < 0xF4 then ([], .continuation 0x80 0xBF 2 (byte.toNat - 0xF0))
  else if byte == 0xF4 then ([], .continuation 0x80 0x8F 2 0x4)
  else ([replacement], .lead)

/-- Reads one byte.  A byte out of the expected range closes the open character
with a replacement and is then read as a lead byte. -/
def readByte (byte : UInt8) : Expected → Text × Expected
  | .lead => readLead byte
  | .continuation low high left bits =>
      if low ≤ byte && byte ≤ high then
        let value := bits * 64 + (byte.toNat - 0x80)
        match left with
        | 0 => ([Char.ofNat value], .lead)
        | more + 1 => ([], .continuation 0x80 0xBF more value)
      else
        let (text, expected) := readLead byte
        (replacement :: text, expected)

/-- The state of the decoder after some bytes. -/
structure Decoder where
  /-- The characters read so far, last one first. -/
  read : Text := []
  /-- What must follow. -/
  expected : Expected := .lead

/-- The decoder after one more byte. -/
def Decoder.push (decoder : Decoder) (byte : UInt8) : Decoder :=
  let (text, expected) := readByte byte decoder.expected
  ⟨text.reverse ++ decoder.read, expected⟩

/-- The text of a decoder at the end of its input.  An open character becomes a
replacement. -/
def Decoder.finish (decoder : Decoder) : Text :=
  match decoder.expected with
  | .lead => decoder.read.reverse
  | .continuation .. => (replacement :: decoder.read).reverse

/-- The text that some bytes spell, with replacements for what cannot be decoded. -/
def decodeLossy (bytes : Bytes) : Text := (bytes.foldl Decoder.push {}).finish

/-- The bytes that spell a text. -/
def encode (text : Text) : Bytes := text.flatMap String.utf8EncodeChar

/-- The number of bytes that spell a text. -/
def width : Text → Nat
  | [] => 0
  | c :: rest => c.utf8Size + width rest

@[simp] theorem width_append (first second : Text) :
    width (first ++ second) = width first + width second := by
  induction first with
  | nil => simp [width]
  | cons c rest ih => simp [width, ih, Nat.add_assoc]

@[simp] theorem width_reverse (text : Text) : width text.reverse = width text := by
  induction text with
  | nil => rfl
  | cons c rest ih => simp [width, ih, Nat.add_comm]

theorem length_encode (text : Text) : (encode text).length = width text := by
  induction text with
  | nil => rfl
  | cons c rest ih => simpa [encode, width] using ih

example : decodeLossy (encode "aé€😀".toList) = "aé€😀".toList := by decide
example : decodeLossy [0x61, 0xF4, 0x90, 0x80, 0x80] = 'a' :: List.replicate 4 replacement := by
  decide
example : decodeLossy [0xF0, 0x9F, 0x98, 0x29] = [replacement, ')'] := by decide
example : decodeLossy [0xE1, 0x80] = [replacement] := by decide

end Utf8

end SignatureExport
