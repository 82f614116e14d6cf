import SignatureExport.Text.Utf8

/-!
# Decoding piece by piece

The decoder of UTF-8 reads bytes from the left and keeps its text in reverse order.  `textFrom`
is the same as a recursion over the bytes: the text that they add behind an open character.

An ASCII byte never continues a character.  It closes an open one with a replacement and
leaves the decoder between characters (`readByte_ascii`).  So undecodable bytes on one side of
an ASCII byte change nothing on the other side (`decodeLossy_append_cons`).
-/

namespace SignatureExport

namespace Utf8

/-- The text that an open character adds at the end of the input. -/
def closing : Expected → Text
  | .lead => []
  | .continuation .. => [replacement]

/-- The text that bytes add in a state of the decoder. -/
def textFrom (expected : Expected) : Bytes → Text
  | [] => closing expected
  | byte :: rest => (readByte byte expected).1 ++ textFrom (readByte byte expected).2 rest

theorem finish_foldl_push (read : Text) (expected : Expected) (bytes : Bytes) :
    (bytes.foldl Decoder.push ⟨read, expected⟩).finish = read.reverse ++ textFrom expected bytes := by
  induction bytes generalizing read expected with
  | nil =>
      cases expected with
      | lead => simp [Decoder.finish, textFrom, closing]
      | continuation => simp [Decoder.finish, textFrom, closing]
  | cons byte rest ih =>
      rw [List.foldl_cons, Decoder.push, ih, textFrom]
      simp

theorem decodeLossy_eq (bytes : Bytes) : decodeLossy bytes = textFrom .lead bytes :=
  finish_foldl_push [] .lead bytes

/-! ## ASCII bytes -/

/-- A state of the decoder that no ASCII byte continues. -/
def Expected.IsProper : Expected → Prop
  | .lead => True
  | .continuation low _ _ _ => 0x80 ≤ low

theorem isProper_readLead (byte : UInt8) : (readLead byte).2.IsProper := by
  unfold readLead
  repeat' split
  all_goals simp [Expected.IsProper]

/-- The decoder gets from proper states to proper states only. -/
theorem isProper_readByte (byte : UInt8) (expected : Expected) :
    (readByte byte expected).2.IsProper := by
  cases expected with
  | lead => exact isProper_readLead byte
  | continuation low high left bits =>
      rw [readByte]
      split
      next =>
        cases left with
        | zero => trivial
        | succ more => simp [Expected.IsProper]
      next => exact isProper_readLead byte

/-- An ASCII byte closes an open character and is a character by itself. -/
theorem readByte_ascii {byte : UInt8} (ascii : byte < 0x80) {expected : Expected}
    (proper : expected.IsProper) :
    readByte byte expected = (closing expected ++ [Char.ofNat byte.toNat], .lead) := by
  have lead : readLead byte = ([Char.ofNat byte.toNat], .lead) := if_pos ascii
  cases expected with
  | lead => exact lead
  | continuation low high left bits =>
      have outside : ¬ low ≤ byte := fun inside =>
        absurd (UInt8.lt_of_lt_of_le ascii (UInt8.le_trans proper inside)) (UInt8.lt_irrefl _)
      rw [readByte, if_neg (by simp [outside]), lead]
      rfl

/-- Bytes behind an ASCII byte are read as if nothing stood before them. -/
theorem textFrom_append_cons {byte : UInt8} (ascii : byte < 0x80) {expected : Expected}
    (proper : expected.IsProper) (first second : Bytes) :
    textFrom expected (first ++ byte :: second)
      = textFrom expected first ++ Char.ofNat byte.toNat :: textFrom .lead second := by
  induction first generalizing expected with
  | nil =>
      rw [List.nil_append]
      conv => lhs; rw [textFrom, readByte_ascii ascii proper]
      rw [textFrom, List.append_assoc, List.singleton_append]
  | cons head first ih =>
      rw [List.cons_append, textFrom, ih (isProper_readByte head expected), textFrom,
        List.append_assoc]

/-- What stands on one side of an ASCII byte is decoded without the other side. -/
theorem decodeLossy_append_cons {byte : UInt8} (ascii : byte < 0x80) (first second : Bytes) :
    decodeLossy (first ++ byte :: second)
      = decodeLossy first ++ Char.ofNat byte.toNat :: decodeLossy second := by
  have proper : Expected.lead.IsProper := trivial
  rw [decodeLossy_eq, decodeLossy_eq, decodeLossy_eq, textFrom_append_cons ascii proper]

example : decodeLossy [0x61, 0xE2, 0x82, 0x0A, 0xAC, 0x62]
    = ['a', replacement, '\n', replacement, 'b'] := by decide

end Utf8

end SignatureExport
