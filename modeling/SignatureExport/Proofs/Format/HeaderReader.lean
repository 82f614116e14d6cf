import SignatureExport.Format.Header
import SignatureExport.Proofs.Address.Digits

/-!
# A reader of headers

A header is read here as a C++ compiler would read it.  The type of an address is
the type of the second field of the structure.  The rows follow the line that opens
the array.  Each has a string literal, which ends at the first quote that no
backslash escapes, and a number in upper-case hexadecimal digits.

Keys may hold quotes, backslashes, line ends, and text that looks like a row or like
the end of the array.  Escaping keeps all of it inside the literal
(`cutLiteral?_escape`) and loses nothing (`unescape?_escape`), so the rows of any
pairs are read back (`readRows?_rows`).
-/

namespace SignatureExport

namespace Header

/-! ## Reading rows -/

/-- The inside of a string literal, escapes kept, and the text behind its closing
quote. -/
def cutLiteral? : Text → Option (Text × Text)
  | [] => none
  | '"' :: rest => some ([], rest)
  | '\\' :: [] => none
  | '\\' :: c :: rest => (cutLiteral? rest).map fun (inside, after) => ('\\' :: c :: inside, after)
  | c :: rest => (cutLiteral? rest).map fun (inside, after) => (c :: inside, after)

/-- The text that the inside of a string literal stands for.  Only a backslash and a
quote can be escaped. -/
def unescape? : Text → Option Text
  | [] => some []
  | '\\' :: [] => none
  | '\\' :: c :: rest =>
      if c = '\\' ∨ c = '"' then (unescape? rest).map fun text => c :: text else none
  | c :: rest => (unescape? rest).map fun text => c :: text

/-- The value of a hexadecimal digit in upper case. -/
def upperDigit? (c : Char) : Option Nat := if c.isLower then none else Address.digitValue? c

/-- The number that the digits at the start of a text spell, and the rest. -/
def readNumber? (text : Text) : Option (Nat × Text) :=
  match (text.takeWhile fun c => (upperDigit? c).isSome).mapM upperDigit? with
  | none | some [] => none
  | some digits =>
      some (Address.ofDigits digits, text.dropWhile fun c => (upperDigit? c).isSome)

/-- The key and the number of the row at the start of a text, and the rest. -/
def readRow? (text : Text) : Option ((Text × Nat) × Text) := do
  let literal ← Text.after? "\t\t\x7b \"".toList text
  let (inside, rest) ← cutLiteral? literal
  let key ← unescape? inside
  let (number, rest) ← readNumber? (← Text.after? ", 0x".toList rest)
  let rest ← Text.after? " \x7d,\n".toList rest
  return ((key, number), rest)

theorem cutLiteral?_length {text inside after : Text}
    (cut : cutLiteral? text = some (inside, after)) : after.length < text.length := by
  fun_induction cutLiteral? text generalizing inside with
  | case1 => simp at cut
  | case2 rest =>
      cases cut
      exact Nat.lt_succ_self _
  | case3 => simp at cut
  | case4 c rest ih =>
      obtain ⟨⟨front, back⟩, found, equal⟩ := Option.map_eq_some_iff.1 cut
      cases equal
      exact Nat.lt_succ_of_lt (Nat.lt_succ_of_lt (ih found))
  | case5 c rest _ _ _ ih =>
      obtain ⟨⟨front, back⟩, found, equal⟩ := Option.map_eq_some_iff.1 cut
      cases equal
      exact Nat.lt_succ_of_lt (ih found)

theorem readNumber?_length {text rest : Text} {number : Nat}
    (read : readNumber? text = some (number, rest)) : rest.length ≤ text.length := by
  rw [readNumber?] at read
  split at read
  next => simp at read
  next => simp at read
  next =>
    cases read
    exact (List.dropWhile_suffix _).length_le

/-- A row is read where its parts stand one after the other. -/
theorem readRow?_eq_some_iff {text rest key : Text} {number : Nat} :
    readRow? text = some ((key, number), rest) ↔
      ∃ literal inside behind digits, text = "\t\t\x7b \"".toList ++ literal ∧
        cutLiteral? literal = some (inside, behind) ∧ unescape? inside = some key ∧
        behind = ", 0x".toList ++ digits ∧
        readNumber? digits = some (number, " \x7d,\n".toList ++ rest) := by
  simp only [readRow?, Option.bind_eq_bind, Option.bind_eq_some_iff, Text.after?_eq_some_iff,
    Option.pure_def, Option.some.injEq, Prod.mk.injEq]
  constructor
  · rintro ⟨literal, rfl, ⟨inside, behind⟩, cut, _, plain, digits, equal, ⟨_, after⟩, read, _, starts,
      ⟨rfl, rfl⟩, rfl⟩
    exact ⟨literal, inside, behind, digits, rfl, cut, plain, equal, starts ▸ read⟩
  · rintro ⟨literal, inside, behind, digits, equal, cut, plain, mark, read⟩
    exact ⟨literal, equal, (inside, behind), cut, key, plain, digits, mark, (number, _), read, rest,
      rfl, ⟨rfl, rfl⟩, rfl⟩

theorem readRow?_length {text rest : Text} {row : Text × Nat}
    (read : readRow? text = some (row, rest)) : rest.length < text.length := by
  obtain ⟨literal, inside, behind, digits, rfl, cut, -, rfl, found⟩ := readRow?_eq_some_iff.1 read
  have literalShorter := cutLiteral?_length cut
  have numberShorter := readNumber?_length found
  simp only [List.length_append] at literalShorter numberShorter ⊢
  omega

/-- The rows up to the line that closes the array, and the text behind that line. -/
def readRows? (text : Text) : Option (List (Text × Nat) × Text) :=
  match Text.after? "\t\x7d;\n".toList text with
  | some rest => some ([], rest)
  | none =>
      match _ : readRow? text with
      | none => none
      | some (row, rest) => (readRows? rest).map fun (rows, after) => (row :: rows, after)
termination_by text.length
decreasing_by exact readRow?_length (by assumption)

/-! ## Reading a header -/

/-- What follows the first line that is `line`. -/
def afterLine? (line text : Text) : Option Text :=
  match _ : Text.cutAt? '\n' text with
  | none => none
  | some (first, rest) => if first = line then some rest else afterLine? line rest
termination_by text.length
decreasing_by
  obtain ⟨rfl, -⟩ := Text.cutAt?_eq_some_iff.1 (by assumption)
  simp only [List.length_append, List.length_cons]
  omega

/-- The type between `front` and a space with `back` behind it, and the rest. -/
def readType? (front back text : Text) : Option (Text × Text) := do
  let (type, rest) ← Text.cutAt? ' ' (← Text.after? front text)
  return (type, ← Text.after? back rest)

/-- What a header says. -/
structure Contents where
  /-- The type of the address of a row. -/
  fieldType : Text
  /-- The keys of the array with their numbers. -/
  rows : List (Text × Nat)
  /-- The type that the function returns. -/
  resultType : Text

/-- Reads a header. -/
def read? (text : Text) : Option Contents := do
  let field ← afterLine? "\t\tstd::string_view signature;".toList text
  let (fieldType, rest) ← readType? "\t\t".toList "address;\n".toList field
  let array ← afterLine? "\tconstexpr SignatureEntry signatures[] = \x7b".toList rest
  let (rows, rest) ← readRows? array
  let (resultType, _) ← readType? "\n\tconsteval ".toList
    "SignatureToAddress(const std::string_view signature)\n".toList rest
  return ⟨fieldType, rows, resultType⟩

/-- The number in the first row with a key, or zero. -/
def scan (key : Text) : List (Text × Nat) → Nat
  | [] => 0
  | (first, number) :: rest => if first = key then number else scan key rest

/-- The number of bits of a type of addresses. -/
def typeBits? (type : Text) : Option Nat :=
  if type = "std::uint32_t".toList then some 32
  else if type = "std::uint64_t".toList then some 64
  else none

/-! ## String literals -/

theorem cutLiteral?_plain {c : Char} (notQuote : c ≠ '"') (notBackslash : c ≠ '\\')
    (rest : Text) : cutLiteral? (c :: rest)
      = (cutLiteral? rest).map fun (inside, after) => (c :: inside, after) := by
  rw [cutLiteral?]
  · exact notQuote
  · intro equal
    exact absurd equal notBackslash
  · intro d more equal
    exact absurd equal notBackslash

theorem unescape?_plain {c : Char} (notBackslash : c ≠ '\\') (rest : Text) :
    unescape? (c :: rest) = (unescape? rest).map fun text => c :: text := by
  rw [unescape?]
  · intro equal
    exact absurd equal notBackslash
  · intro d more equal
    exact absurd equal notBackslash

theorem escape_cons (c : Char) (key : Text) : escape (c :: key) = escapeChar c ++ escape key :=
  List.flatMap_cons

/-- A literal goes on behind what was escaped, whatever it holds. -/
theorem cutLiteral?_escape_append (key rest : Text) :
    cutLiteral? (escape key ++ rest)
      = (cutLiteral? rest).map fun (inside, after) => (escape key ++ inside, after) := by
  induction key with
  | nil => exact Option.map_id'.symm
  | cons c key ih =>
      rw [escape_cons, escapeChar]
      split
      next special =>
        rw [List.append_assoc, List.cons_append, List.singleton_append, cutLiteral?, ih,
          Option.map_map]
        rfl
      next ordinary =>
        obtain ⟨notBackslash, notQuote⟩ := not_or.1 ordinary
        rw [List.append_assoc, List.singleton_append, cutLiteral?_plain notQuote notBackslash, ih,
          Option.map_map]
        rfl

/-- The literal of a key ends where it was closed. -/
theorem cutLiteral?_escape (key rest : Text) :
    cutLiteral? (escape key ++ '"' :: rest) = some (escape key, rest) := by
  simp [cutLiteral?_escape_append, cutLiteral?]

/-- Escaping a key loses nothing. -/
theorem unescape?_escape (key : Text) : unescape? (escape key) = some key := by
  induction key with
  | nil => rfl
  | cons c key ih =>
      rw [escape_cons, escapeChar]
      split
      next special =>
        rw [List.cons_append, List.singleton_append, unescape?, if_pos special, ih]
        rfl
      next ordinary =>
        rw [List.singleton_append, unescape?_plain (not_or.1 ordinary).1, ih]
        rfl

/-! ## Rows -/

theorem upperDigit?_upper :
    ∀ digit < 16, upperDigit? (Nat.digitChar digit).toUpper = some digit := by
  decide

/-- The digits of an address are read up to the first character that is none. -/
theorem readNumber?_digits (address : Address) {rest : Text}
    (stop : ∀ c ∈ rest.head?, upperDigit? c = none) :
    readNumber? ((address.digits.map fun digit => (Nat.digitChar digit).toUpper) ++ rest)
      = some (address.toNat, rest) := by
  have small : ∀ digit ∈ address.digits, digit < 16 := fun _ listed => Address.digits_lt listed
  have letters : ∀ c ∈ address.digits.map fun digit => (Nat.digitChar digit).toUpper,
      (upperDigit? c).isSome = true := by
    intro c listed
    obtain ⟨digit, inside, rfl⟩ := List.mem_map.1 listed
    rw [upperDigit?_upper digit (small digit inside)]
    rfl
  have nothing : rest.takeWhile (fun c => (upperDigit? c).isSome) = [] ∧
      rest.dropWhile (fun c => (upperDigit? c).isSome) = rest := by
    cases rest with
    | nil => exact ⟨rfl, rfl⟩
    | cons c rest => simp [stop c rfl]
  rw [readNumber?, List.takeWhile_append_of_pos letters, List.dropWhile_append_of_pos letters,
    nothing.1, nothing.2, List.append_nil, Address.mapM_letters upperDigit?_upper small]
  split
  next failed => simp at failed
  next empty => exact absurd (Option.some.inj empty) address.digits_ne_nil
  next digits _ found =>
    rw [← Option.some.inj found, Address.ofDigits_digits]

theorem row_append (key : Text) (address : Address) (rest : Text) :
    row key address ++ rest
      = "\t\t\x7b \"".toList ++ (escape key ++ '"' :: (", 0x".toList ++
          ((address.digits.map fun digit => (Nat.digitChar digit).toUpper) ++
            (" \x7d,".toList ++ rest)))) := by
  have quote : "\", ".toList = '"' :: ", ".toList := rfl
  have radix : ", 0x".toList = ", ".toList ++ ['0', 'x'] := rfl
  unfold row Address.upperHex
  rw [quote, radix]
  simp only [List.append_assoc, List.cons_append, List.nil_append]

/-- A row is read back, whatever follows it. -/
theorem readRow?_row (key : Text) (address : Address) (rest : Text) :
    readRow? (row key address ++ '\n' :: rest) = some ((key, address.toNat), rest) := by
  have stop : ∀ c ∈ (" \x7d,".toList ++ '\n' :: rest).head?, upperDigit? c = none := by
    intro c first
    cases first
    rfl
  rw [row_append, readRow?_eq_some_iff]
  exact ⟨_, escape key, _, _, rfl, cutLiteral?_escape key _, unescape?_escape key, rfl,
    readNumber?_digits address stop⟩

theorem readRows?_close (rest : Text) :
    readRows? ("\t\x7d;\n".toList ++ rest) = some ([], rest) := by
  rw [readRows?, Text.after?_eq_some_iff.2 rfl]

/-- A row starts with two tabs, so it does not close the array. -/
theorem readRows?_row (key : Text) (address : Address) (rest : Text) :
    readRows? (row key address ++ '\n' :: rest)
      = (readRows? rest).map fun (rows, after) => ((key, address.toNat) :: rows, after) := by
  have isRow : Text.after? "\t\x7d;\n".toList (row key address ++ '\n' :: rest) = none := rfl
  rw [readRows?, isRow]
  dsimp only
  split
  next failed => simp [readRow?_row] at failed
  next found =>
    rw [readRow?_row] at found
    cases found
    rfl

/-- The rows of some pairs are read back up to the end of the array. -/
theorem readRows?_rows (pairs : List (Text × Address)) (rest : Text) :
    readRows? ((pairs.flatMap fun pair => row pair.1 pair.2 ++ ['\n']) ++
        ("\t\x7d;\n".toList ++ rest))
      = some (pairs.map fun pair => (pair.1, pair.2.toNat), rest) := by
  induction pairs with
  | nil => exact readRows?_close rest
  | cons pair pairs ih =>
      rw [List.flatMap_cons, List.append_assoc, List.append_assoc, List.singleton_append,
        readRows?_row, ih]
      rfl

/-! ## Lines -/

/-- The lines of a text, each with its line end. -/
def ended (lines : List Text) : Text := lines.flatMap fun line => line ++ ['\n']

theorem ended_cons (line : Text) (lines : List Text) :
    ended (line :: lines) = line ++ '\n' :: ended lines := by
  simp [ended]

theorem ended_append (front back : List Text) : ended (front ++ back) = ended front ++ ended back :=
  List.flatMap_append

/-- Lines joined by line ends, with the first ones apart. -/
theorem intercalate_newline_append (front : List Text) {back : List Text} (nonempty : back ≠ []) :
    ['\n'].intercalate (front ++ back) = ended front ++ ['\n'].intercalate back := by
  induction front with
  | nil => rfl
  | cons line front ih =>
      have more : front ++ back ≠ [] := List.append_ne_nil_of_right_ne_nil front nonempty
      obtain ⟨next, others, equal⟩ := List.exists_cons_of_ne_nil more
      rw [List.cons_append, ended_cons, List.append_assoc, List.cons_append, ← ih, equal,
        List.intercalate_cons_cons]
      simp

/-- The search for a line looks at the first line and goes on behind it. -/
theorem afterLine?_line {first : Text} (plain : '\n' ∉ first) (line rest : Text) :
    afterLine? line (first ++ '\n' :: rest)
      = if first = line then some rest else afterLine? line rest := by
  have cut : Text.cutAt? '\n' (first ++ '\n' :: rest) = some (first, rest) :=
    Text.cutAt?_eq_some_iff.2 ⟨rfl, plain⟩
  rw [afterLine?]
  split
  next failed => simp [cut] at failed
  next found =>
    rw [cut] at found
    cases found
    rfl

/-- The search for a line passes over other lines. -/
theorem afterLine?_ended {line : Text} (plain : '\n' ∉ line) {lines : List Text}
    (others : ∀ other ∈ lines, '\n' ∉ other ∧ other ≠ line) (rest : Text) :
    afterLine? line (ended lines ++ (line ++ '\n' :: rest)) = some rest := by
  induction lines with
  | nil => exact (afterLine?_line plain line rest).trans (if_pos rfl)
  | cons other lines ih =>
      obtain ⟨plainOther, different⟩ := others other List.mem_cons_self
      rw [ended_cons, List.append_assoc, List.cons_append, afterLine?_line plainOther,
        if_neg different]
      exact ih fun next listed => others next (List.mem_cons_of_mem other listed)

theorem readType?_append {front type back : Text} (solid : ' ' ∉ type) (rest : Text) :
    readType? front back (front ++ (type ++ ' ' :: (back ++ rest))) = some (type, rest) := by
  have cut : Text.cutAt? ' ' (type ++ ' ' :: (back ++ rest)) = some (type, back ++ rest) :=
    Text.cutAt?_eq_some_iff.2 ⟨rfl, solid⟩
  rw [readType?, Text.after?_eq_some_iff.2 rfl]
  simp [cut, Text.after?_eq_some_iff.2 rfl]

end Header

end SignatureExport
