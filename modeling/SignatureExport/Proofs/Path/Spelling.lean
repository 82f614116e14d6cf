import SignatureExport.Path
import SignatureExport.Proofs.Text.Pieces

/-!
# Spellings of paths

A path is spelled by its pieces, at least one and none with a slash inside
(`ofPieces_pieces`, `pieces_ofPieces`).  The lemmas here say what the functions on paths
do to the pieces.  A name inside a directory is one piece more (`pieces_push`), and a path with
another file name ends with that name (`exists_pieces_withFileName`).
-/

namespace SignatureExport

namespace Path

/-- The path that some pieces spell. -/
def ofPieces (pieces : List Text) : Path := ⟨['/'].intercalate pieces⟩

/-! ## Pieces -/

theorem ofPieces_pieces (path : Path) : ofPieces path.pieces = path := by
  rw [ofPieces, pieces, List.intercalate_splitOn]

theorem pieces_ofPieces {pieces : List Text} (nonempty : pieces ≠ [])
    (solid : ∀ piece ∈ pieces, '/' ∉ piece) : (ofPieces pieces).pieces = pieces :=
  (Text.splitOn_intercalate_iff nonempty).2 solid

/-- Two spellings with the same pieces are the same. -/
theorem eq_of_pieces_eq {path other : Path} (same : path.pieces = other.pieces) : path = other := by
  rw [← ofPieces_pieces path, same, ofPieces_pieces]

theorem slash_not_mem_of_mem_pieces {path : Path} {piece : Text} (listed : piece ∈ path.pieces) :
    '/' ∉ piece :=
  Text.not_mem_of_mem_splitOn listed

/-- A spelling with another last piece. -/
theorem pieces_ofPieces_concat {path : Path} {front : List Text} {last piece : Text}
    (ends : path.pieces = front ++ [last]) (solid : '/' ∉ piece) :
    (ofPieces (front ++ [piece])).pieces = front ++ [piece] := by
  refine pieces_ofPieces (by simp) ?_
  intro other listed
  rcases List.mem_append.1 listed with inFront | isLast
  · exact slash_not_mem_of_mem_pieces (ends ▸ List.mem_append_left _ inFront)
  · exact List.mem_singleton.1 isLast ▸ solid

/-- A path starts with a slash if its first piece is empty and not its only one. -/
theorem head_text_iff {path : Path} :
    path.text.head? = some '/' ↔ ∃ second others, path.pieces = [] :: second :: others := by
  constructor
  · intro slash
    obtain ⟨rest, equal⟩ := List.head?_eq_some_iff.1 slash
    obtain ⟨second, others, cut⟩ := List.exists_cons_of_ne_nil (List.splitOn_ne_nil '/' rest)
    refine ⟨second, others, ?_⟩
    rw [pieces, equal, ← List.nil_append ('/' :: rest), Text.splitOn_append_cons, cut]
    rfl
  · rintro ⟨second, others, cut⟩
    rw [← ofPieces_pieces path, cut, ofPieces, List.intercalate_cons_cons]
    rfl

/-- A path with an empty last piece behind another ends with a slash. -/
theorem getLast?_text_of_concat_nil {path : Path} {front : List Text}
    (ends : path.pieces = front ++ [[]]) (nonempty : front ≠ []) :
    path.text.getLast? = some '/' := by
  obtain ⟨start, equal⟩ := Text.exists_intercalate_concat_nil '/' nonempty
  rw [← ofPieces_pieces path, ends, ofPieces, equal, List.getLast?_concat]

/-! ## Components -/

/-- The component that tells where a path starts, a leading slash or a leading dot. -/
def lead? (path : Path) : Option Component :=
  match path.pieces with
  | [] :: _ :: _ => some .root
  | ['.'] :: _ => some .here
  | _ => none

theorem components_eq (path : Path) :
    path.components = path.lead?.toList ++ path.pieces.filterMap Component.ofPiece? := by
  rw [components, lead?]
  split
  next cut => simp only [cut]; rfl
  next cut => simp only [cut]; rfl
  next => simp

theorem lead?_eq_root_iff {path : Path} :
    path.lead? = some .root ↔ path.text.head? = some '/' := by
  rw [head_text_iff, lead?]
  split
  next second others cut => simp [cut]
  next cut => simp [cut]
  next notRoot _ =>
    refine iff_of_false (by simp) ?_
    rintro ⟨second, others, cut⟩
    exact notRoot second others cut

/-- Pieces without `..` spell the names among them. -/
theorem filterMap_ofPiece? {pieces : List Text} (free : ['.', '.'] ∉ pieces) :
    pieces.filterMap Component.ofPiece? = (pieces.filter (!isIdle ·)).map .name := by
  induction pieces with
  | nil => rfl
  | cons piece pieces ih =>
      rw [List.mem_cons, not_or] at free
      have notParent : piece ≠ ['.', '.'] := fun same => free.1 same.symm
      rw [List.filterMap_cons, ih free.2, Component.ofPiece?]
      cases named : isIdle piece with
      | true => simp [named]
      | false => simp [named, notParent]

/-! ## File names -/

section Named

variable {piece : Text} {c : Char} (listed : c ∈ piece) (notDot : c ≠ '.')

include listed notDot

theorem isIdle_eq_false_of_mem : isIdle piece = false := by
  have nonempty : piece ≠ [] := List.ne_nil_of_mem listed
  have notHere : piece ≠ ['.'] := by
    rintro rfl
    exact notDot (List.mem_singleton.1 listed)
  simp [isIdle, nonempty, notHere]

theorem ne_parent_of_mem : piece ≠ ['.', '.'] := by
  rintro rfl
  simp [notDot] at listed

end Named

/-- The file name is the last piece that is not idle, if it is not the one for the parent. -/
theorem cut?_eq_some_iff {path : Path} {front : List Text} {name : Text} :
    path.cut? = some (front, name) ↔
      ∃ idle, path.pieces = front ++ name :: idle ∧ (∀ piece ∈ idle, isIdle piece = true) ∧
        isIdle name = false ∧ name ≠ ['.', '.'] := by
  rw [cut?]
  constructor
  · intro found
    split at found
    next => cases found
    next last back cut =>
      split at found
      next => cases found
      next notParent =>
        cases found
        have parts : path.pieces = back.reverse ++ name :: _ ∧ _ :=
          Text.reverse_takeWhile_dropWhile_eq_iff.1
            ⟨(List.reverse_reverse _).symm, by rw [cut, List.reverse_reverse]⟩
        exact ⟨_, parts.1, parts.2.1, parts.2.2, notParent⟩
  · rintro ⟨idle, cut, idles, named, notParent⟩
    obtain ⟨-, back⟩ := Text.reverse_takeWhile_dropWhile_eq_iff.2 ⟨cut, idles, named⟩
    rw [back]
    simp [notParent]

/-- A name has an extension behind its last dot, unless it starts with that dot. -/
theorem splitName_eq_some_iff {name stem extension : Text} :
    splitName name = (stem, some extension) ↔
      name = stem ++ '.' :: extension ∧ stem ≠ [] ∧ '.' ∉ extension := by
  rw [splitName]
  constructor
  · intro found
    split at found
    next => cases found
    next => cases found
    next dot back nonempty cut =>
      cases found
      have parts : name = back.reverse ++ dot :: _ ∧ _ :=
        Text.reverse_takeWhile_dropWhile_eq_iff.1
          ⟨(List.reverse_reverse _).symm, by rw [cut, List.reverse_reverse]⟩
      obtain ⟨equal, free, isDot⟩ := parts
      obtain rfl : dot = '.' := by simpa using isDot
      exact ⟨equal, by simpa using nonempty, Text.forall_bne_iff.1 free⟩
  · rintro ⟨rfl, nonempty, free⟩
    obtain ⟨more, back⟩ := Text.reverse_takeWhile_dropWhile_eq_iff.2
      ⟨rfl, Text.forall_bne_iff.2 free, bne_self_eq_false '.'⟩
    obtain ⟨c, others, equal⟩ :=
      List.exists_cons_of_ne_nil (mt List.reverse_eq_nil_iff.1 nonempty)
    rw [more, back, equal]
    simp [← equal]

theorem splitName_eq_none {name stem : Text} (none : splitName name = (stem, none)) :
    stem = name := by
  rw [splitName] at none
  split at none
  next => exact (Prod.mk.inj none).1.symm
  next => exact (Prod.mk.inj none).1.symm
  next => cases none

/-- A name is its stem, with an extension behind a dot or with nothing behind it. -/
theorem exists_eq_stem_append (name : Text) :
    ∃ rest, name = (splitName name).1 ++ rest ∧ ∀ c ∈ rest.head?, c = '.' := by
  cases parts : splitName name with
  | mk stem extension =>
      cases extension with
      | none =>
          obtain rfl := splitName_eq_none parts
          exact ⟨[], by simp, by simp⟩
      | some extension =>
          obtain ⟨equal, -, -⟩ := splitName_eq_some_iff.1 parts
          exact ⟨'.' :: extension, equal, by simp⟩

theorem slash_not_mem_stem {name : Text} (solid : '/' ∉ name) : '/' ∉ (splitName name).1 := by
  obtain ⟨rest, whole, -⟩ := exists_eq_stem_append name
  exact fun inside => solid (whole ▸ List.mem_append_left rest inside)

theorem stem_ne_nil {name : Text} (nonempty : name ≠ []) : (splitName name).1 ≠ [] := by
  cases parts : splitName name with
  | mk stem extension =>
      cases extension with
      | none => exact splitName_eq_none parts ▸ nonempty
      | some extension => exact (splitName_eq_some_iff.1 parts).2.1

/-- A stem is followed by a dot only, so with anything else behind it, it is another name. -/
theorem stem_append_ne {suffix : Text} (noDot : ∃ c ∈ suffix.head?, c ≠ '.') (name : Text) :
    (splitName name).1 ++ suffix ≠ name := by
  intro same
  obtain ⟨rest, whole, dotted⟩ := exists_eq_stem_append name
  obtain rfl : rest = suffix := List.append_cancel_left (whole.symm.trans same.symm)
  obtain ⟨c, first, notDot⟩ := noDot
  exact notDot (dotted c first)

section StemWithExtension

variable {name extension : Text} (nonempty : name ≠ []) (noDot : '.' ∉ extension)

include nonempty noDot

theorem splitName_stem_append :
    splitName ((splitName name).1 ++ '.' :: extension) = ((splitName name).1, some extension) :=
  splitName_eq_some_iff.2 ⟨rfl, stem_ne_nil nonempty, noDot⟩

/-- A stem with an extension is the old name if the name had that extension. -/
theorem stem_append_eq_iff :
    (splitName name).1 ++ '.' :: extension = name ↔ (splitName name).2 = some extension := by
  constructor
  · intro same
    have parts := splitName_stem_append nonempty noDot
    rw [same] at parts
    rw [parts]
  · intro isExtension
    have parts : splitName name = ((splitName name).1, some extension) := Prod.ext rfl isExtension
    exact (splitName_eq_some_iff.1 parts).1.symm

end StemWithExtension

section Cut

variable {path : Path} {front : List Text} {name : Text} (cut : path.cut? = some (front, name))

include cut

theorem fileName?_of_cut? : path.fileName? = some name := by
  rw [fileName?, cut, Option.map_some]

theorem stem?_of_cut? : path.stem? = some (splitName name).1 := by
  rw [stem?, fileName?_of_cut? cut, Option.map_some]

theorem extension?_of_cut? : path.extension? = (splitName name).2 := by
  rw [extension?, fileName?_of_cut? cut, Option.bind_some]

theorem name_ne_nil_of_cut? : name ≠ [] := by
  obtain ⟨_, -, -, named, -⟩ := cut?_eq_some_iff.1 cut
  rintro rfl
  exact absurd named (by decide)

theorem slash_not_mem_of_cut? : '/' ∉ name := by
  obtain ⟨_, pieces, -⟩ := cut?_eq_some_iff.1 cut
  exact @slash_not_mem_of_mem_pieces path _ (by simp [pieces])

theorem slash_not_mem_of_mem_front {piece : Text} (listed : piece ∈ front) : '/' ∉ piece := by
  obtain ⟨_, pieces, -⟩ := cut?_eq_some_iff.1 cut
  exact slash_not_mem_of_mem_pieces (pieces ▸ List.mem_append_left _ listed)

end Cut

/-! ## Other files beside a path -/

theorem head?_text_push {path : Path} (nonempty : path.text ≠ []) (name : Text) :
    (path.push name).text.head? = path.text.head? := by
  rw [push, if_neg nonempty]
  split
  next => exact List.head?_append_of_ne_nil _ nonempty
  next => exact List.head?_append_of_ne_nil _ nonempty

section LastPiece

variable {path : Path} {front : List Text} {last : Text} (ends : path.pieces = front ++ [last])

include ends

/-- A name inside a directory is one piece more, but for a slash at the end of the
directory. -/
theorem pieces_push {name : Text} (solid : '/' ∉ name) :
    (path.push name).pieces = front ++ (if last = [] then [] else [last]) ++ [name] := by
  have lone : name.splitOn '/' = [name] := List.splitOn_eq_singleton solid
  rw [push]
  split
  next empty =>
    have single : front ++ [last] = [] ++ [[]] := by rw [← ends, pieces, empty]; rfl
    obtain ⟨rfl, single⟩ := List.append_inj' single rfl
    obtain rfl : last = [] := by simpa using single
    exact lone
  next nonempty =>
    split
    next slash =>
      obtain ⟨start, equal⟩ := List.getLast?_eq_some_iff.1 slash
      have whole : front ++ [last] = start.splitOn '/' ++ [[]] := by
        rw [← ends, pieces, equal, Text.splitOn_append_cons]
        rfl
      obtain ⟨rfl, single⟩ := List.append_inj' whole rfl
      obtain rfl : last = [] := by simpa using single
      rw [pieces, equal, List.append_assoc, List.singleton_append, Text.splitOn_append_cons, lone]
      simp
    next noSlash =>
      have named : last ≠ [] := by
        rintro rfl
        rcases List.eq_nil_or_concat front with rfl | ⟨before, piece, rfl⟩
        · exact nonempty (by rw [← ofPieces_pieces path, ends]; rfl)
        · exact noSlash (getLast?_text_of_concat_nil ends (by simp))
      have cut : path.text.splitOn '/' = front ++ [last] := ends
      rw [pieces, Text.splitOn_append_cons, cut, lone, if_neg named]

theorem cut?_of_last (named : isIdle last = false) (notParent : last ≠ ['.', '.']) :
    path.cut? = some (front, last) :=
  cut?_eq_some_iff.2 ⟨[], ends, by simp, named, notParent⟩

theorem cut?_of_parent (parent : last = ['.', '.']) : path.cut? = none := by
  have back : path.pieces.reverse.dropWhile isIdle = ['.', '.'] :: front.reverse := by
    rw [ends, parent, List.reverse_append, List.reverse_singleton, List.singleton_append]
    exact List.dropWhile_cons_of_neg (by decide)
  rw [cut?, back]
  simp

end LastPiece

/-- A path with another file name ends with that name. -/
theorem exists_pieces_withFileName (path : Path) {name : Text} (solid : '/' ∉ name) :
    ∃ front, (path.withFileName name).pieces = front ++ [name] := by
  obtain ⟨directory, pushed⟩ : ∃ directory : Path, path.withFileName name = directory.push name := by
    rw [withFileName]
    split
    next => exact ⟨_, rfl⟩
    next => exact ⟨_, rfl⟩
  rw [pushed]
  rcases List.eq_nil_or_concat directory.pieces with empty | ⟨front, last, ends⟩
  · exact absurd empty (List.splitOn_ne_nil '/' _)
  · rw [List.concat_eq_append] at ends
    exact ⟨_, pieces_push ends solid⟩

end Path

end SignatureExport
