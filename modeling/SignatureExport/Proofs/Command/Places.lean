import SignatureExport.Command.FileTree
import SignatureExport.Proofs.Path.Spelling

/-!
# Where paths lead

A piece leads from a directory to a place (`step_eq_ok_iff`), and a path leads where its
pieces lead one after the other.  A path that leads to a file, and a path that can be
written to, end with the name of the place (`exists_last_of_resolve`,
`exists_last_of_writePlace`).  A path without `..` leads to the place below its start
that its names spell (`foldlM_step_eq`), so two such paths with the same start lead to
the same place only if they have the same names.
-/

namespace SignatureExport

namespace FileTree

variable {tree : FileTree} {path : Path} {place : Place}

/-- A chain of two computations succeeds if both do. -/
theorem bind_eq_ok_iff {α β ε : Type} {first : Except ε α} {next : α → Except ε β} {result : β} :
    (first >>= next) = .ok result ↔ ∃ value, first = .ok value ∧ next value = .ok result := by
  cases first with
  | error fault => simp [bind, Except.bind]
  | ok value => simp [bind, Except.bind]

/-! ## One piece -/

/-- Where a piece leads from a place. -/
inductive Leads (place : Place) : Text → Place → Prop where
  | idle {piece : Text} : Path.isIdle piece = true → Leads place piece place
  | parent : Leads place ['.', '.'] place.dropLast
  | name {piece : Text} : Path.isIdle piece = false → piece ≠ ['.', '.'] →
      Utf8.width piece ≤ maxName → Leads place piece (place ++ [piece])

theorem needDirectory_eq_ok_iff : tree.needDirectory place = .ok () ↔
    tree.node? place = some .directory := by
  rw [needDirectory]
  split
  next none => simp [none]
  next file => simp [file]
  next directory => simp [directory]

/-- A piece leads somewhere only from a directory. -/
theorem step_eq_ok_iff {piece : Text} {next : Place} :
    tree.step place piece = .ok next ↔
      tree.node? place = some .directory ∧ Leads place piece next := by
  rw [step, bind_eq_ok_iff]
  constructor
  · rintro ⟨⟨⟩, isDirectory, rest⟩
    refine ⟨needDirectory_eq_ok_iff.1 isDirectory, ?_⟩
    split at rest
    next isIdle =>
      cases rest
      exact .idle isIdle
    next notIdle =>
      split at rest
      next isParent =>
        cases rest
        exact isParent ▸ .parent
      next notParent =>
        split at rest
        next => cases rest
        next short =>
          cases rest
          exact .name (Bool.eq_false_iff.2 notIdle) notParent (Nat.not_lt.1 short)
  · rintro ⟨isDirectory, leads⟩
    refine ⟨(), needDirectory_eq_ok_iff.2 isDirectory, ?_⟩
    cases leads with
    | idle isIdle => rw [if_pos isIdle]; rfl
    | parent => rfl
    | name notIdle notParent short =>
        rw [if_neg (Bool.eq_false_iff.1 notIdle), if_neg notParent, if_neg (Nat.not_lt.2 short)]
        rfl

/-- A piece that is a name leads to a place with that name. -/
theorem Leads.eq_append {piece : Text} {next : Place} (leads : Leads place piece next)
    (named : Path.isIdle piece = false) (notParent : piece ≠ ['.', '.']) :
    next = place ++ [piece] := by
  cases leads with
  | idle isIdle => simp [named] at isIdle
  | parent => exact absurd rfl notParent
  | name => rfl

/-! ## Whole paths -/

/-- A path leads to a place if its pieces do. -/
theorem resolve_eq_ok_iff : tree.resolve path = .ok place ↔
    checkLength path = .ok () ∧ path.pieces.foldlM tree.step (tree.start path) = .ok place := by
  rw [resolve, bind_eq_ok_iff]
  exact ⟨fun ⟨_, short, follows⟩ => ⟨short, follows⟩, fun ⟨short, follows⟩ => ⟨(), short, follows⟩⟩

/-- The contents of a path are those of the file that it leads to. -/
theorem contents_eq_ok_iff {bytes : Bytes} : tree.contents path = .ok bytes ↔
    ∃ place, tree.resolve path = .ok place ∧ tree.node? place = some (.file bytes) := by
  rw [contents, bind_eq_ok_iff]
  refine exists_congr fun place => and_congr_right fun _ => ?_
  split
  next none => simp [none]
  next directory => simp [directory]
  next found => simp [found, pure, Except.pure]

theorem checkFault_eq_ok_iff {faults : List (Place × FileError)} :
    checkFault faults place = .ok () ↔ faults.lookup place = none := by
  rw [checkFault]
  cases faults.lookup place with
  | none => simp
  | some cause => simp

/-- The bytes that are read are the contents of a file that can be read. -/
theorem readFile_eq_ok_iff {bytes : Bytes} : tree.readFile path = .ok bytes ↔
    tree.contents path = .ok bytes ∧
      ∃ place, tree.resolve path = .ok place ∧ tree.unreadable.lookup place = none := by
  rw [readFile, bind_eq_ok_iff]
  constructor
  · rintro ⟨read, found, rest⟩
    obtain ⟨place, leads, rest⟩ := bind_eq_ok_iff.1 rest
    obtain ⟨⟨⟩, readable, equal⟩ := bind_eq_ok_iff.1 rest
    cases equal
    exact ⟨found, place, leads, checkFault_eq_ok_iff.1 readable⟩
  · rintro ⟨found, place, leads, readable⟩
    refine ⟨bytes, found, bind_eq_ok_iff.2 ⟨place, leads, ?_⟩⟩
    exact bind_eq_ok_iff.2 ⟨(), checkFault_eq_ok_iff.2 readable, rfl⟩

theorem contents_of_readFile {bytes : Bytes} (read : tree.readFile path = .ok bytes) :
    tree.contents path = .ok bytes :=
  (readFile_eq_ok_iff.1 read).1

theorem isFile_of_readFile {bytes : Bytes} (read : tree.readFile path = .ok bytes) :
    tree.isFile path = true := by
  obtain ⟨place, leads, found⟩ := contents_eq_ok_iff.1 (contents_of_readFile read)
  have isNode : (tree.resolve path).toOption.bind tree.node? = some (.file bytes) := by
    rw [leads]
    exact found
  rw [isFile, isNode]

/-- A path that leads to a file ends with a name or with `..`. -/
theorem exists_last_of_resolve {bytes : Bytes} (found : tree.resolve path = .ok place)
    (isFile : tree.node? place = some (.file bytes)) :
    ∃ front last directory, path.pieces = front ++ [last] ∧
      front.foldlM tree.step (tree.start path) = .ok directory ∧
      tree.node? directory = some .directory ∧ Leads directory last place ∧
      Path.isIdle last = false := by
  obtain ⟨-, follows⟩ := resolve_eq_ok_iff.1 found
  rcases List.eq_nil_or_concat path.pieces with empty | ⟨front, last, ends⟩
  · exact absurd empty (List.splitOn_ne_nil '/' path.text)
  · rw [List.concat_eq_append] at ends
    rw [ends, List.foldlM_append, bind_eq_ok_iff] at follows
    obtain ⟨directory, before, final⟩ := follows
    rw [List.foldlM_cons, bind_eq_ok_iff] at final
    obtain ⟨next, final, stays⟩ := final
    cases stays
    obtain ⟨isDirectory, leads⟩ := step_eq_ok_iff.1 final
    refine ⟨front, last, directory, ends, before, isDirectory, leads, ?_⟩
    cases leads with
    | idle => simp [isFile] at isDirectory
    | parent => rfl
    | name named => exact named

/-- A path that ends with no slash has no empty pieces behind the last one. -/
theorem pieces_eq_of_noSlash {last : Text} {front : List Text}
    (cut : path.pieces.reverse.dropWhile (· = []) = last :: front)
    (noSlash : path.text.getLast? ≠ some '/') : path.pieces = front.reverse ++ [last] := by
  obtain ⟨back, isBack⟩ : ∃ back : List Text,
      path.pieces.reverse.takeWhile (· = []) = back.reverse := ⟨_, (List.reverse_reverse _).symm⟩
  obtain ⟨ends, empty, -⟩ := Text.reverse_takeWhile_dropWhile_eq_iff.1
    ⟨isBack, by rw [cut, List.reverse_reverse]⟩
  rcases List.eq_nil_or_concat back with rfl | ⟨more, piece, rfl⟩
  · exact ends
  · obtain rfl : piece = [] := by simpa using empty piece (by simp)
    have trailing : path.pieces = (front.reverse ++ last :: more) ++ [[]] := by simp [ends]
    exact absurd (Path.getLast?_text_of_concat_nil trailing (by simp)) noSlash

/-- A path that can be written to leads to its place piece by piece.  The last piece is a
name, and there is no directory at the place. -/
theorem exists_steps_of_writePlace (found : tree.writePlace path = .ok place) :
    checkLength path = .ok () ∧ tree.node? place ≠ some .directory ∧
      ∃ front last directory, path.pieces = front ++ [last] ∧
        front.foldlM tree.step (tree.start path) = .ok directory ∧
        tree.step directory last = .ok place ∧
        Path.isIdle last = false ∧ last ≠ ['.', '.'] := by
  rw [writePlace, bind_eq_ok_iff] at found
  obtain ⟨⟨⟩, short, found⟩ := found
  split at found
  next => cases found
  next last front cut =>
    rw [bind_eq_ok_iff] at found
    obtain ⟨directory, before, found⟩ := found
    rw [bind_eq_ok_iff] at found
    obtain ⟨⟨⟩, -, found⟩ := found
    dsimp only at found
    split at found
    next => cases found
    next allowed =>
      simp only [Bool.or_eq_true, decide_eq_true_iff, not_or, Bool.not_eq_true] at allowed
      obtain ⟨⟨named, notParent⟩, noSlash⟩ := allowed
      rw [bind_eq_ok_iff] at found
      obtain ⟨next, final, found⟩ := found
      split at found
      next => cases found
      next free =>
        obtain ⟨⟨⟩, -, equal⟩ := bind_eq_ok_iff.1 found
        cases equal
        exact ⟨short, free, front.reverse, last, directory, pieces_eq_of_noSlash cut noSlash, before,
          final, named, notParent⟩

/-- A path that can be written to ends with the name of its place, in a directory. -/
theorem exists_last_of_writePlace (found : tree.writePlace path = .ok place) :
    ∃ front last directory, path.pieces = front ++ [last] ∧
      front.foldlM tree.step (tree.start path) = .ok directory ∧
      tree.node? directory = some .directory ∧ place = directory ++ [last] ∧
      Path.isIdle last = false ∧ last ≠ ['.', '.'] := by
  obtain ⟨-, -, front, last, directory, ends, before, final, named, notParent⟩ :=
    exists_steps_of_writePlace found
  obtain ⟨isDirectory, leads⟩ := step_eq_ok_iff.1 final
  exact ⟨front, last, directory, ends, before, isDirectory, leads.eq_append named notParent, named,
    notParent⟩

/-- A path that can be written to leads to the place of the write. -/
theorem resolve_of_writePlace (found : tree.writePlace path = .ok place) :
    tree.resolve path = .ok place := by
  obtain ⟨short, -, front, last, directory, ends, before, final, -⟩ :=
    exists_steps_of_writePlace found
  refine resolve_eq_ok_iff.2 ⟨short, ?_⟩
  rw [ends, List.foldlM_append, bind_eq_ok_iff]
  refine ⟨directory, before, ?_⟩
  rw [List.foldlM_cons, bind_eq_ok_iff]
  exact ⟨place, final, rfl⟩

/-! ## Paths without parents -/

/-- Paths that start alike start from the same place. -/
theorem start_eq {other : Path} (lead : path.lead? = other.lead?) :
    tree.start path = tree.start other := by
  rw [start, start]
  simp only [← Path.lead?_eq_root_iff, lead]

/-- Pieces without `..` lead to the place that their names spell. -/
theorem foldlM_step_eq {pieces : List Text} {next : Place} (free : ['.', '.'] ∉ pieces)
    (found : pieces.foldlM tree.step place = .ok next) :
    next = place ++ pieces.filter (!Path.isIdle ·) := by
  induction pieces generalizing place with
  | nil =>
      cases found
      simp
  | cons piece pieces ih =>
      rw [List.foldlM_cons, bind_eq_ok_iff] at found
      obtain ⟨middle, first, rest⟩ := found
      rw [List.mem_cons, not_or] at free
      rw [ih free.2 rest]
      obtain ⟨-, leads⟩ := step_eq_ok_iff.1 first
      cases leads with
      | idle isIdle => simp [isIdle]
      | parent => exact absurd rfl free.1
      | name named => simp [named]

theorem place_of_resolve (found : tree.resolve path = .ok place)
    (straight : ['.', '.'] ∉ path.pieces) :
    place = tree.start path ++ path.pieces.filter (!Path.isIdle ·) :=
  foldlM_step_eq straight (resolve_eq_ok_iff.1 found).2

theorem place_of_writePlace (leads : tree.writePlace path = .ok place)
    (straight : ['.', '.'] ∉ path.pieces) :
    place = tree.start path ++ path.pieces.filter (!Path.isIdle ·) := by
  obtain ⟨front, last, directory, ends, follows, -, equal, named, -⟩ :=
    exists_last_of_writePlace leads
  have straightFront : ['.', '.'] ∉ front := fun inside => straight (by simp [ends, inside])
  rw [equal, foldlM_step_eq straightFront follows, ends, List.filter_append]
  simp [named]

/-! ## Another node -/

theorem lookup_filter_ne {nodes : List (Place × Node)} {other : Place} (different : other ≠ place) :
    (nodes.filter (·.1 ≠ place)).lookup other = nodes.lookup other := by
  induction nodes with
  | nil => rfl
  | cons node nodes ih =>
      rw [List.filter_cons]
      split
      next => rw [List.lookup_cons, List.lookup_cons, ih]
      next isPlace =>
        have same : node.1 = place := by simpa using isPlace
        have skipped : (other == node.1) = false := by simp [same, different]
        rw [ih, List.lookup_cons, skipped]

/-- Writing a file changes nothing anywhere else. -/
theorem node?_put {node : Node} {other : Place} (nonempty : place ≠ []) :
    (tree.put place node).node? other = if other = place then some node else tree.node? other := by
  by_cases same : other = place
  · rw [if_pos same, node?, put, same, if_neg nonempty, List.lookup_cons_self]
  · have skipped : (other == place) = false := by simp [same]
    rw [if_neg same, node?, node?, put, List.lookup_cons, skipped, lookup_filter_ne same]

/-! ## Reading what was written -/

/-- The root is a directory. -/
theorem ne_nil_of_node?_ne (free : tree.node? place ≠ some .directory) : place ≠ [] := by
  rintro rfl
  exact free rfl

/-- Pieces that lead to a place still do when a file is written where no directory is. -/
theorem foldlM_step_put {pieces : List Text} {start next : Place} (bytes : Bytes)
    (free : tree.node? place ≠ some .directory)
    (follows : pieces.foldlM tree.step start = .ok next) :
    pieces.foldlM (tree.put place (.file bytes)).step start = .ok next := by
  induction pieces generalizing start with
  | nil => exact follows
  | cons piece pieces ih =>
      rw [List.foldlM_cons, bind_eq_ok_iff] at follows ⊢
      obtain ⟨middle, first, rest⟩ := follows
      obtain ⟨isDirectory, leads⟩ := step_eq_ok_iff.1 first
      have elsewhere : start ≠ place := by
        rintro rfl
        exact free isDirectory
      refine ⟨middle, step_eq_ok_iff.2 ⟨?_, leads⟩, ih rest⟩
      rw [node?_put (ne_nil_of_node?_ne free), if_neg elsewhere, isDirectory]

/-- The bytes that are written to a path are its contents. -/
theorem contents_put (found : tree.writePlace path = .ok place) (bytes : Bytes) :
    (tree.put place (.file bytes)).contents path = .ok bytes := by
  obtain ⟨-, free, -⟩ := exists_steps_of_writePlace found
  obtain ⟨short, follows⟩ := resolve_eq_ok_iff.1 (resolve_of_writePlace found)
  refine contents_eq_ok_iff.2 ⟨place, resolve_eq_ok_iff.2 ⟨short, ?_⟩, ?_⟩
  · exact foldlM_step_put bytes free follows
  · rw [node?_put (ne_nil_of_node?_ne free), if_pos rfl]

end FileTree

end SignatureExport
