import Mathlib.Data.List.TakeWhile
import SignatureExport.Proofs.Path.Spelling

/-!
# Components of paths

The file name of a path is its last component (`components_of_cut?`), and the parent has the
components in front of the last (`exists_parent?`).  A name inside a directory is one component
more (`components_push`).  So files in the same directory are told apart by their names, however
their paths are spelled (`same_iff_of_components`).
-/

namespace SignatureExport

namespace Path

/-! ## Components in front of a file name -/

/-- The component that tells where a path starts, by the first of its pieces. -/
def start? (pieces : List Text) : Option Component :=
  match pieces.head? with
  | some [] => some .root
  | some ['.'] => some .here
  | _ => none

/-- The components that the pieces in front of a file name spell. -/
def steps (front : List Text) : List Component :=
  (start? front).toList ++ front.filterMap Component.ofPiece?

theorem start?_append {front : List Text} {last : Text} (named : isIdle last = false)
    (idle : List Text) : start? (front ++ last :: idle) = start? front := by
  cases front with
  | nil =>
      rw [start?, List.nil_append, List.head?_cons]
      split
      next equal =>
        cases equal
        exact absurd named (by decide)
      next equal =>
        cases equal
        exact absurd named (by decide)
      next => rfl
  | cons first front => rfl

/-- A path starts as its first piece says, unless that piece is empty and the only one. -/
theorem lead?_eq_start? {path : Path} (nonempty : path.pieces ≠ [[]]) :
    path.lead? = start? path.pieces := by
  unfold lead? start?
  split
  next second others cut =>
    rw [cut]
    rfl
  next others cut =>
    rw [cut]
    rfl
  next notRoot notHere =>
    split
    next isRoot =>
      obtain ⟨others, cut⟩ := List.head?_eq_some_iff.1 isRoot
      cases others with
      | nil => exact absurd cut nonempty
      | cons second others => exact (notRoot second others cut).elim
    next isHere =>
      obtain ⟨others, cut⟩ := List.head?_eq_some_iff.1 isHere
      exact (notHere others cut).elim
    next => rfl

theorem filterMap_idle {idle : List Text} (idles : ∀ piece ∈ idle, isIdle piece = true) :
    idle.filterMap Component.ofPiece? = [] := by
  rw [List.filterMap_eq_nil_iff]
  intro piece listed
  rw [Component.ofPiece?, if_pos (idles piece listed)]

theorem steps_append {front idle : List Text} {last : Text} (named : isIdle last = false)
    (idles : ∀ piece ∈ idle, isIdle piece = true) :
    steps (front ++ last :: idle) = steps front ++ (Component.ofPiece? last).toList := by
  rw [steps, start?_append named, List.filterMap_append, List.filterMap_cons, filterMap_idle idles,
    steps, List.append_assoc]
  cases Component.ofPiece? last with
  | none => rfl
  | some component => rfl

theorem components_eq_steps {path : Path} (nonempty : path.pieces ≠ [[]]) :
    path.components = steps path.pieces := by
  rw [components_eq, lead?_eq_start? nonempty, steps]

theorem pieces_ne_of_mem {path : Path} {piece : Text} (listed : piece ∈ path.pieces)
    (nonempty : piece ≠ []) : path.pieces ≠ [[]] := by
  intro empty
  rw [empty, List.mem_singleton] at listed
  exact nonempty listed

theorem components_of_pieces {path : Path} {front idle : List Text} {last : Text}
    (cut : path.pieces = front ++ last :: idle) (named : isIdle last = false)
    (idles : ∀ piece ∈ idle, isIdle piece = true) :
    path.components = steps front ++ (Component.ofPiece? last).toList := by
  have nonempty : last ≠ [] := by
    rintro rfl
    exact absurd named (by decide)
  have listed : last ∈ path.pieces := by simp [cut]
  rw [components_eq_steps (pieces_ne_of_mem listed nonempty), cut, steps_append named idles]

theorem ofPiece?_of_name {name : Text} (named : isIdle name = false) (notParent : name ≠ ['.', '.']) :
    Component.ofPiece? name = some (.name name) := by
  rw [Component.ofPiece?, named, if_neg Bool.false_ne_true, if_neg notParent]

/-- The file name is the last component. -/
theorem components_of_cut? {path : Path} {front : List Text} {name : Text}
    (cut : path.cut? = some (front, name)) : path.components = steps front ++ [.name name] := by
  obtain ⟨idle, pieces, idles, named, notParent⟩ := cut?_eq_some_iff.1 cut
  rw [components_of_pieces pieces named idles, ofPiece?_of_name named notParent]
  rfl

/-! ## Parents -/

/-- The path in front of a piece has the components that the pieces there spell. -/
theorem components_ofFront {front : List Text} (solid : ∀ piece ∈ front, '/' ∉ piece) :
    (ofFront front).components = steps front := by
  unfold ofFront
  cases back : front.reverse.dropWhile isIdle with
  | nil =>
      have idles : ∀ piece ∈ front, isIdle piece = true := fun piece listed =>
        List.dropWhile_eq_nil_iff.1 back piece (List.mem_reverse.2 listed)
      rw [steps, filterMap_idle idles, List.append_nil]
      cases front with
      | nil => rfl
      | cons first front =>
          have isIdle : first = [] ∨ first = ['.'] := by
            simpa [Path.isIdle] using idles first List.mem_cons_self
          rcases isIdle with rfl | rfl
          · rfl
          · rfl
  | cons last before =>
      have split : front = before.reverse ++ last :: _ ∧ _ :=
        Text.reverse_takeWhile_dropWhile_eq_iff.1
          ⟨(List.reverse_reverse _).symm, by rw [back, List.reverse_reverse]⟩
      obtain ⟨equal, idles, named⟩ := split
      have kept : (last :: before).reverse = before.reverse ++ [last] := List.reverse_cons
      have solidKept : ∀ piece ∈ before.reverse ++ [last], '/' ∉ piece := by
        intro piece listed
        refine solid piece ?_
        rw [equal]
        rcases List.mem_append.1 listed with earlier | isLast
        · exact List.mem_append_left _ earlier
        · simp [List.mem_singleton.1 isLast]
      have whole := pieces_ofPieces (List.concat_ne_nil _ _) solidKept
      rw [equal, steps_append named idles, ← components_of_pieces whole named (by simp), kept]
      obtain ⟨first, others, isCons⟩ :=
        List.exists_cons_of_ne_nil (List.concat_ne_nil last before.reverse)
      rw [isCons]
      rfl

/-- A piece that is not idle spells a component. -/
theorem exists_ofPiece? {piece : Text} (named : isIdle piece = false) :
    ∃ component, Component.ofPiece? piece = some component := by
  by_cases isParent : piece = ['.', '.']
  · exact ⟨.parent, isParent ▸ rfl⟩
  · exact ⟨.name piece, ofPiece?_of_name named isParent⟩

/-- The parent of a path has its components, but for the last. -/
theorem exists_parent? {path : Path} {front : List Component} {last : Component}
    (ends : path.components = front ++ [last]) (notRoot : last ≠ .root) :
    ∃ parent, path.parent? = some parent ∧ parent.components = front := by
  have nonempty : path.pieces ≠ [[]] := by
    intro empty
    rw [components, empty] at ends
    exact List.concat_ne_nil last front ends.symm
  rw [components_eq_steps nonempty] at ends
  rw [parent?]
  cases back : path.pieces.reverse.dropWhile isIdle with
  | nil =>
      -- the last component is the leading dot, which stands alone
      have idles : ∀ piece ∈ path.pieces, isIdle piece = true := fun piece listed =>
        List.dropWhile_eq_nil_iff.1 back piece (List.mem_reverse.2 listed)
      rw [steps, filterMap_idle idles, List.append_nil, start?] at ends
      split at ends
      next =>
        have single : [] ++ [Component.root] = front ++ [last] := ends
        obtain ⟨-, equal⟩ := List.append_inj' single rfl
        exact absurd (List.singleton_inj.1 equal).symm notRoot
      next here =>
        have single : [] ++ [Component.here] = front ++ [last] := ends
        obtain ⟨rfl, -⟩ := List.append_inj' single rfl
        exact ⟨⟨[]⟩, if_pos here, rfl⟩
      next => exact absurd ends.symm (List.concat_ne_nil last front)
  | cons piece before =>
      obtain ⟨equal, idles, named⟩ : path.pieces = before.reverse ++ piece :: _ ∧ _ :=
        Text.reverse_takeWhile_dropWhile_eq_iff.1
          ⟨(List.reverse_reverse _).symm, by rw [back, List.reverse_reverse]⟩
      obtain ⟨component, spells⟩ := exists_ofPiece? named
      rw [equal, steps_append named idles, spells, Option.toList_some] at ends
      refine ⟨_, rfl, ?_⟩
      rw [components_ofFront, (List.append_inj' ends rfl).1]
      exact fun piece listed => slash_not_mem_of_mem_pieces (equal ▸ List.mem_append_left _ listed)

/-- A path with another file name is that name inside the parent. -/
theorem exists_withFileName {path : Path} {front : List Text} {old : Text}
    (cut : path.cut? = some (front, old)) (name : Text) : ∃ parent : Path,
      path.withFileName name = parent.push name ∧ parent.components = steps front := by
  obtain ⟨parent, isParent, components⟩ := exists_parent? (components_of_cut? cut) (by simp)
  refine ⟨parent, ?_, components⟩
  rw [withFileName, fileName?_of_cut? cut, isParent]
  rfl

/-! ## A file in a directory -/

section Push

variable {name : Text} (solid : '/' ∉ name) (named : isIdle name = false)
  (notParent : name ≠ ['.', '.'])

include solid named notParent

/-- A name inside a directory is one component more. -/
theorem components_push (path : Path) :
    (path.push name).components = path.components ++ [.name name] := by
  rcases List.eq_nil_or_concat path.pieces with empty | ⟨front, last, ends⟩
  · exact absurd empty (List.splitOn_ne_nil '/' _)
  rw [List.concat_eq_append] at ends
  rw [components_of_pieces (pieces_push ends solid) named (by simp), ofPiece?_of_name named notParent]
  refine congrArg (· ++ [Component.name name]) ?_
  by_cases slash : last = []
  · rw [if_pos slash, List.append_nil]
    rw [slash] at ends
    cases front with
    | nil =>
        rw [components, ends]
        rfl
    | cons first front =>
        rw [components_eq_steps (by simp [ends]), ends, steps, steps, List.filterMap_append]
        exact congrArg _ (List.append_nil _).symm
  · have listed : last ∈ path.pieces := by simp [ends]
    rw [if_neg slash, components_eq_steps (pieces_ne_of_mem listed slash), ends]

theorem fileName?_push (path : Path) : (path.push name).fileName? = some name := by
  rcases List.eq_nil_or_concat path.pieces with empty | ⟨front, last, ends⟩
  · exact absurd empty (List.splitOn_ne_nil '/' _)
  · rw [List.concat_eq_append] at ends
    exact fileName?_of_cut? (cut?_of_last (pieces_push ends solid) named notParent)

section WithFileName

variable {path : Path} {front : List Text} {old : Text} (cut : path.cut? = some (front, old))

include cut

/-- A path with another file name has the same components in front of it. -/
theorem components_withFileName :
    (path.withFileName name).components = steps front ++ [.name name] := by
  obtain ⟨parent, pushed, components⟩ := exists_withFileName cut name
  rw [pushed, components_push solid named notParent, components]

theorem fileName?_withFileName : (path.withFileName name).fileName? = some name := by
  obtain ⟨parent, pushed, -⟩ := exists_withFileName cut name
  rw [pushed, fileName?_push solid named notParent]

end WithFileName

end Push

/-! ## Files in the same directory -/

/-- The files that two paths name stand in the same directory. -/
def SameParent (first second : Path) : Prop :=
  ∃ parent other, first.parent? = some parent ∧ second.parent? = some other ∧ other.Same parent

section Beside

variable {first second : Path} {front : List Component}

theorem sameParent_of_components {last other : Component} (ends : first.components = front ++ [last])
    (endsSecond : second.components = front ++ [other]) (notRoot : last ≠ .root)
    (notRootSecond : other ≠ .root) : first.SameParent second := by
  obtain ⟨parent, isParent, components⟩ := exists_parent? ends notRoot
  obtain ⟨parent', isParent', components'⟩ := exists_parent? endsSecond notRootSecond
  exact ⟨parent, parent', isParent, isParent', components'.trans components.symm⟩

/-- Files in the same directory are told apart by their names. -/
theorem same_iff_of_components {name other : Text}
    (ends : first.components = front ++ [.name name])
    (endsSecond : second.components = front ++ [.name other]) :
    second.Same first ↔ other = name := by
  rw [Same, ends, endsSecond, List.append_right_inj, List.singleton_inj, Component.name.injEq]

end Beside

end Path

end SignatureExport
