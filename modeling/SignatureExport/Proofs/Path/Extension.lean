import SignatureExport.Proofs.Path.Components

/-!
# Paths with another extension

A path with another extension has its old stem with the new extension behind it, in the same
directory (`withExtension_eq`).  Before that, as many characters are cut from the end of the
spelling as the old extension has.  This takes the extension or what follows the file name, and
leaves the stem and its dot (`exists_cut?_take`).

There is one exception.  Where nothing follows a file name such as `..a`, two dots are left, and
those are no file name.  They stay as they are (`withExtension_of_losesName`).
-/

namespace SignatureExport

namespace Path

theorem setExtension_of_cut? {path : Path} {front : List Text} {name : Text}
    (cut : path.cut? = some (front, name)) (extension : Text) :
    path.setExtension extension = ofPieces (front ++ [(splitName name).1 ++ '.' :: extension]) := by
  rw [setExtension, cut]
  rfl

theorem slash_not_mem_stem_append {name extension : Text} (solidName : '/' ∉ name)
    (solid : '/' ∉ extension) : '/' ∉ (splitName name).1 ++ '.' :: extension :=
  List.not_mem_append (slash_not_mem_stem solidName) (by simpa using solid)

/-- The spelling ends with a file name that has a lone dot for its stem, such as `..a`. -/
def LosesName (path : Path) : Prop :=
  path.stem? = some ['.'] ∧ path.pieces.getLast? = path.fileName?

instance (path : Path) : Decidable path.LosesName := inferInstanceAs (Decidable (_ ∧ _))

theorem losesName_iff {path : Path} {front idle : List Text} {name : Text}
    (cut : path.cut? = some (front, name)) (pieces : path.pieces = front ++ name :: idle)
    (idles : ∀ piece ∈ idle, isIdle piece = true) :
    path.LosesName ↔ (splitName name).1 = ['.'] ∧ idle = [] := by
  obtain ⟨_, -, -, named, -⟩ := cut?_eq_some_iff.1 cut
  rw [LosesName, stem?_of_cut? cut, fileName?_of_cut? cut, Option.some.injEq, pieces]
  refine and_congr_right fun _ => ⟨?_, ?_⟩
  · intro last
    rcases List.eq_nil_or_concat idle with empty | ⟨front, piece, rfl⟩
    · exact empty
    · rw [List.concat_eq_append, ← List.cons_append, ← List.append_assoc, List.getLast?_concat,
        Option.some.injEq] at last
      have isIdle := idles piece (by simp)
      rw [last, named] at isIdle
      cases isIdle
  · rintro rfl
    exact List.getLast?_concat

section LastPiece

variable {path : Path} {front : List Text} {last : Text} (ends : path.pieces = front ++ [last])

include ends

theorem setExtension_of_parent (parent : last = ['.', '.']) (extension : Text) :
    path.setExtension extension = path := by
  rw [setExtension, cut?_of_parent ends parent]

/-- As many characters as an extension has are cut from the end of the last piece. -/
theorem take_text {stem extension : Text} (cut : last = stem ++ extension) :
    (⟨path.text.take (path.text.length - extension.length)⟩ : Path)
      = ofPieces (front ++ [stem]) := by
  have whole : path.text = ['/'].intercalate (front ++ [stem]) ++ extension := by
    rw [← ofPieces_pieces path, ends, ofPieces,
      Text.intercalate_append_back '/' front (List.cons_ne_nil last []),
      Text.intercalate_append_back '/' front (List.cons_ne_nil stem []),
      List.intercalate_singleton, List.intercalate_singleton, cut, List.append_assoc]
  rw [whole, List.length_append, Nat.add_sub_cancel, List.take_left, ofPieces]

end LastPiece

theorem pieces_front_append {front : List Text} (solid : ∀ piece ∈ front, '/' ∉ piece)
    (text : Text) :
    (⟨['/'].intercalate (front ++ [[]]) ++ text⟩ : Path).pieces = front ++ text.splitOn '/' := by
  have whole : ofPieces (front ++ text.splitOn '/')
      = ⟨['/'].intercalate (front ++ [[]]) ++ text⟩ := by
    rw [ofPieces, Text.intercalate_append_back '/' front (List.splitOn_ne_nil '/' text),
      List.intercalate_splitOn]
  rw [← whole]
  refine pieces_ofPieces ?_ ?_
  · exact List.append_ne_nil_of_right_ne_nil _ (List.splitOn_ne_nil '/' text)
  · intro piece listed
    rcases List.mem_append.1 listed with inFront | inText
    · exact solid piece inFront
    · exact Text.not_mem_of_mem_splitOn inText

theorem isIdle_of_append {first second : Text} (idle : isIdle (first ++ second) = true) :
    isIdle first = true := by
  simp only [isIdle, Bool.or_eq_true, decide_eq_true_eq, List.append_eq_nil_iff,
    List.append_eq_singleton_iff] at idle ⊢
  rcases idle with ⟨rfl, -⟩ | ⟨rfl, -⟩ | ⟨rfl, -⟩
  · exact .inl rfl
  · exact .inl rfl
  · exact .inr rfl

/-- Where something follows the first piece of a text, its dot stays when as many characters
are cut from the end as it has behind that dot, and some of those characters with it. -/
theorem exists_splitOn_take {text stem old : Text} {idle : List Text}
    (pieces : text.splitOn '/' = (stem ++ '.' :: old) :: idle) (followed : idle ≠ [])
    (idles : ∀ piece ∈ idle, isIdle piece = true) :
    ∃ rest idle', rest <+: old ∧ (rest = old ∨ rest ≠ []) ∧
      (∀ piece ∈ idle', isIdle piece = true) ∧
      (text.take (text.length - old.length)).splitOn '/' = (stem ++ '.' :: rest) :: idle' := by
  have longer : stem.length + 2 + old.length ≤ text.length := by
    have whole : ['/'].intercalate ((stem ++ '.' :: old) :: idle) = text :=
      pieces ▸ List.intercalate_splitOn '/'
    obtain ⟨second, others, rfl⟩ := List.exists_cons_of_ne_nil followed
    rw [← whole, List.intercalate_cons_cons]
    simp only [List.length_append, List.length_cons]
    omega
  obtain ⟨before, last, next, others, cutFirst, -, cutBoth⟩ :=
    Text.exists_splitOn_append '/' (text.take (text.length - old.length))
      (text.drop (text.length - old.length))
  rw [List.take_append_drop, pieces] at cutBoth
  rw [cutFirst]
  cases before with
  | nil =>
      -- the cut is in the first piece, at least one character behind its dot
      have joined : ['/'].intercalate ((text.take (text.length - old.length)).splitOn '/')
          = text.take (text.length - old.length) := List.intercalate_splitOn '/'
      have isLast : last = text.take (text.length - old.length) := by
        rw [← joined, cutFirst, List.nil_append, List.intercalate_singleton]
      have lengths := congrArg List.length isLast
      rw [List.length_take] at lengths
      have shared : stem ++ ['.'] ++ old = last ++ next := by
        simpa using (List.cons.inj cutBoth).1
      rcases List.append_eq_append_iff.1 shared with ⟨rest, rfl, prefixed⟩ | ⟨rest, equal, -⟩
      · refine ⟨rest, [], ⟨next, prefixed.symm⟩, .inr ?_, by simp, by simp⟩
        rintro rfl
        simp only [List.length_append, List.length_singleton, List.length_nil] at lengths
        omega
      · have shorter := congrArg List.length equal
        simp only [List.length_append, List.length_singleton] at shorter
        omega
  | cons name before =>
      obtain ⟨rfl, behind⟩ := List.cons.inj cutBoth
      refine ⟨old, before ++ [last], List.prefix_rfl, .inl rfl, ?_, rfl⟩
      intro piece listed
      rcases List.mem_append.1 listed with earlier | isLast
      · exact idles piece (behind ▸ List.mem_append_left _ earlier)
      · rw [List.mem_singleton.1 isLast]
        exact isIdle_of_append (idles (last ++ next) (by simp [behind]))

/-- The same of a path, where pieces stand in front of its file name. -/
theorem exists_pieces_take {path : Path} {front idle : List Text} {stem old : Text}
    (pieces : path.pieces = front ++ (stem ++ '.' :: old) :: idle) (followed : idle ≠ [])
    (idles : ∀ piece ∈ idle, isIdle piece = true) :
    ∃ rest idle', rest <+: old ∧ (rest = old ∨ rest ≠ []) ∧
      (∀ piece ∈ idle', isIdle piece = true) ∧
      (⟨path.text.take (path.text.length - old.length)⟩ : Path).pieces
        = front ++ (stem ++ '.' :: rest) :: idle' := by
  have solid : ∀ piece ∈ front ++ (stem ++ '.' :: old) :: idle, '/' ∉ piece := fun piece listed =>
    slash_not_mem_of_mem_pieces (pieces ▸ listed)
  -- the text from the file name on, of which some characters are cut
  obtain ⟨tail, isTail⟩ : ∃ tail, tail = ['/'].intercalate ((stem ++ '.' :: old) :: idle) := ⟨_, rfl⟩
  have whole : path.text = ['/'].intercalate (front ++ [[]]) ++ tail := by
    rw [isTail, ← Text.intercalate_append_back '/' front (List.cons_ne_nil _ _), ← pieces,
      Path.pieces, List.intercalate_splitOn]
  have tailPieces : tail.splitOn '/' = (stem ++ '.' :: old) :: idle :=
    isTail ▸ (Text.splitOn_intercalate_iff (List.cons_ne_nil _ _)).2 fun piece listed =>
      solid piece (List.mem_append_right _ listed)
  have longer : old.length ≤ tail.length := by
    rw [isTail, List.intercalate_cons_of_ne_nil followed]
    simp only [List.length_append, List.length_cons]
    omega
  have cutText : path.text.take (path.text.length - old.length)
      = ['/'].intercalate (front ++ [[]]) ++ tail.take (tail.length - old.length) := by
    rw [whole, List.length_append, Nat.add_sub_assoc longer, List.take_length_add_append]
  obtain ⟨rest, idle', prefixed, more, idles', cutTail⟩ :=
    exists_splitOn_take tailPieces followed idles
  refine ⟨rest, idle', prefixed, more, idles', ?_⟩
  rw [cutText, ← cutTail]
  exact pieces_front_append (fun piece listed => solid piece (List.mem_append_left _ listed)) _

/-- The stem and the dot behind it are kept when as many characters are cut from the end of a
path as its extension has, unless that leaves two dots. -/
theorem exists_cut?_take {path : Path} {front : List Text} {stem old : Text}
    (cut : path.cut? = some (front, stem ++ '.' :: old)) (nonempty : stem ≠ [])
    (noDot : '.' ∉ old) (kept : ¬ path.LosesName) :
    ∃ rest, '.' ∉ rest ∧
      cut? ⟨path.text.take (path.text.length - old.length)⟩
        = some (front, stem ++ '.' :: rest) := by
  obtain ⟨idle, pieces, idles, named, notParent⟩ := cut?_eq_some_iff.1 cut
  have parts : splitName (stem ++ '.' :: old) = (stem, some old) :=
    splitName_eq_some_iff.2 ⟨rfl, nonempty, noDot⟩
  rw [losesName_iff cut pieces idles, parts, not_and] at kept
  have stays (rest : Text) : isIdle (stem ++ '.' :: rest) = false := by
    simp [isIdle, nonempty, List.append_eq_singleton_iff]
  by_cases ends : idle = []
  · subst ends
    have split : stem ++ '.' :: old = (stem ++ ['.']) ++ old := by simp
    have listed : stem ++ '.' :: old ∈ path.pieces := by simp [pieces]
    have solid : '/' ∉ stem ++ ['.'] := fun inside =>
      slash_not_mem_of_mem_pieces listed (split ▸ List.mem_append_left _ inside)
    refine ⟨[], List.not_mem_nil, ?_⟩
    rw [take_text pieces split]
    refine cut?_of_last (pieces_ofPieces_concat pieces solid) (stays []) ?_
    intro same
    exact kept (List.append_cancel_right same) rfl
  · obtain ⟨rest, idle', prefixed, more, idles', cutPieces⟩ := exists_pieces_take pieces ends idles
    have free : '.' ∉ rest := fun inside => noDot (prefixed.subset inside)
    refine ⟨rest, free, cut?_eq_some_iff.2 ⟨idle', cutPieces, idles', stays rest, ?_⟩⟩
    intro same
    rcases more with rfl | nonemptyRest
    · exact notParent same
    · have lengths := congrArg List.length same
      have stemLength := List.length_pos_iff.2 nonempty
      have restLength := List.length_pos_iff.2 nonemptyRest
      simp only [List.length_append, List.length_cons, List.length_nil] at lengths
      omega

section Extension

variable {path : Path} {front : List Text} {name extension : Text}
  (cut : path.cut? = some (front, name))

include cut

/-- The stem gets the new extension in place of what follows it. -/
theorem withExtension_eq (kept : ¬ path.LosesName) (extension : Text) :
    path.withExtension extension
      = ofPieces (front ++ [(splitName name).1 ++ '.' :: extension]) := by
  rw [withExtension, extension?_of_cut? cut]
  cases parts : splitName name with
  | mk stem old =>
      cases old with
      | none =>
          dsimp only
          rw [setExtension_of_cut? cut, parts]
      | some old =>
          obtain ⟨rfl, nonempty, noDot⟩ := splitName_eq_some_iff.1 parts
          obtain ⟨rest, free, cutRest⟩ := exists_cut?_take cut nonempty noDot kept
          dsimp only
          rw [setExtension_of_cut? cutRest, splitName_eq_some_iff.2 ⟨rfl, nonempty, free⟩]

/-- A file name that is lost leaves two dots in its place. -/
theorem withExtension_of_losesName (lost : path.LosesName) (extension : Text) :
    path.withExtension extension = ofPieces (front ++ [['.', '.']]) := by
  obtain ⟨idle, pieces, idles, named, -⟩ := cut?_eq_some_iff.1 cut
  obtain ⟨dot, rfl⟩ := (losesName_iff cut pieces idles).1 lost
  rw [withExtension, extension?_of_cut? cut]
  cases parts : splitName name with
  | mk stem old =>
      rw [parts] at dot
      dsimp only at dot
      subst dot
      cases old with
      | none =>
          rw [← splitName_eq_none parts] at named
          exact absurd named (by decide)
      | some old =>
          obtain ⟨equal, -, -⟩ := splitName_eq_some_iff.1 parts
          have dots : name = ['.', '.'] ++ old := equal
          have left : (ofPieces (front ++ [['.', '.']])).pieces = front ++ [['.', '.']] :=
            pieces_ofPieces_concat pieces (by decide)
          dsimp only
          rw [take_text pieces dots, setExtension_of_parent left rfl]

theorem pieces_of_losesName (lost : path.LosesName) (extension : Text) :
    (path.withExtension extension).pieces = front ++ [['.', '.']] := by
  obtain ⟨idle, pieces, idles, -⟩ := cut?_eq_some_iff.1 cut
  obtain ⟨-, rfl⟩ := (losesName_iff cut pieces idles).1 lost
  rw [withExtension_of_losesName cut lost]
  exact pieces_ofPieces_concat pieces (by decide)

/-- A path with another extension has another file name behind the same pieces. -/
theorem cut?_withExtension (kept : ¬ path.LosesName) (solid : '/' ∉ extension)
    (nonempty : extension ≠ []) :
    (path.withExtension extension).cut?
      = some (front, (splitName name).1 ++ '.' :: extension) := by
  have stemNonempty := stem_ne_nil (name_ne_nil_of_cut? cut)
  have spelled : (ofPieces (front ++ [(splitName name).1 ++ '.' :: extension])).pieces
      = front ++ [(splitName name).1 ++ '.' :: extension] := by
    refine pieces_ofPieces (by simp) ?_
    intro piece listed
    rcases List.mem_append.1 listed with inFront | isLast
    · exact slash_not_mem_of_mem_front cut inFront
    · rw [List.mem_singleton.1 isLast]
      exact slash_not_mem_stem_append (slash_not_mem_of_cut? cut) solid
  rw [withExtension_eq cut kept]
  refine cut?_of_last spelled (by simp [isIdle, stemNonempty, List.append_eq_singleton_iff]) ?_
  intro same
  have lengths := congrArg List.length same
  have stemLength := List.length_pos_iff.2 stemNonempty
  have extensionLength := List.length_pos_iff.2 nonempty
  simp only [List.length_append, List.length_cons, List.length_nil] at lengths
  omega

end Extension

/-- The last piece gets the new extension behind its stem, if it is a file name that is kept. -/
theorem pieces_withExtension {path : Path} {front : List Text} {last : Text}
    (ends : path.pieces = front ++ [last]) (named : isIdle last = false) {extension : Text}
    (solid : '/' ∉ extension) :
    (path.withExtension extension).pieces = front ++ [
      if last = ['.', '.'] ∨ (splitName last).1 = ['.'] then ['.', '.']
      else (splitName last).1 ++ '.' :: extension] := by
  have solidLast : '/' ∉ last := @slash_not_mem_of_mem_pieces path _ (by simp [ends])
  by_cases parent : last = ['.', '.']
  · rw [if_pos (.inl parent), withExtension, extension?, fileName?, cut?_of_parent ends parent,
      Option.map_none, Option.bind_none, setExtension_of_parent ends parent, ends, parent]
  · have cut := cut?_of_last ends named parent
    have lost := losesName_iff cut ends (by simp)
    by_cases here : (splitName last).1 = ['.']
    · rw [if_pos (.inr here), withExtension_of_losesName cut (lost.2 ⟨here, rfl⟩)]
      exact pieces_ofPieces_concat ends (by decide)
    · rw [if_neg (by simp [parent, here]), withExtension_eq cut (fun both => here (lost.1 both).1)]
      exact pieces_ofPieces_concat ends (slash_not_mem_stem_append solidLast solid)

end Path

end SignatureExport
