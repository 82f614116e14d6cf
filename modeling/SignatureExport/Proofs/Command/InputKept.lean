import SignatureExport.Proofs.Command.DefaultOutput
import SignatureExport.Proofs.Command.Places

/-!
# The input of a run

A run changes a file only by writing its output there (`node?_onWorld_iff`).  It refuses
an output path that has the components of the input path.  Two paths can have different
components and lead to the same file, since `..` is not resolved and a leading dot or a
leading slash counts.  So `./n` can be read and `n` be written.

No other path can take the input for the output.  The default output of an input is never
its own file (`same_of_defaultOutput`), and paths that start alike and have no `..` lead
to the same file only if they have the same components (`same_of_lead`).
-/

namespace SignatureExport

namespace Run

/-- A run writes the document of its input to a place. -/
inductive Writes (arguments : List Text) (world : World) : Place → Bytes → Prop where
  | writes {options : Options} {input output : Path} {source : Bytes} {format : Format}
      {place : Place} (read : Options.read arguments = .ok (.convert options))
      (given : options.input = some input) (holds : world.files.readFile input = .ok source)
      (planned : plan options input = .ok (format, output))
      (leads : world.files.writePlace output = .ok place) :
      Writes arguments world place (Utf8.encode (format.render (document source)))

/-! ## What a run changes -/

theorem Writes.unique {arguments : List Text} {world : World} {first second : Place}
    {bytes other : Bytes} (one : Writes arguments world first bytes)
    (two : Writes arguments world second other) : first = second ∧ bytes = other := by
  cases one with
  | writes read given holds planned leads =>
      cases two with
      | writes read' given' holds' planned' leads' =>
          cases read.symm.trans read'
          cases given.symm.trans given'
          cases holds.symm.trans holds'
          cases planned.symm.trans planned'
          cases leads.symm.trans leads'
          exact ⟨rfl, rfl⟩

/-- A run that writes changes one file. -/
theorem Writes.onWorld_eq {arguments : List Text} {world : World} {place : Place} {bytes : Bytes}
    (writes : Writes arguments world place bytes) :
    (onWorld world arguments).2 = { world with files := world.files.put place (.file bytes) } := by
  cases writes with
  | writes read given holds planned leads =>
      rw [onWorld_of_input read given, onFile_eq, FileTree.isFile_of_readFile holds,
        if_neg (by decide)]
      simp only [planned, holds, leads]

/-- A run that does not write changes nothing. -/
theorem onWorld_eq_of_not_writes {arguments : List Text} {world : World}
    (none : ∀ place bytes, ¬ Writes arguments world place bytes) :
    (onWorld world arguments).2 = world := by
  have ends := ends_onWorld arguments world
  generalize onWorld world arguments = result at ends ⊢
  obtain ⟨outcome, after⟩ := result
  dsimp only at ends ⊢
  cases ends with
  | written read given holds planned leads =>
      exact absurd (.writes read given holds planned leads) (none _ _)
  | _ => rfl

theorem Writes.place_ne_nil {arguments : List Text} {world : World} {place : Place} {bytes : Bytes}
    (writes : Writes arguments world place bytes) : place ≠ [] := by
  cases writes with
  | writes read given holds planned leads =>
      obtain ⟨front, last, directory, -, -, -, rfl, -⟩ := FileTree.exists_last_of_writePlace leads
      simp

/-- A file keeps its bytes unless a run writes other bytes to it. -/
theorem node?_onWorld_iff {arguments : List Text} {world : World} {place : Place} {bytes : Bytes}
    (isFile : world.files.node? place = some (.file bytes)) :
    (onWorld world arguments).2.files.node? place = some (.file bytes) ↔
      ∀ other, Writes arguments world place other → other = bytes := by
  by_cases quiet : ∀ changed written, ¬ Writes arguments world changed written
  · rw [onWorld_eq_of_not_writes quiet]
    exact iff_of_true isFile fun other writes => absurd writes (quiet place other)
  · push Not at quiet
    obtain ⟨changed, written, writes⟩ := quiet
    rw [writes.onWorld_eq, FileTree.node?_put writes.place_ne_nil]
    split
    next here =>
      subst here
      constructor
      · intro kept other also
        cases kept
        exact (also.unique writes).2
      · intro kept
        rw [kept written writes]
    next elsewhere =>
      exact iff_of_true isFile fun other also => absurd (also.unique writes).1 elsewhere

/-! ## Outputs that lead to the input -/

section SamePlace

variable {tree : FileTree} {input output : Path} {place : Place} {bytes : Bytes}
  (found : tree.resolve input = .ok place)

include found

/-- An output that leads to the input has its components, if both start alike and go
straight down. -/
theorem same_of_lead (lead : output.lead? = input.lead?) (straightInput : ['.', '.'] ∉ input.pieces)
    (straightOutput : ['.', '.'] ∉ output.pieces)
    (leads : tree.writePlace output = .ok place) : output.Same input := by
  have names : output.pieces.filter (!Path.isIdle ·) = input.pieces.filter (!Path.isIdle ·) := by
    rw [← List.append_right_inj (tree.start input), ← FileTree.place_of_resolve found straightInput,
      ← FileTree.start_eq lead, ← FileTree.place_of_writePlace leads straightOutput]
  rw [Path.Same, Path.components_eq, Path.components_eq, lead,
    Path.filterMap_ofPiece? straightOutput, Path.filterMap_ofPiece? straightInput, names]

variable (isFile : tree.node? place = some (.file bytes))

include isFile

/-- A row output that leads to the input is spelled as the input. -/
theorem same_of_withExtension {extension : Text} (solid : '/' ∉ extension)
    (leads : tree.writePlace (input.withExtension extension) = .ok place) :
    (input.withExtension extension).Same input := by
  obtain ⟨front, last, directory, ends, -, -, leadsLast, named⟩ :=
    FileTree.exists_last_of_resolve found isFile
  obtain ⟨front', last', directory', ends', -, -, equal, -, notParent⟩ :=
    FileTree.exists_last_of_writePlace leads
  obtain ⟨rfl, lastEqual⟩ :=
    List.append_inj' (ends'.symm.trans (Path.pieces_withExtension ends named solid)) rfl
  rw [List.singleton_inj] at lastEqual
  cases leadsLast with
  | idle isIdle => simp [named] at isIdle
  | parent => exact absurd (lastEqual.trans (if_pos (.inl rfl))) notParent
  | name =>
      obtain ⟨-, sameLast⟩ := List.append_inj' equal rfl
      rw [List.singleton_inj] at sameLast
      rw [Path.eq_of_pieces_eq (ends'.trans (sameLast ▸ ends.symm)), Path.Same]

/-- A header beside the input is another file. -/
theorem not_writePlace_withFileName {suffix : Text} (solid : '/' ∉ suffix)
    (noDot : ∃ c ∈ suffix.head?, c ≠ '.') :
    tree.writePlace (input.withFileName (input.stem?.getD [] ++ suffix)) ≠ .ok place := by
  intro leads
  obtain ⟨front, last, directory, ends, -, -, leadsLast, named⟩ :=
    FileTree.exists_last_of_resolve found isFile
  obtain ⟨front', last', directory', ends', follows', -, equal, -⟩ :=
    FileTree.exists_last_of_writePlace leads
  cases leadsLast with
  | idle isIdle => simp [named] at isIdle
  | parent =>
      have cut := Path.cut?_of_parent ends rfl
      have pushed : input.withFileName (input.stem?.getD [] ++ suffix) = input.push suffix := by
        rw [Path.withFileName, Path.stem?, Path.fileName?, cut]
        rfl
      rw [pushed] at ends' follows'
      -- the output goes through the input, which is a file
      obtain ⟨rfl, -⟩ := List.append_inj' (ends'.symm.trans (Path.pieces_push ends solid)) rfl
      have nonempty : input.text ≠ [] := by
        intro empty
        have single : front ++ [['.', '.']] = [] ++ [[]] := by
          rw [← ends, Path.pieces, empty]
          rfl
        cases (List.append_inj' single rfl).2
      have sameStart : tree.start (input.push suffix) = tree.start input := by
        rw [FileTree.start, FileTree.start, Path.head?_text_push nonempty]
      have follows := (FileTree.resolve_eq_ok_iff.1 found).2
      rw [ends, ← sameStart] at follows
      cases follows.symm.trans follows'
      simp at equal
  | name notIdle notParent =>
      have cut := Path.cut?_of_last ends named notParent
      rw [Path.stem?_of_cut? cut, Option.getD_some] at ends'
      obtain ⟨before, beside⟩ := Path.exists_pieces_withFileName input
        (List.not_mem_append (Path.slash_not_mem_stem (Path.slash_not_mem_of_cut? cut)) solid)
      obtain ⟨-, lastEqual⟩ := List.append_inj' (ends'.symm.trans beside) rfl
      obtain ⟨-, sameLast⟩ := List.append_inj' equal rfl
      rw [List.singleton_inj] at lastEqual sameLast
      exact Path.stem_append_ne noDot last (sameLast.trans lastEqual).symm

/-- A default output that leads to the input is spelled as the input. -/
theorem same_of_defaultOutput {format : Format}
    (leads : tree.writePlace (format.defaultOutput input) = .ok place) :
    (format.defaultOutput input).Same input := by
  cases format with
  | rows => exact same_of_withExtension found isFile (by decide) leads
  | header scope =>
      rw [header_defaultOutput] at leads
      exact absurd leads
        (not_writePlace_withFileName found isFile (by decide) ⟨'_', rfl, by decide⟩)

end SamePlace

/-! ## The input -/

/-- The input keeps its bytes if each output that leads to it has its components. -/
theorem node?_onWorld_of_same {arguments : List Text} {world : World} {options : Options}
    {input : Path} {place : Place} {bytes : Bytes}
    (read : Options.read arguments = .ok (.convert options)) (given : options.input = some input)
    (isFile : world.files.node? place = some (.file bytes))
    (same : ∀ (format : Format) (output : Path),
      output = options.output.getD (format.defaultOutput input) →
        world.files.writePlace output = .ok place → output.Same input) :
    (onWorld world arguments).2.files.node? place = some (.file bytes) := by
  refine (node?_onWorld_iff isFile).2 fun other writes => ?_
  cases writes with
  | @writes _ _ output _ format _ read' given' holds planned leads =>
      cases read.symm.trans read'
      cases given.symm.trans given'
      obtain ⟨-, isOutput, different⟩ := plan_eq_ok_iff.1 planned
      exact absurd (same format output isOutput leads) different

/-- A run changes a file only by writing other bytes there.  The input keeps its bytes
without an output path, and with one that starts as the input path does and that goes
straight down, if the input path does so too. -/
theorem input_kept (arguments : List Text) (world : World) :
    let after := (onWorld world arguments).2.files
    (∀ place bytes, world.files.node? place = some (.file bytes) →
      (after.node? place = some (.file bytes) ↔
        ∀ other, Writes arguments world place other → other = bytes)) ∧
    ∀ options input place bytes, Options.read arguments = .ok (.convert options) →
      options.input = some input → world.files.resolve input = .ok place →
      world.files.node? place = some (.file bytes) →
        (options.output = none → after.node? place = some (.file bytes)) ∧
        ∀ output, options.output = some output → output.lead? = input.lead? →
          ['.', '.'] ∉ input.pieces → ['.', '.'] ∉ output.pieces →
            after.node? place = some (.file bytes) := by
  intro after
  refine ⟨fun place bytes isFile => node?_onWorld_iff isFile, ?_⟩
  intro options input place bytes read given found isFile
  constructor
  · intro none
    refine node?_onWorld_of_same read given isFile fun format output isOutput leads => ?_
    rw [none, Option.getD_none] at isOutput
    subst isOutput
    exact same_of_defaultOutput found isFile leads
  · intro output chosen lead straightInput straightOutput
    refine node?_onWorld_of_same read given isFile fun format written isOutput leads => ?_
    rw [chosen, Option.getD_some] at isOutput
    subst isOutput
    exact same_of_lead found lead straightInput straightOutput leads

/-- The default output of an input in a directory is written beside it. -/
theorem input_kept_defaultOutput :
    let bytes := Utf8.encode "10 int __cdecl f()\n".toList
    let world : World := { files := { nodes :=
      [(["d".toList], .directory), (["d".toList, "n.txt".toList], .file bytes)] } }
    let after := (onWorld world ["d/n.txt".toList]).2.files
    after.node? ["d".toList, "n.txt".toList] = some (.file bytes) ∧
      (after.node? ["d".toList, "n.tsv".toList]).isSome = true := by
  intro bytes world after
  refine ⟨?_, by decide +kernel⟩
  have kept := (input_kept ["d/n.txt".toList] world).2 { input := some ⟨"d/n.txt".toList⟩ }
    ⟨"d/n.txt".toList⟩ ["d".toList, "n.txt".toList] bytes (by decide +kernel) rfl
    (by decide +kernel) (by decide +kernel)
  exact kept.1 rfl

/-- The input is read with a leading dot and overwritten without it. -/
theorem not_input_kept :
    let bytes := Utf8.encode "10 int __cdecl f()\n".toList
    let world : World := { files := { nodes := [(["n.txt".toList], .file bytes)] } }
    let after := (onWorld world ["./n.txt".toList, "-o".toList, "n.txt".toList]).2.files
    world.files.resolve ⟨"./n.txt".toList⟩ = .ok ["n.txt".toList] ∧
      world.files.node? ["n.txt".toList] = some (.file bytes) ∧
      after.node? ["n.txt".toList] ≠ some (.file bytes) := by
  decide +kernel

end Run

end SignatureExport
