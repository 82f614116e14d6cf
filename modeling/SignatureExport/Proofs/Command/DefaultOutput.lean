import SignatureExport.Proofs.Command.Ending
import SignatureExport.Proofs.Path.Extension

/-!
# Default outputs

Without an output path a run writes beside its input.  A header goes to a file with another
name, and rows go to the file with the stem of the input and the extension of the row format.
So a run is refused if rows are asked for and the input has that extension already, and
otherwise its output is another file (`defaultOutput_beside`).

An input such as `..a` is an exception.  Its default output for rows is `..`, which names no
file, and the run is not refused.
-/

namespace SignatureExport

namespace Run

/-! ## When a run is refused -/

theorem ofScope_ne_rows (scope : Option Text) : Format.ofScope scope ≠ .ok .rows := by
  unfold Format.ofScope
  intro isRows
  split at isRows
  next => cases isRows
  next =>
    split at isRows
    next => cases isRows
    next => cases isRows

theorem ofName_eq_rows_iff {name : Text} {scope : Option Text} :
    Format.ofName name scope = .ok .rows ↔ name = "tsv".toList := by
  rw [Format.ofName]
  split
  next isRows => exact iff_of_true rfl isRows
  next notRows =>
    refine iff_of_false (fun isRows => ?_) notRows
    split at isRows
    next => exact ofScope_ne_rows scope isRows
    next => cases isRows

/-- A plan fails on an output that is the input if a format is chosen and its output is so. -/
theorem plan_eq_sameFile_iff {options : Options} {input : Path} :
    plan options input = .error (.sameFile input) ↔
      ∃ format, Format.ofName options.formatName (scope? options input) = .ok format ∧
        (options.output.getD (format.defaultOutput input)).Same input := by
  rw [plan]
  cases chosen : Format.ofName options.formatName (scope? options input) with
  | error error => simp
  | ok format =>
      simp only [Except.ok.injEq, exists_eq_left']
      split
      next same => exact iff_of_true rfl same
      next different => exact iff_of_false (by simp) different

/-- The report of a refusal is of no other failure: no other message has its first letter,
and the input stands in it. -/
theorem ofFailure_eq_sameFile_iff {failure : Failure} {input : Path} :
    Outcome.ofFailure failure = .ofFailure (.sameFile input) ↔ failure = .sameFile input := by
  refine ⟨fun same => ?_, fun same => by rw [same]⟩
  have report : failure.report = (Failure.sameFile input).report := congrArg Outcome.errors same
  have letter : failure.report[7]? = some 'r' := by rw [report]; rfl
  cases failure with
  | sameFile other =>
      have message : (Failure.sameFile other).message = (Failure.sameFile input).message :=
        List.append_cancel_left (List.append_cancel_right (List.append_cancel_right report))
      have spelling : other.text = input.text :=
        List.append_cancel_left (List.append_cancel_right message)
      exact congrArg (fun text => Failure.sameFile ⟨text⟩) spelling
  | standardInput cause => cases letter
  | inputNotFound path => cases letter
  | unreadable path cause => cases letter
  | unwritable path cause => cases letter
  | format error =>
      cases error with
      | unknownFormat name => cases letter
      | missingNamespace => cases letter
      | invalidNamespace text => cases letter

/-- A run on a file is refused if its plan is. -/
theorem onWorld_eq_sameFile_iff {arguments : List Text} {world : World} {options : Options}
    {input : Path} (read : Options.read arguments = .ok (.convert options))
    (given : options.input = some input) (isFile : world.files.isFile input = true) :
    (onWorld world arguments).1 = .ofFailure (.sameFile input) ↔
      plan options input = .error (.sameFile input) := by
  rw [onWorld_of_input read given, onFile_eq, isFile, if_neg (by decide)]
  cases plan options input with
  | error failure => exact ofFailure_eq_sameFile_iff.trans (Except.error.injEq _ _).to_iff.symm
  | ok chosen =>
      obtain ⟨format, output⟩ := chosen
      refine iff_of_false ?_ (by simp)
      cases world.files.readFile input with
      | error cause => simp [ofFailure_eq_sameFile_iff]
      | ok bytes =>
          cases leads : world.files.writePlace output with
          | error cause => simp [leads, ofFailure_eq_sameFile_iff]
          | ok place =>
              simp only [leads]
              intro same
              cases congrArg Outcome.exitCode same

/-! ## Where a run writes by default -/

theorem header_defaultOutput (scope : Namespace) (input : Path) :
    (Format.header scope).defaultOutput input
      = input.withFileName (input.stem?.getD [] ++ "_signatures.hpp".toList) := by
  rw [Format.defaultOutput, List.append_assoc]
  rfl

section DefaultOutput

variable {input : Path} {front : List Text} {name : Text}
  (cut : input.cut? = some (front, name))

include cut

/-- A header has another name than the input, in the same directory. -/
theorem header_beside (scope : Namespace) :
    let header := (Format.header scope).defaultOutput input
    input.SameParent header ∧
      header.fileName? = some ((Path.splitName name).1 ++ "_signatures.hpp".toList) ∧
      ¬ header.Same input := by
  intro header
  have solid : '/' ∉ (Path.splitName name).1 ++ "_signatures.hpp".toList :=
    List.not_mem_append (Path.slash_not_mem_stem (Path.slash_not_mem_of_cut? cut)) (by decide)
  have listed : '_' ∈ (Path.splitName name).1 ++ "_signatures.hpp".toList :=
    List.mem_append_right _ List.mem_cons_self
  have named := Path.isIdle_eq_false_of_mem listed (by decide)
  have notParent := Path.ne_parent_of_mem listed (by decide)
  have isHeader : header = input.withFileName _ := header_defaultOutput scope input
  rw [Path.stem?_of_cut? cut, Option.getD_some] at isHeader
  have whole := Path.components_of_cut? cut
  have components := Path.components_withFileName solid named notParent cut
  rw [isHeader]
  refine ⟨Path.sameParent_of_components whole components (by simp) (by simp),
    Path.fileName?_withFileName solid named notParent cut, ?_⟩
  rw [Path.same_iff_of_components whole components]
  exact Path.stem_append_ne ⟨'_', rfl, by decide⟩ name

/-- Rows have the stem of the input in the same directory, if the input keeps its name. -/
theorem rows_beside (kept : ¬ input.LosesName) :
    let rows := Format.rows.defaultOutput input
    input.SameParent rows ∧ rows.stem? = input.stem? ∧ rows.extension? = some "tsv".toList ∧
      (rows.Same input ↔ input.extension? = some "tsv".toList) := by
  intro rows
  have nonempty := Path.name_ne_nil_of_cut? cut
  have noDot : '.' ∉ "tsv".toList := by decide
  have cutRows : rows.cut? = some (front, (Path.splitName name).1 ++ '.' :: "tsv".toList) :=
    Path.cut?_withExtension cut kept (by decide) (by decide)
  have whole := Path.components_of_cut? cut
  have components := Path.components_of_cut? cutRows
  refine ⟨Path.sameParent_of_components whole components (by simp) (by simp), ?_, ?_, ?_⟩
  · rw [Path.stem?_of_cut? cutRows, Path.stem?_of_cut? cut,
      Path.splitName_stem_append nonempty noDot]
  · rw [Path.extension?_of_cut? cutRows, Path.splitName_stem_append nonempty noDot]
  · rw [Path.same_iff_of_components whole components, Path.extension?_of_cut? cut,
      Path.stem_append_eq_iff nonempty noDot]

/-- An input that loses its name has two dots in the same directory for the output of rows. -/
theorem rows_of_losesName (lost : input.LosesName) :
    let rows := Format.rows.defaultOutput input
    rows.components = Path.steps front ++ [.parent] ∧ input.SameParent rows ∧
      rows.fileName? = none ∧ ¬ rows.Same input := by
  intro rows
  have spelled : rows.pieces = front ++ [['.', '.']] := Path.pieces_of_losesName cut lost _
  have whole := Path.components_of_cut? cut
  have components : rows.components = Path.steps front ++ [.parent] :=
    Path.components_of_pieces spelled (by decide) (by simp)
  refine ⟨components, Path.sameParent_of_components whole components (by simp) (by simp), ?_, ?_⟩
  · rw [Path.fileName?, Path.cut?_of_parent spelled rfl, Option.map_none]
  · rw [Path.Same, components, whole, List.append_right_inj, List.singleton_inj]
    intro same
    cases same

/-- Without an output path a plan fails on the input if rows are written to it. -/
theorem plan_of_no_output {options : Options} (noOutput : options.output = none) :
    plan options input = .error (.sameFile input) ↔
      options.formatName = "tsv".toList ∧ input.extension? = some "tsv".toList ∧
        ¬ input.LosesName := by
  have sameRows : (Format.rows.defaultOutput input).Same input ↔
      input.extension? = some "tsv".toList ∧ ¬ input.LosesName := by
    by_cases loses : input.LosesName
    · exact iff_of_false (rows_of_losesName cut loses).2.2.2 fun both => both.2 loses
    · rw [(rows_beside cut loses).2.2.2, and_iff_left loses]
  rw [plan_eq_sameFile_iff, noOutput, ← sameRows, ← ofName_eq_rows_iff]
  constructor
  · rintro ⟨format, chosen, same⟩
    cases format with
    | rows => exact ⟨chosen, same⟩
    | header scope => exact absurd same (header_beside cut scope).2.2
  · rintro ⟨chosen, same⟩
    exact ⟨.rows, chosen, same⟩

end DefaultOutput

/-- A header goes to a file with another name beside the input, and rows go to the file with
the stem of the input and their own extension.  So a run without an output path is refused if
rows are written and the input has their extension.  An input that loses its name is not
refused, and its output for rows is two dots in the place of that name. -/
theorem defaultOutput_beside {input : Path} (named : input.fileName?.isSome = true) :
    let rows := Format.rows.defaultOutput input
    (∀ scope,
      let header := (Format.header scope).defaultOutput input
      input.SameParent header ∧
        header.fileName? = input.stem?.map (· ++ "_signatures.hpp".toList) ∧
        ¬ header.Same input) ∧
    input.SameParent rows ∧
    (¬ input.LosesName →
      rows.stem? = input.stem? ∧ rows.extension? = some "tsv".toList ∧
        (rows.Same input ↔ input.extension? = some "tsv".toList)) ∧
    (input.LosesName →
      (∃ parent, input.parent? = some parent ∧
        rows.components = parent.components ++ [.parent]) ∧
        rows.fileName? = none ∧ ¬ rows.Same input) ∧
    ∀ arguments world options, Options.read arguments = .ok (.convert options) →
      options.input = some input → options.output = none → world.files.isFile input = true →
        ((onWorld world arguments).1 = .ofFailure (.sameFile input) ↔
          options.formatName = "tsv".toList ∧ input.extension? = some "tsv".toList ∧
            ¬ input.LosesName) := by
  intro rows
  obtain ⟨name, isName⟩ := Option.isSome_iff_exists.1 named
  obtain ⟨⟨front, _⟩, cut, rfl⟩ := Option.map_eq_some_iff.1 isName
  refine ⟨fun scope => ?_, ?_, fun kept => (rows_beside cut kept).2, fun lost => ?_, ?_⟩
  · rw [Path.stem?_of_cut? cut, Option.map_some]
    exact header_beside cut scope
  · by_cases loses : input.LosesName
    · exact (rows_of_losesName cut loses).2.1
    · exact (rows_beside cut loses).1
  · obtain ⟨parent, isParent, components⟩ :=
      Path.exists_parent? (Path.components_of_cut? cut) (by simp)
    obtain ⟨parts, -, noName, different⟩ := rows_of_losesName cut lost
    exact ⟨⟨parent, isParent, components ▸ parts⟩, noName, different⟩
  · intro arguments world options read given noOutput isFile
    rw [onWorld_eq_sameFile_iff read given isFile, plan_of_no_output cut noOutput]

/-- Rows are refused for an input that is spelled with two slashes and has their extension.
They are not for one that loses its name, though it has that extension too. -/
theorem defaultOutput_beside_rows :
    let input : Path := ⟨"d//n.tsv".toList⟩
    let lost : Path := ⟨"d/..tsv".toList⟩
    let world : World := { files := { nodes :=
      [(["d".toList], .directory), (["d".toList, "n.tsv".toList], .file [])] } }
    (Format.rows.defaultOutput input).Same input ∧
      (onWorld world ["d//n.tsv".toList]).1 = .ofFailure (.sameFile input) ∧
      lost.SameParent (Format.rows.defaultOutput lost) ∧
      ¬ (Format.rows.defaultOutput lost).Same lost := by
  intro input lost world
  have kept : ¬ input.LosesName := by decide +kernel
  have rows : input.extension? = some "tsv".toList := by decide +kernel
  obtain ⟨-, -, isKept, -, refused⟩ := @defaultOutput_beside input (by decide +kernel)
  obtain ⟨-, beside, -, isLost, -⟩ := @defaultOutput_beside lost (by decide +kernel)
  refine ⟨(isKept kept).2.2.2 rows, ?_, beside, (isLost (by decide +kernel)).2.2⟩
  exact (refused ["d//n.tsv".toList] world { input := some input } (by decide +kernel) rfl rfl
    (by decide +kernel)).2 ⟨rfl, rows, kept⟩

/-- The default output for rows is two dots for an input that is named two dots and their
extension.  It has neither the stem nor the extension, and writing to it fails. -/
theorem not_defaultOutput_beside :
    let input : Path := ⟨"..tsv".toList⟩
    let rows := Format.rows.defaultOutput input
    let world : World := { files := { nodes := [(["..tsv".toList], .file [])] } }
    let outcome := (onWorld world ["..tsv".toList]).1
    input.stem? = some ".".toList ∧ input.extension? = some "tsv".toList ∧
      rows.text = "..".toList ∧ rows.stem? = none ∧ rows.extension? = none ∧
      ¬ rows.Same input ∧ outcome ≠ .ofFailure (.sameFile input) ∧
      outcome = .ofFailure (.unwritable rows .isADirectory) := by
  decide +kernel

end Run

end SignatureExport
