import SignatureExport.Proofs.Command.Ending
import SignatureExport.Proofs.Command.Places

/-!
# What a run leaves behind

A run that fails shows nothing on the standard output and leaves the world as it was.
So does a run that names no input, the output apart.  A run that reads a file and succeeds
changes one place: its output path leads there, and the file there is the document of the
input in the format that was asked for (`onWorld_footprint`).

All of this is read off `Ends`.  Each check and each read of a run comes before its write,
and a write that is refused changes nothing.
-/

namespace SignatureExport

namespace Run

/-- The bytes of an export in a format. -/
def converted (format : Format) (bytes : Bytes) : Bytes :=
  Utf8.encode (format.render (Document.extract .verbatim (Utf8.decodeLossy bytes)))

/-- Two worlds agree, but for a file that is written at one place. -/
structure WroteOnly (before after : World) (place : Place) (bytes : Bytes) : Prop where
  file : after.files.node? place = some (.file bytes)
  elsewhere : ∀ other, other ≠ place → after.files.node? other = before.files.node? other
  workingDirectory : after.files.workingDirectory = before.files.workingDirectory
  unreadable : after.files.unreadable = before.files.unreadable
  unwritable : after.files.unwritable = before.files.unwritable
  input : after.input = before.input
  inputFault : after.inputFault = before.inputFault

variable {arguments : List Text} {world after : World} {outcome : Outcome}

theorem wroteOnly_put {place : Place} (free : world.files.node? place ≠ some .directory)
    (bytes : Bytes) :
    WroteOnly world { world with files := world.files.put place (.file bytes) } place bytes where
  file := by rw [FileTree.node?_put (FileTree.ne_nil_of_node?_ne free), if_pos rfl]
  elsewhere other different := by
    rw [FileTree.node?_put (FileTree.ne_nil_of_node?_ne free), if_neg different]
  workingDirectory := rfl
  unreadable := rfl
  unwritable := rfl
  input := rfl
  inputFault := rfl

/-- A run that fails shows nothing and changes nothing. -/
theorem Ends.failed (ends : Ends arguments world outcome after) (failed : outcome.exitCode ≠ 0) :
    outcome.output = [] ∧ after = world := by
  cases ends with
  | help | shown | written => exact absurd rfl failed
  | usage | noInput | noFormat | inputNotFound | refused | unreadable | unwritable =>
      exact ⟨rfl, rfl⟩

/-- A run that names no input changes nothing. -/
theorem Ends.eq_of_no_input (ends : Ends arguments world outcome after)
    (none : ∀ options input, Options.read arguments = .ok (.convert options) →
      options.input ≠ some input) : after = world := by
  cases ends with
  | written read given => exact absurd given (none _ _ read)
  | _ => rfl

/-- A run that reads a file and succeeds writes the converted export to its output path. -/
theorem Ends.exists_written (ends : Ends arguments world outcome after) {options : Options}
    {input : Path} (read : Options.read arguments = .ok (.convert options))
    (given : options.input = some input) (succeeded : outcome.exitCode = 0) :
    ∃ bytes format place, world.files.readFile input = .ok bytes ∧
      Format.ofName options.formatName (scope? options input) = .ok format ∧
      world.files.writePlace (options.output.getD (format.defaultOutput input)) = .ok place ∧
      after = { world with files := world.files.put place (.file (converted format bytes)) } ∧
      outcome =
        { output := Run.written format (document bytes)
            (options.output.getD (format.defaultOutput input))
          errors := skippedReport options (document bytes) } := by
  cases ends with
  | usage read' | help read' => cases read.symm.trans read'
  | noInput read' noPath | noFormat read' noPath | shown read' noPath =>
      cases read.symm.trans read'
      cases given.symm.trans noPath
  | inputNotFound | refused | unreadable | unwritable => cases succeeded
  | @written _ _ output bytes format place read' given' holds planned leads =>
      cases read.symm.trans read'
      cases given.symm.trans given'
      obtain ⟨isFormat, rfl, -⟩ := plan_eq_ok_iff.1 planned
      exact ⟨bytes, format, place, holds, isFormat, leads, rfl, rfl⟩

/-- A run that fails shows nothing and changes nothing, and one that reads the standard input
changes nothing.  A run that reads a file and succeeds writes the converted export to the
file that its output path leads to, and changes nothing else. -/
theorem onWorld_footprint (arguments : List Text) (world : World) :
    let outcome := (onWorld world arguments).1
    let after := (onWorld world arguments).2
    (outcome.exitCode ≠ 0 → outcome.output = [] ∧ after = world) ∧
    -- the standard input, the help and a command line that cannot be read
    ((∀ options input, Options.read arguments = .ok (.convert options) →
      options.input ≠ some input) → after = world) ∧
    ∀ options input, Options.read arguments = .ok (.convert options) →
      options.input = some input → outcome.exitCode = 0 →
      ∃ bytes format place, world.files.readFile input = .ok bytes ∧
        Format.ofName options.formatName (scope? options input) = .ok format ∧
        let output := options.output.getD (format.defaultOutput input)
        world.files.writePlace output = .ok place ∧
        after.files.contents output = .ok (converted format bytes) ∧
        WroteOnly world after place (converted format bytes) := by
  intro outcome after
  have ends : Ends arguments world outcome after := ends_onWorld arguments world
  refine ⟨ends.failed, ends.eq_of_no_input, ?_⟩
  intro options input read given succeeded
  obtain ⟨bytes, format, place, holds, isFormat, leads, equal, -⟩ :=
    ends.exists_written read given succeeded
  obtain ⟨-, free, -⟩ := FileTree.exists_steps_of_writePlace leads
  refine ⟨bytes, format, place, holds, isFormat, leads, ?_, ?_⟩
  · rw [equal]
    exact FileTree.contents_put leads _
  · rw [equal]
    exact wroteOnly_put free _

/-- An export in a directory is written beside itself.  An output in a directory that is not
there, an output that may not be written, an input that may not be read and a standard input
that cannot be read make a run fail, and nothing is shown or written. -/
theorem onWorld_footprint_beside :
    let bytes := Utf8.encode "10 int __cdecl f()\nlonely\n".toList
    let world : World := {
      files := {
        nodes := [(["d".toList], .directory), (["d".toList, "n.txt".toList], .file bytes),
          (["d".toList, "m.txt".toList], .file bytes)]
        unreadable := [(["d".toList, "m.txt".toList], .permissionDenied)]
        unwritable := [(["d".toList, "o".toList], .permissionDenied)] }
      inputFault := some .isADirectory }
    let good := onWorld world ["d/n.txt".toList]
    (good.1.exitCode = 0 ∧ good.2.files.contents ⟨"d/n.tsv".toList⟩ = .ok (converted .rows bytes) ∧
      WroteOnly world good.2 ["d".toList, "n.tsv".toList] (converted .rows bytes)) ∧
    ∀ arguments ∈ [["d/n.txt".toList, "-o".toList, "e/n".toList],
        ["d/n.txt".toList, "-o".toList, "d/o".toList], ["d/m.txt".toList], []],
      let bad := onWorld world arguments
      bad.1.exitCode ≠ 0 ∧ bad.1.output = [] ∧ bad.2 = world := by
  intro bytes world good
  have succeeded : good.1.exitCode = 0 := by decide +kernel
  have failed : ∀ arguments ∈ [["d/n.txt".toList, "-o".toList, "e/n".toList],
      ["d/n.txt".toList, "-o".toList, "d/o".toList], ["d/m.txt".toList], []],
      (onWorld world arguments).1.exitCode ≠ 0 := by decide +kernel
  refine ⟨⟨succeeded, ?_⟩, fun arguments listed => ?_⟩
  · obtain ⟨read, format, place, holds, isFormat, leads, back, only⟩ :=
      (onWorld_footprint ["d/n.txt".toList] world).2.2 { input := some ⟨"d/n.txt".toList⟩ } _
        (by decide +kernel) rfl succeeded
    cases holds.symm.trans (show _ = Except.ok bytes by decide +kernel)
    cases isFormat.symm.trans (show _ = Except.ok Format.rows from rfl)
    cases leads.symm.trans (show _ = Except.ok ["d".toList, "n.tsv".toList] by decide +kernel)
    exact ⟨back, only⟩
  · exact ⟨failed arguments listed, (onWorld_footprint _ _).1 (failed arguments listed)⟩

end Run

end SignatureExport
