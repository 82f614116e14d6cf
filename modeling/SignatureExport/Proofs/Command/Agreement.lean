import SignatureExport.Proofs.Command.Footprint
import SignatureExport.Proofs.Format.RecordCount

/-!
# A file or the standard input

The same export can be read from a file or from the standard input.  Both runs have the same
text for it: the one writes it, the other shows it (`onWorld_file_shown`).  They report the
same skipped lines.  The number of entries that a run with a file announces is the number of
records in the text that it writes.

The namespace of a header must be given.  A run with a file may take it from the name of the
file, which the standard input does not have.
-/

namespace SignatureExport

namespace Run

/-- Two command lines ask for the same conversion, whatever its input and its output are. -/
structure AsksAlike (first second : Options) : Prop where
  format : first.formatName = second.formatName
  scope : first.scope = second.scope
  warnings : first.warnings = second.warnings

theorem AsksAlike.skippedReport_eq {first second : Options} (alike : AsksAlike first second)
    (document : Document) : skippedReport first document = skippedReport second document := by
  rw [skippedReport, skippedReport, alike.warnings]

/-- The name of the input does not matter for rows, nor for a namespace that is given. -/
theorem ofName_scope? {options : Options}
    (explicit : options.formatName = "tsv".toList ∨ options.scope ≠ none) (input : Path) :
    Format.ofName options.formatName (scope? options input)
      = Format.ofName options.formatName options.scope := by
  rcases explicit with rows | given
  · rw [Format.ofName, Format.ofName, if_pos rows, if_pos rows]
  · obtain ⟨text, equal⟩ := Option.ne_none_iff_exists'.1 given
    rw [scope?, equal]

/-- A run with a file that succeeds writes what a run on the standard input shows for the same
bytes and options.  Both report the same.  The number that the run with the file announces is
the number of records in the text. -/
theorem onWorld_file_shown {fileArguments arguments : List Text} {options others : Options}
    {input : Path} {bytes : Bytes} {world : World}
    (readFile : Options.read fileArguments = .ok (.convert options))
    (given : options.input = some input)
    (read : Options.read arguments = .ok (.convert others)) (noInput : others.input = none)
    (alike : AsksAlike options others)
    (explicit : options.formatName = "tsv".toList ∨ options.scope ≠ none)
    (holds : world.files.contents input = .ok bytes)
    (succeeded : (onWorld world fileArguments).1.exitCode = 0) (other : World) :
    let file := onWorld world fileArguments
    let standard := shown other arguments bytes
    ∃ format records, Format.ofName options.formatName options.scope = .ok format ∧
      let output := options.output.getD (format.defaultOutput input)
      file.2.files.contents output = .ok (Utf8.encode standard.output) ∧
      standard.exitCode = 0 ∧ file.1.errors = standard.errors ∧
      format.records? standard.output = some records ∧
      file.1.output = "Wrote ".toList ++ decimal records.length ++ " entries to ".toList ++
        output.text ++ ['\n'] := by
  intro file standard
  obtain ⟨source, format, place, read', isFormat, leads, after, outcome⟩ :=
    (ends_onWorld fileArguments world).exists_written readFile given succeeded
  cases holds.symm.trans (FileTree.contents_of_readFile read')
  rw [ofName_scope? explicit] at isFormat
  have chosen : Format.ofName others.formatName others.scope = .ok format := by
    rw [← alike.format, ← alike.scope, isFormat]
  have equal : standard = _ := shown_eq read noInput chosen other bytes
  obtain ⟨records, counted, length⟩ :=
    Option.map_eq_some_iff.1 (format.length_records?_render (Utf8.decodeLossy bytes))
  refine ⟨format, records, isFormat, ?_, ?_, ?_, ?_, ?_⟩
  · have wrote : file.2 = _ := after
    rw [wrote, equal]
    exact FileTree.contents_put leads _
  · rw [equal]
  · have reported : file.1 = _ := outcome
    rw [reported, equal]
    exact alike.skippedReport_eq (document bytes)
  · rw [equal]
    exact counted
  · have announced : file.1 = _ := outcome
    rw [announced, length]
    rfl

/-- An export with two rows of the same key and a line that is skipped.  Both rows are counted,
and both runs report the line. -/
theorem onWorld_file_shown_rows :
    let bytes := Utf8.encode "10 int __cdecl f()\nlonely\n20 int __cdecl f()".toList
    let world : World := { files := { nodes :=
      [(["d".toList], .directory), (["d".toList, "n.txt".toList], .file bytes)] } }
    let file := onWorld world ["d/n.txt".toList, "--warnings".toList]
    let standard := shown {} ["--warnings".toList] bytes
    file.2.files.contents ⟨"d/n.tsv".toList⟩ = .ok (Utf8.encode standard.output) ∧
    file.1.errors = standard.errors ∧ standard.errors ≠ [] ∧
    (Format.rows.records? standard.output).map List.length = some 2 ∧
    file.1.output = "Wrote 2 entries to d/n.tsv\n".toList := by
  intro bytes world file standard
  obtain ⟨format, records, isFormat, holds, -, errors, counted, announced⟩ :=
    @onWorld_file_shown ["d/n.txt".toList, "--warnings".toList] ["--warnings".toList]
      { input := some ⟨"d/n.txt".toList⟩, warnings := true } { warnings := true }
      ⟨"d/n.txt".toList⟩ bytes world (by decide +kernel) rfl rfl rfl ⟨rfl, rfl, rfl⟩ (.inl rfl)
      (by decide +kernel) (by decide +kernel) {}
  cases isFormat.symm.trans (show _ = Except.ok Format.rows from rfl)
  have two : (Format.rows.records? standard.output).map List.length = some 2 := by decide +kernel
  have length : records.length = 2 := by
    rw [counted] at two
    exact Option.some.inj two
  refine ⟨holds, errors, by decide +kernel, two, announced.trans ?_⟩
  rw [length]
  decide +kernel

end Run

end SignatureExport
