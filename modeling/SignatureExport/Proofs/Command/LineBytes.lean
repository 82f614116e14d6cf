import SignatureExport.Proofs.Command.Ending
import SignatureExport.Proofs.Format.HeaderReader
import SignatureExport.Proofs.Format.RowReading
import SignatureExport.Proofs.Text.Decoding

/-!
# The bytes of a line stay in it

A run on the standard input decodes bytes, reads lines and writes rows.  At a line feed all
three start anew: the decoder closes an open character, a line ends, and the rows of what
follows stand behind the rows of what came before.  So the output for two exports with a
line feed between them is the one output behind the other (`shown_newline`), whatever bytes
stand at the border.  The same holds for the lines that are reported as skipped.

A report is read back line by line (`reported_report`), since no skipped line holds a line
end.
-/

namespace SignatureExport

namespace Rows

/-- The rows of two texts, one behind the other.  A text without rows adds no line end. -/
def join (first second : Text) : Text :=
  if first = [] then second else if second = [] then first else first ++ '\n' :: second

theorem intercalate_append_eq_join {first second : List Text}
    (nonempty : ∀ row ∈ first ++ second, row ≠ []) :
    ['\n'].intercalate (first ++ second)
      = join (['\n'].intercalate first) (['\n'].intercalate second) := by
  obtain ⟨nonemptyFirst, nonemptySecond⟩ := List.forall_mem_append.1 nonempty
  rw [join]
  split
  next empty =>
    rw [(Text.intercalate_eq_nil_iff '\n' nonemptyFirst).1 empty, List.nil_append]
  next someFirst =>
    split
    next empty =>
      rw [(Text.intercalate_eq_nil_iff '\n' nonemptySecond).1 empty, List.append_nil]
    next someSecond =>
      refine Text.intercalate_append '\n' ?_ ?_
      · exact mt (Text.intercalate_eq_nil_iff '\n' nonemptyFirst).2 someFirst
      · exact mt (Text.intercalate_eq_nil_iff '\n' nonemptySecond).2 someSecond

/-- The rows of an export with a line end in it are those of its two sides. -/
theorem render_extract_append (demangle : Demangler) (front back : Text) :
    render (Document.extract demangle (front ++ '\n' :: back))
      = join (render (Document.extract demangle front)) (render (Document.extract demangle back)) := by
  rw [Document.extract_append, render, render, render, List.map_append]
  refine intercalate_append_eq_join ?_
  rw [← List.map_append, List.forall_mem_map]
  exact fun entry _ => row_ne_nil entry

end Rows

namespace Run

/-! ## Reports -/

/-- The report of some skipped lines. -/
def report (lines : List Text) : Text :=
  if lines = [] then []
  else Header.ended
    (("Skipped ".toList ++ decimal lines.length ++
      " line(s) that could not be parsed:".toList) :: lines.map fun line => ' ' :: ' ' :: line)

/-- The lines that a report lists. -/
def reported (text : Text) : List Text :=
  ((text.splitOn '\n').drop 1).dropLast.map (·.drop 2)

theorem skippedReport_eq (options : Options) (document : Document) :
    skippedReport options document =
      if options.warnings then report (document.skipped.map (·.line)) else [] := by
  rw [skippedReport, report]
  cases options.warnings with
  | false => rfl
  | true =>
      cases skipped : document.skipped with
      | nil => rfl
      | cons first others => simp [Header.ended, List.flatMap_map]

theorem newline_not_mem_decimal (number : Nat) : '\n' ∉ decimal number := by
  intro inside
  rw [decimal, Nat.toString_eq_ofList_toDigits, String.toList_ofList] at inside
  have digit := Nat.isDigit_of_mem_toDigits (by decide) (by decide) inside
  exact absurd digit (by decide)

/-- A report is read back if no line in it holds a line end. -/
theorem reported_report {lines : List Text} (plain : ∀ line ∈ lines, '\n' ∉ line) :
    reported (report lines) = lines := by
  rw [report]
  split
  next empty =>
    rw [empty]
    rfl
  next nonempty =>
    have whole := Header.intercalate_newline_append
      (("Skipped ".toList ++ decimal lines.length ++ " line(s) that could not be parsed:".toList) ::
        lines.map fun line => ' ' :: ' ' :: line) (List.cons_ne_nil [] [])
    rw [List.intercalate_singleton, List.append_nil] at whole
    rw [reported, ← whole, (Text.splitOn_intercalate_iff (by simp)).2]
    · simp [Function.comp_def]
    · simp only [List.cons_append, List.forall_mem_cons, List.forall_mem_append]
      refine ⟨?_, ?_, by simp⟩
      · exact List.not_mem_append
          (List.not_mem_append (by decide) (newline_not_mem_decimal lines.length)) (by decide)
      · rw [List.forall_mem_map]
        exact fun line listed => by simpa using plain line listed

end Run

namespace Document

/-- Skipped lines hold no line end. -/
theorem newline_not_mem_skipped (demangle : Demangler) (text : Text) :
    ∀ line ∈ (extract demangle text).skipped.map (·.line), '\n' ∉ line := by
  rw [List.forall_mem_map]
  intro skipped listed
  obtain ⟨line, isLine, yields⟩ := mem_skipped_iff.1 listed
  exact yields.line_eq ▸ Record.newline_not_mem_of_mem_lines isLine

end Document

namespace Run

/-! ## Runs on the standard input -/

/-- The document of two exports with a line feed between them. -/
theorem document_append (first second : Bytes) :
    document (first ++ 0x0A :: second)
      = Document.extract .verbatim
          (Utf8.decodeLossy first ++ '\n' :: Utf8.decodeLossy second) := by
  rw [document, Utf8.decodeLossy_append_cons (by decide)]
  rfl

/-- The lines that are reported are the skipped lines of the document. -/
theorem reported_shown {arguments : List Text} {options : Options} {format : Format}
    (read : Options.read arguments = .ok (.convert options)) (noInput : options.input = none)
    (chosen : Format.ofName options.formatName options.scope = .ok format)
    (wanted : options.warnings = true) (world : World) (bytes : Bytes) :
    reported (shown world arguments bytes).errors = (document bytes).skipped.map (·.line) := by
  rw [shown_eq read noInput chosen, skippedReport_eq, if_pos wanted]
  exact reported_report (Document.newline_not_mem_skipped _ _)

/-- The rows of two exports with a line feed between them are the rows of the one behind the
rows of the other, and the same holds for the lines that are reported as skipped. -/
theorem shown_newline {arguments : List Text} {options : Options}
    (read : Options.read arguments = .ok (.convert options)) (noInput : options.input = none)
    (rows : options.formatName = "tsv".toList) (world : World) (first second : Bytes) :
    let shows := shown world arguments
    (shows (first ++ 0x0A :: second)).output = Rows.join (shows first).output (shows second).output ∧
    (options.warnings = true → reported (shows (first ++ 0x0A :: second)).errors
      = reported (shows first).errors ++ reported (shows second).errors) ∧
    -- every run succeeds, and its errors are a report of the lines that are read from them
    ∀ bytes, (shows bytes).exitCode = 0 ∧
      (shows bytes).errors = if options.warnings then report (reported (shows bytes).errors) else [] := by
  intro shows
  have chosen : Format.ofName options.formatName options.scope = .ok .rows := by
    rw [Format.ofName, if_pos rows]
  have equal (bytes : Bytes) := shown_eq read noInput chosen world bytes
  refine ⟨?_, fun wanted => ?_, fun bytes => ⟨?_, ?_⟩⟩
  · simp only [shows, equal, document_append]
    exact Rows.render_extract_append _ _ _
  · simp only [shows, reported_shown read noInput chosen wanted, document_append,
      Document.extract_append, List.map_append]
    rfl
  · simp only [shows, equal]
  · cases wanted : options.warnings with
    | true =>
        rw [if_pos rfl]
        simp only [shows, reported_shown read noInput chosen wanted]
        rw [shown_eq read noInput chosen, skippedReport_eq, if_pos wanted]
    | false =>
        rw [if_neg Bool.false_ne_true]
        simp only [shows, equal]
        rw [skippedReport_eq, wanted, if_neg Bool.false_ne_true]

/-- A character is cut off by the line feed, and the bytes that would complete it start the
next line.  Each side keeps its own row and its own skipped line. -/
theorem shown_newline_cut :
    let first := Utf8.encode "lonely\n10 int __cdecl f(char ".toList ++ [0xE2, 0x82]
    let second := 0xAC :: Utf8.encode "20 x\n20 int __cdecl g()".toList
    let shows := shown {} ["--warnings".toList]
    (shows (first ++ 0x0A :: second)).output = Rows.join (shows first).output (shows second).output ∧
    reported (shows (first ++ 0x0A :: second)).errors
      = reported (shows first).errors ++ reported (shows second).errors ∧
    reported (shows first).errors = ["lonely".toList, "10 int __cdecl f(char \ufffd".toList] ∧
    (shows second).output = "0x20\tint\t__cdecl\t\tg\t".toList := by
  intro first second shows
  obtain ⟨output, errors, -⟩ := @shown_newline ["--warnings".toList] { warnings := true } rfl rfl
    rfl {} first second
  exact ⟨output, errors rfl, by decide +kernel, by decide +kernel⟩

end Run

end SignatureExport
