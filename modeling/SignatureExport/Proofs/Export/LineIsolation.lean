import Mathlib.Data.List.Forall2
import Mathlib.Data.List.Induction
import SignatureExport.Export.Document
import SignatureExport.Proofs.Text.Pieces
import SignatureExport.Proofs.Text.Trimming

/-!
# Each line on its own

An export is read line by line.  A line that is not blank gives exactly one outcome,
an entry or a skipped line, and `Yields` says which.  The outcome depends on the line
alone, so the document of two exports with a line end between them is the two
documents one after the other (`extract_append`).  Filling a document outcome by
outcome gives the same (`extract_eq_foldl`).

Lines end at `\n` or at `\r\n`, and the last line end may be missing (`Text.lines`).
Trimming makes this and plain cutting at `\n` the same (`lines_eq`).
-/

namespace SignatureExport

namespace Text

/-! ## Lines of a text -/

/-- A line without the `\r` of its line end. -/
def dropReturn (line : Text) : Text :=
  if line.getLast? = some '\r' then line.dropLast else line

/-- The lines that the pieces between the `\n` of a text make up.  The last piece has
no line end, so it is a line only if there is something in it. -/
def linesOfPieces : List Text → List Text
  | [] => []
  | [last] => if last = [] then [] else [last]
  | piece :: next :: rest => dropReturn piece :: linesOfPieces (next :: rest)

/-- The lines of a text. -/
def lines (text : Text) : List Text := linesOfPieces (text.splitOn '\n')

theorem trim_dropReturn (line : Text) : (dropReturn line).trim = line.trim := by
  rw [dropReturn]
  split
  next ends =>
    obtain ⟨front, rfl⟩ := List.getLast?_eq_some_iff.1 ends
    have blank : AllBlank ['\r'] := by decide
    rw [List.dropLast_concat, trim_append_of_allBlank_right blank]
  next => rfl

theorem trim_linesOfPieces (pieces : List Text) :
    ((linesOfPieces pieces).map trim).filter (· ≠ []) = (pieces.map trim).filter (· ≠ []) := by
  fun_induction linesOfPieces pieces with
  | case1 => rfl
  | case2 => rfl
  | case3 => rfl
  | case4 piece next rest ih =>
      rw [List.map_cons, List.map_cons, trim_dropReturn, List.filter_cons, List.filter_cons, ih]

example : lines "a\r\n\nb\r".toList = ["a".toList, [], "b\r".toList] := by decide

end Text

namespace Record

/-- The lines of an export are the lines of the text, trimmed, without the blank ones. -/
theorem lines_eq (text : Text) :
    lines text = (text.lines.map Text.trim).filter (· ≠ []) :=
  (Text.trim_linesOfPieces (text.splitOn '\n')).symm

theorem lines_append (front back : Text) :
    lines (front ++ '\n' :: back) = lines front ++ lines back := by
  rw [lines, Text.splitOn_append_cons, List.map_append, List.filter_append, lines, lines]

/-- A line is a stretch of the text without a line end in it. -/
theorem newline_not_mem_of_mem_lines {line text : Text} (listed : line ∈ lines text) :
    '\n' ∉ line := by
  obtain ⟨piece, cut, rfl⟩ := List.mem_map.1 (List.mem_of_mem_filter listed)
  exact fun inside => Text.not_mem_of_mem_splitOn cut ((Text.infix_of_trim piece).subset inside)

theorem mem_of_mem_lines {line text : Text} {c : Char} (listed : line ∈ lines text)
    (inside : c ∈ line) : c ∈ text := by
  obtain ⟨piece, cut, rfl⟩ := List.mem_map.1 (List.mem_of_mem_filter listed)
  exact Text.mem_of_mem_splitOn cut ((Text.infix_of_trim piece).subset inside)

theorem ofLine_of_not_mem {line : Text} (absent : ' ' ∉ line) :
    ofLine line = .error .missingSeparator := by
  rw [ofLine, Text.cutAt?_eq_none_iff.2 absent]

theorem ofLine_append {front : Text} (fresh : ' ' ∉ front) (signature : Text) :
    ofLine (front ++ ' ' :: signature) =
      (Address.ofText? front).elim (.error .notHexadecimal) fun address =>
        .ok ⟨front ++ ' ' :: signature, address, signature⟩ := by
  simp only [ofLine, Text.cutAt?_eq_some_iff.2 ⟨rfl, fresh⟩]
  cases Address.ofText? front with
  | none => rfl
  | some address => rfl

/-- A record starts with an address, and its signature follows the first space. -/
theorem ofLine_eq_ok_iff {line : Text} {record : Record} :
    ofLine line = .ok record ↔
      record.line = line ∧ ∃ front, line = front ++ ' ' :: record.signature ∧ ' ' ∉ front ∧
        Address.ofText? front = some record.address := by
  constructor
  · intro isRecord
    by_cases spaced : ' ' ∈ line
    · obtain ⟨front, signature, rfl, fresh⟩ := List.eq_append_cons_of_mem spaced
      rw [ofLine_append fresh] at isRecord
      cases read : Address.ofText? front with
      | none =>
          rw [read] at isRecord
          cases isRecord
      | some address =>
          rw [read] at isRecord
          cases isRecord
          exact ⟨rfl, front, rfl, fresh, read⟩
    · rw [ofLine_of_not_mem spaced] at isRecord
      cases isRecord
  · rintro ⟨isLine, front, equal, fresh, isAddress⟩
    rw [equal, ofLine_append fresh, isAddress, ← equal, ← isLine]
    rfl

theorem line_of_ofLine {line : Text} {record : Record} (isRecord : ofLine line = .ok record) :
    record.line = line :=
  (ofLine_eq_ok_iff.1 isRecord).1

end Record

namespace Document

variable {demangle : Demangler}

/-! ## The outcome of a line -/

/-- What a trimmed line of an export gives. -/
inductive Yields (demangle : Demangler) (line : Text) : Except SkippedLine Entry → Prop
  /-- The line is no record. -/
  | malformed {fault : LineFault} (noRecord : Record.ofLine line = .error fault) :
      Yields demangle line (.error ⟨line, .malformed fault⟩)
  /-- The line is a record without a signature. -/
  | unparseable {record : Record} (isRecord : Record.ofLine line = .ok record)
      (noSignature : Signature.parse? (Signature.normalize (demangle record.signature)) = none) :
      Yields demangle line (.error ⟨line, .unparseable⟩)
  /-- The line is a record with a signature. -/
  | entry {record : Record} {signature : Signature} (isRecord : Record.ofLine line = .ok record)
      (parsed : Signature.parse? (Signature.normalize (demangle record.signature))
        = some signature) :
      Yields demangle line (.ok ⟨record.address, signature⟩)

/-- The outcome of a trimmed line. -/
def outcome (demangle : Demangler) (line : Text) : Except SkippedLine Entry :=
  ((Record.ofLine line).mapError fun fault => ⟨line, .malformed fault⟩).bind
    (Entry.ofRecord demangle)

theorem outcome_of_ofLine {line : Text} {record : Record}
    (isRecord : Record.ofLine line = .ok record) :
    outcome demangle line = Entry.ofRecord demangle record := by
  rw [outcome, isRecord]
  rfl

theorem Yields.eq_outcome {line : Text} {result : Except SkippedLine Entry}
    (yields : Yields demangle line result) : result = outcome demangle line := by
  cases yields with
  | malformed noRecord =>
      rw [outcome, noRecord]
      rfl
  | unparseable isRecord noSignature =>
      rw [outcome_of_ofLine isRecord]
      unfold Entry.ofRecord
      rw [noSignature, Record.line_of_ofLine isRecord]
  | entry isRecord parsed =>
      rw [outcome_of_ofLine isRecord]
      unfold Entry.ofRecord
      rw [parsed]

theorem yields_outcome (demangle : Demangler) (line : Text) :
    Yields demangle line (outcome demangle line) := by
  cases read : Record.ofLine line with
  | error fault =>
      have yields : Yields demangle line _ := .malformed read
      rwa [yields.eq_outcome] at yields
  | ok record =>
      cases parsed : Signature.parse? (Signature.normalize (demangle record.signature)) with
      | none =>
          have yields : Yields demangle line _ := .unparseable read parsed
          rwa [yields.eq_outcome] at yields
      | some signature =>
          have yields := Yields.entry read parsed
          rwa [yields.eq_outcome] at yields

/-- A line gives exactly one outcome. -/
theorem existsUnique_yields (demangle : Demangler) (line : Text) :
    ∃! result, Yields demangle line result :=
  ⟨outcome demangle line, yields_outcome demangle line, fun _ yields => yields.eq_outcome⟩

/-! ## Filling a document -/

/-- The document with one more outcome. -/
def add (document : Document) : Except SkippedLine Entry → Document
  | .ok entry => { document with entries := document.entries ++ [entry] }
  | .error line => { document with skipped := document.skipped ++ [line] }

theorem outcomes_eq_map (demangle : Demangler) (text : Text) :
    outcomes demangle text = (Record.lines text).map (outcome demangle) := by
  rw [outcomes, Record.all, List.map_map]
  rfl

theorem ofOutcomes_append (front back : List (Except SkippedLine Entry)) :
    ofOutcomes (front ++ back) =
      ⟨(ofOutcomes front).entries ++ (ofOutcomes back).entries,
        (ofOutcomes front).skipped ++ (ofOutcomes back).skipped⟩ := by
  simp only [ofOutcomes, List.filterMap_append]

/-- One more outcome is added behind the others. -/
theorem ofOutcomes_concat (front : List (Except SkippedLine Entry))
    (result : Except SkippedLine Entry) :
    ofOutcomes (front ++ [result]) = (ofOutcomes front).add result := by
  rw [ofOutcomes_append]
  cases result with
  | ok entry => simp [ofOutcomes, add]
  | error line => simp [ofOutcomes, add]

/-- The document of some outcomes is filled one by one. -/
theorem ofOutcomes_eq_foldl (results : List (Except SkippedLine Entry)) :
    ofOutcomes results = results.foldl add {} := by
  induction results using List.reverseRecOn with
  | nil => rfl
  | append_singleton front result ih => rw [ofOutcomes_concat, List.foldl_append, ih]; rfl

theorem extract_eq_foldl (demangle : Demangler) (text : Text) :
    extract demangle text =
      (Record.lines text).foldl (fun document line => document.add (outcome demangle line)) {} := by
  rw [extract, ofOutcomes_eq_foldl, outcomes_eq_map, List.foldl_map]

/-! ## Line isolation -/

/-- The lines in front of a line end and those behind it do not meet. -/
theorem extract_append (demangle : Demangler) (front back : Text) :
    extract demangle (front ++ '\n' :: back) =
      ⟨(extract demangle front).entries ++ (extract demangle back).entries,
        (extract demangle front).skipped ++ (extract demangle back).skipped⟩ := by
  rw [extract, outcomes_eq_map, Record.lines_append, List.map_append, ofOutcomes_append,
    ← outcomes_eq_map, ← outcomes_eq_map, extract, extract]

/-- The entries of a document are the outcomes that are entries, in their order. -/
theorem map_ok_entries (results : List (Except SkippedLine Entry)) :
    (ofOutcomes results).entries.map Except.ok = results.filter Except.isOk := by
  induction results with
  | nil => rfl
  | cons result results ih =>
      cases result with
      | ok entry => exact congrArg (Except.ok entry :: ·) ih
      | error line => exact ih

/-- The skipped lines of a document are the other outcomes, in their order. -/
theorem map_error_skipped (results : List (Except SkippedLine Entry)) :
    (ofOutcomes results).skipped.map Except.error = results.filter fun result => !result.isOk := by
  induction results with
  | nil => rfl
  | cons result results ih =>
      cases result with
      | ok entry => exact ih
      | error line => exact congrArg (Except.error line :: ·) ih

theorem mem_outcomes_iff {text : Text} {result : Except SkippedLine Entry} :
    result ∈ outcomes demangle text ↔ ∃ line ∈ Record.lines text, Yields demangle line result := by
  rw [outcomes_eq_map, List.mem_map]
  refine exists_congr fun line => and_congr_right fun _ => ?_
  exact ⟨fun equal => equal ▸ yields_outcome demangle line, fun yields => yields.eq_outcome.symm⟩

theorem mem_entries_iff {text : Text} {entry : Entry} :
    entry ∈ (extract demangle text).entries ↔
      ∃ line ∈ Record.lines text, Yields demangle line (.ok entry) := by
  have listed : entry ∈ (extract demangle text).entries ↔
      Except.ok entry ∈ (extract demangle text).entries.map (Except.ok (ε := SkippedLine)) := by
    simp
  rw [listed, extract, map_ok_entries, List.mem_filter, mem_outcomes_iff]
  exact and_iff_left rfl

theorem mem_skipped_iff {text : Text} {skipped : SkippedLine} :
    skipped ∈ (extract demangle text).skipped ↔
      ∃ line ∈ Record.lines text, Yields demangle line (.error skipped) := by
  have listed : skipped ∈ (extract demangle text).skipped ↔
      Except.error skipped ∈ (extract demangle text).skipped.map (Except.error (α := Entry)) := by
    simp
  rw [listed, extract, map_error_skipped, List.mem_filter, mem_outcomes_iff]
  exact and_iff_left rfl

theorem Yields.line_eq {line : Text} {skipped : SkippedLine}
    (yields : Yields demangle line (.error skipped)) : skipped.line = line := by
  cases yields with
  | malformed => rfl
  | unparseable => rfl

/-- An entry of an export was parsed from the end of one of its lines. -/
theorem exists_line_of_mem_entries {text : Text} {entry : Entry}
    (exported : entry ∈ (extract demangle text).entries) :
    ∃ line ∈ Record.lines text, ∃ front signature, line = front ++ ' ' :: signature ∧
      Signature.parse? (Signature.normalize (demangle signature)) = some entry.signature := by
  obtain ⟨line, listed, yields⟩ := mem_entries_iff.1 exported
  cases yields with
  | @entry record signature isRecord parsed =>
      obtain ⟨-, front, equal, -⟩ := Record.ofLine_eq_ok_iff.1 isRecord
      exact ⟨line, listed, front, record.signature, equal, parsed⟩

/-- Each line of an export that is not blank gives one outcome of its own, and the
outcomes of two exports are kept when they are read as one. -/
theorem extract_lines (demangle : Demangler) :
    (∀ front back, let whole := extract demangle (front ++ '\n' :: back)
      whole.entries = (extract demangle front).entries ++ (extract demangle back).entries ∧
        whole.skipped = (extract demangle front).skipped ++ (extract demangle back).skipped) ∧
    -- a line gives one outcome, whatever stands around it
    (∀ line, ∃! result, Yields demangle line result) ∧
    ∀ text, let document := extract demangle text
      ∃ results,
        List.Forall₂ (Yields demangle) ((text.lines.map Text.trim).filter (· ≠ [])) results ∧
        document = results.foldl add {} ∧
        document.entries.map Except.ok = results.filter Except.isOk ∧
        document.skipped.map Except.error = results.filter fun result => !result.isOk := by
  refine ⟨?_, existsUnique_yields demangle, ?_⟩
  · intro front back whole
    have equal : whole = _ := extract_append demangle front back
    rw [equal]
    exact ⟨rfl, rfl⟩
  · intro text document
    have equal : document = ofOutcomes (outcomes demangle text) := rfl
    refine ⟨outcomes demangle text, ?_, ?_, ?_, ?_⟩
    · rw [outcomes_eq_map, ← Record.lines_eq, List.forall₂_map_right_iff, List.forall₂_same]
      exact fun line _ => yields_outcome demangle line
    · rw [equal, ofOutcomes_eq_foldl]
    · rw [equal, map_ok_entries]
    · rw [equal, map_error_skipped]

end Document

end SignatureExport
