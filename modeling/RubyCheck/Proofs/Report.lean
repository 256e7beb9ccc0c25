import RubyCheck.Proofs.Likeness.Reading
import RubyCheck.Report.Lines

/-!
# Reports on lines

A report shows each diagnostic on one line as long as no token that it may quote is written over
several lines (`Reading.check_oneLine`).  A text is read like itself, and every layer that words a
message takes care that it breaks no lines if the tokens do not.  Where a token does, a message that
quotes it goes on in the next line of the report (`Reading.check_not_oneLine`).
-/

namespace RubyCheck

/-! ### Sections -/

/-- Lines that are each ended split into themselves and an empty rest. -/
lemma splitOn_flatMap_line {lines : List (List Char)} (h : ∀ line ∈ lines, '\n' ∉ line) :
    (lines.flatMap (· ++ ['\n'])).splitOn '\n' = lines ++ [[]] := by
  induction lines with
  | nil => rfl
  | cons line lines ih =>
    obtain ⟨hline, hlines⟩ := List.forall_mem_cons.mp h
    have hplain : ∀ c ∈ line, (c == '\n') = false := by
      intro c hc
      exact beq_eq_false_iff_ne.mpr (ne_of_mem_of_not_mem hc hline)
    rw [List.flatMap_cons, List.append_assoc, List.singleton_append, List.splitOn,
      List.splitOnP_append_cons_of_forall_mem hplain '\n' rfl, List.cons_append]
    exact congrArg (line :: ·) (ih hlines)

/-- A diagnostic is shown on one line if its message is. -/
lemma Diagnostic.oneLine_shown {d : Diagnostic} (h : OneLine d.message) : OneLine d.shown := by
  have hcolon : OneLine ":" := by decide
  have hblank : OneLine ": " := by decide
  have hplace := ((oneLine_toString d.line).append hcolon).append (oneLine_toString d.column)
  exact (hplace.append hblank).append h

namespace Report

variable {title : String} {ds : List Diagnostic}

/-- The line above a section. -/
def heading (title : String) (ds : List Diagnostic) : String :=
  if ds.isEmpty then s!"=== NO {title} ===" else s!"=== {title} ==="

/-- The line above a section, and a line for each diagnostic. -/
def sectionLines (title : String) (ds : List Diagnostic) : List String :=
  heading title ds :: ds.map Diagnostic.shown

/-- The lines of both sections, with an empty line between them. -/
def lines (r : Report) : List String :=
  sectionLines "ERRORS" r.errors ++ "" :: sectionLines "WARNINGS" r.warnings

lemma oneLine_heading (h : OneLine title) : OneLine (heading title ds) := by
  have hrule : OneLine " ===" := by decide
  unfold heading
  split
  · have hnone : OneLine "=== NO " := by decide
    exact (hnone.append h).append hrule
  · have hsome : OneLine "=== " := by decide
    exact (hsome.append h).append hrule

/-- A section is its lines, and each of them is ended. -/
lemma toList_sectionText (title : String) (ds : List Diagnostic) :
    (sectionText title ds).toList =
      ((sectionLines title ds).map String.toList).flatMap (· ++ ['\n']) := by
  have hrule : (toString " ===\n").toList = (toString " ===").toList ++ ['\n'] := rfl
  cases ds with
  | nil => simp [sectionText, sectionLines, heading, hrule]
  | cons d ds => simp [sectionText, sectionLines, heading, hrule, List.flatMap_map]

/-- Where every diagnostic is shown on one line, the sections of a report have a line for each. -/
lemma exists_sections (r : Report) (h : ∀ d ∈ r.errors ++ r.warnings, OneLine d.shown) :
    ∃ sections : String, r.text = dumpText r.treeDump ++ sections ∧
      sections.toList.splitOn '\n' = r.lines.map String.toList ++ [[]] := by
  refine ⟨sectionText "ERRORS" r.errors ++ "\n" ++ sectionText "WARNINGS" r.warnings, ?_, ?_⟩
  · simp only [text, String.append_assoc]
  · have hended : (sectionText "ERRORS" r.errors ++ "\n" ++ sectionText "WARNINGS" r.warnings).toList =
        (r.lines.map String.toList).flatMap (· ++ ['\n']) := by
      simp [lines, toList_sectionText]
    rw [hended]
    refine splitOn_flatMap_line (List.forall_mem_map.mpr ?_)
    obtain ⟨herrors, hwarnings⟩ := List.forall_mem_append.mp h
    have herrors' : ∀ line ∈ sectionLines "ERRORS" r.errors, OneLine line :=
      List.forall_mem_cons.mpr ⟨oneLine_heading (by decide), List.forall_mem_map.mpr herrors⟩
    have hwarnings' : ∀ line ∈ sectionLines "WARNINGS" r.warnings, OneLine line :=
      List.forall_mem_cons.mpr ⟨oneLine_heading (by decide), List.forall_mem_map.mpr hwarnings⟩
    exact List.forall_mem_append.mpr
      ⟨herrors', List.forall_mem_cons.mpr ⟨show OneLine "" by decide, hwarnings'⟩⟩

end Report

/-! ### Readings -/

/-- A text is read like itself, and no token of it is asked to be anything but on one line. -/
def Likeness.unbroken : Likeness where
  start := Eq
  place := Eq
  lines := 0
  onOneLine := True
  place_of_start h := h
  compare_eq_gt := by
    rintro p _ q _ rfl rfl
    rfl
  byte_lt := by
    rintro p _ q _ rfl rfl
    rfl
  line_eq := by
    rintro p _ rfl
    rfl

namespace TokenStream

/-- A text none of whose tokens breaks lines but line breaks themselves is read like itself. -/
lemma unbroken_ofText {source : List Char}
    (h : ∀ t ∈ (ofText source).tokens, t.kind ≠ .newline → OneLine t.text) :
    (ofText source).Like .unbroken (ofText source) := by
  have htoken : ∀ t ∈ (ofText source).tokens, t.Same .unbroken t := by
    intro t ht
    exact ⟨⟨rfl, rfl, ⟨rfl, rfl⟩, rfl, fun hkind _ => h t ht hkind⟩, rfl⟩
  refine ⟨?_, ?_, ?_⟩
  · exact List.forall₂_same.mpr fun t ht => (htoken t ht).toLike
  · exact List.forall₂_same.mpr fun t ht => htoken t (List.mem_of_mem_tail ht)
  · exact List.forall₂_same.mpr fun f hf => ⟨rfl, rfl, fun _ => (lexical_of_mem_faults source f hf).oneLine⟩

end TokenStream

namespace Reading

/-- If no token of a text breaks lines but line breaks themselves, every error and every warning is
shown on one line, and the sections of the report have exactly one line for each of them. -/
theorem check_oneLine (source : List Char) (withDump : Bool)
    (h : ∀ t ∈ (TokenStream.ofText source).tokens, t.kind ≠ .newline → OneLine t.text) :
    (∀ line ∈ (ReportLines.ofReport (check source withDump)).errors ++
        (ReportLines.ofReport (check source withDump)).warnings, OneLine line) ∧
      ∃ sections : String,
        (check source withDump).text =
          Report.dumpText (check source withDump).treeDump ++ sections ∧
        sections.toList.splitOn '\n' = (check source withDump).lines.map String.toList ++ [[]] := by
  have hlike : (ofText .standard source).Like .unbroken (ofText .standard source) :=
    like_ofText (TokenStream.unbroken_ofText h)
  have hshown : ∀ d ∈ (check source withDump).errors ++ (check source withDump).warnings,
      OneLine d.shown := by
    refine List.forall_mem_append.mpr ⟨fun d hd => ?_, fun d hd => ?_⟩
    · obtain ⟨f, hf, rfl⟩ := List.mem_map.mp (List.mem_mergeSort.mp hd)
      obtain ⟨f', -, hff'⟩ := List.Forall₂.exists_of_mem hlike.tree.faults hf
      exact Diagnostic.oneLine_shown (hff'.spells trivial)
    · obtain ⟨f, hf, rfl⟩ := List.mem_map.mp (List.mem_mergeSort.mp hd)
      obtain ⟨f', -, hff'⟩ := List.Forall₂.exists_of_mem hlike.findings hf
      exact Diagnostic.oneLine_shown (hff'.spells trivial)
  refine ⟨?_, Report.exists_sections _ hshown⟩
  obtain ⟨herrors, hwarnings⟩ := List.forall_mem_append.mp hshown
  exact List.forall_mem_append.mpr
    ⟨List.forall_mem_map.mpr herrors, List.forall_mem_map.mpr hwarnings⟩

/-- An error behind a warning that quotes a string. -/
theorem check_oneLine_value :
    (∀ t ∈ (TokenStream.ofText "case x\nwhen 'a', \"a\"\nend\n1 +\n".toList).tokens,
      t.kind ≠ .newline → OneLine t.text) ∧
    (check "case x\nwhen 'a', \"a\"\nend\n1 +\n".toList false).lines =
      ["=== ERRORS ===", "4:4: unexpected end of input, expected expression", "",
        "=== WARNINGS ===",
        "2:11: duplicated `when` clause value `\"a\"` (first seen on line 2) is ignored"] ∧
    ∃ sections : String,
      (check "case x\nwhen 'a', \"a\"\nend\n1 +\n".toList false).text =
        Report.dumpText none ++ sections ∧
      sections.toList.splitOn '\n' =
        (check "case x\nwhen 'a', \"a\"\nend\n1 +\n".toList false).lines.map String.toList ++
          [[]] := by
  have htokens : ∀ t ∈ (TokenStream.ofText "case x\nwhen 'a', \"a\"\nend\n1 +\n".toList).tokens,
      t.kind ≠ .newline → OneLine t.text := by decide +kernel
  exact ⟨htokens, by decide +kernel, (check_oneLine _ false htokens).2⟩

/-- A value that is written over two lines twice makes a warning that goes on in the next line, and so
does a symbol where a name is expected: the section of one warning has three lines and not two. -/
theorem check_not_oneLine :
    (∃ line ∈ (ReportLines.ofReport
        (check "case x\nwhen \"a\nb\", \"a\nb\"\nend\n".toList false)).warnings, ¬ OneLine line) ∧
    (∃ line ∈ (ReportLines.ofReport (check "1.:\"a\nb\"".toList false)).errors, ¬ OneLine line) ∧
    (Report.sectionText "WARNINGS"
        (check "case x\nwhen \"a\nb\", \"a\nb\"\nend\n".toList false).warnings).toList.splitOn '\n' =
      ["=== WARNINGS ===".toList, "3:5: duplicated `when` clause value `\"a".toList,
        "b\"` (first seen on line 2) is ignored".toList, []] := by
  refine ⟨?_, ?_, ?_⟩
  · decide +kernel
  · decide +kernel
  · decide +kernel

end Reading

end RubyCheck
