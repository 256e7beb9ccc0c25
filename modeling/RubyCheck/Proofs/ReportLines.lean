import Mathlib.Data.List.Forall2
import RubyCheck.Proofs.Json.Value
import RubyCheck.Report.Lines

/-!
# Lines of a report as text

The lines of a report are written in the compact form of JSON, whose strings are all spelled
character by character, and they are read back as they were, whatever stands in their messages and
in the tree (`ReportLines.decode_encode_ofReport`).
-/

namespace RubyCheck.ReportLines

/-! ### The compact form -/

/-- Strings between brackets, with commas and no blanks between them. -/
def compactArray (written : List (List Char)) : List Char :=
  '[' :: ([','].intercalate (written.map Json.writeString) ++ [']'])

/-- A key between quotes, a colon, and a value. -/
def compactMember (key : String) (value : List Char) : List Char :=
  Json.writeString key.toList ++ ':' :: value

/-- The member for the tree behind a comma, or nothing. -/
def compactDump : Option (List Char) → List Char
  | some dump => ',' :: compactMember "parse_dump" (Json.writeString dump)
  | none => []

/-- Lines between braces, with nothing but commas between the members. -/
def compact (errors warnings : List (List Char)) (summary : List Char)
    (dump : Option (List Char)) : List Char :=
  '\x7b' :: (compactMember "errors" (compactArray errors) ++
    ',' :: compactMember "warnings" (compactArray warnings) ++
    ',' :: compactMember "summary" (Json.writeString summary) ++ compactDump dump ++ ['\x7d'])

/-- Texts as they are written. -/
def escaped (ss : List String) : List (List Char) := ss.map fun s => Json.escape s.toList

lemma spells_escaped (ss : List String) :
    List.Forall₂ Json.Spells (ss.map String.toList) (escaped ss) := by
  refine List.forall₂_map_left_iff.mpr (List.forall₂_map_right_iff.mpr ?_)
  exact List.forall₂_same.mpr fun s _ => Json.spells_escape s.toList

lemma writeItems_ofText (ss : List String) :
    Json.writeItems (ss.map Json.ofText) = [','].intercalate ((escaped ss).map Json.writeString) := by
  induction ss with
  | nil => rfl
  | cons s ss ih =>
    cases ss with
    | nil => simp [escaped, Json.writeItems, Json.ofText, Json.write]
    | cons s' ss =>
      simp only [List.map_cons, escaped, Json.writeItems] at ih ⊢
      rw [ih, List.intercalate_cons_cons]
      simp [Json.ofText, Json.write]

lemma write_ofTexts (ss : List String) :
    (Json.ofTexts ss).write = compactArray (escaped ss) := by
  rw [Json.ofTexts, Json.write, writeItems_ofText, compactArray]

/-- Lines are written in the compact form. -/
lemma toList_encode (r : ReportLines) :
    r.encode.toList = compact (escaped r.errors) (escaped r.warnings) (Json.escape r.summary.toList)
      (r.treeDump.map fun dump => Json.escape dump.toList) := by
  obtain ⟨errors, warnings, summary, treeDump⟩ := r
  have hstring : ∀ s : String, (Json.ofText s).write = Json.writeString (Json.escape s.toList) :=
    fun _ => rfl
  rw [encode, String.toList_ofList, toJson, Json.write]
  cases treeDump with
  | none =>
    simp only [compact, compactMember, compactDump, dumpMember, Json.writeMembers, write_ofTexts,
      hstring, Option.map_none, List.append_assoc, List.cons_append, List.append_nil]
  | some dump =>
    simp only [compact, compactMember, compactDump, dumpMember, Json.writeMembers, write_ofTexts,
      hstring, Option.map_some, List.append_assoc, List.cons_append]

/-! ### Reading back -/

/-- The keys stand for themselves. -/
lemma spells_key {key : List Char} (h : Json.escape key = key) : Json.Spells key key := by
  simpa [h] using Json.spells_escape key

lemma textual_toJson (r : ReportLines) : r.toJson.Textual := by
  have hdump : Json.TextualMembers (dumpMember r.treeDump) := by
    cases r.treeDump with
    | none => exact .nil
    | some dump => exact .cons (spells_key (by decide +kernel)) (Json.textual_ofText dump) .nil
  refine .object (.cons (spells_key (by decide +kernel)) (Json.textual_ofTexts r.errors) ?_)
  refine .cons (spells_key (by decide +kernel)) (Json.textual_ofTexts r.warnings) ?_
  exact .cons (spells_key (by decide +kernel)) (Json.textual_ofText r.summary) hdump

lemma text?_ofText (s : String) : text? (Json.ofText s) = some s := by
  rw [Json.ofText, text?, (Json.spells_escape s.toList).unescape, Option.map_some,
    String.ofList_toList]

lemma texts?_ofTexts (ss : List String) : texts? (Json.ofTexts ss) = some ss := by
  rw [Json.ofTexts, texts?]
  induction ss with
  | nil => rfl
  | cons s ss ih => simp [text?_ofText, ih]

lemma dump?_ofText (s : String) : dump? (Json.ofText s) = some (some s) := by
  rw [← Option.map_some, ← text?_ofText s]
  rfl

/-- Keys that stand for themselves are read as they are. -/
lemma readKeys?_self {ms : List (List Char × Json)} (h : ∀ m ∈ ms, Json.unescape m.1 = some m.1) :
    readKeys? ms = some ms := by
  induction ms with
  | nil => rfl
  | cons m ms ih =>
    obtain ⟨hm, hms⟩ := List.forall_mem_cons.mp h
    have htail : ms.mapM (fun m => (Json.unescape m.1).map (·, m.2)) = some ms := ih hms
    simp [readKeys?, hm, htail]

/-- What lines are as an object says what they are. -/
lemma ofJson?_toJson (r : ReportLines) : ofJson? r.toJson = some r := by
  obtain ⟨errors, warnings, summary, treeDump⟩ := r
  have herrors := (@spells_key "errors".toList (by decide +kernel)).unescape
  have hwarnings := (@spells_key "warnings".toList (by decide +kernel)).unescape
  have hsummary := (@spells_key "summary".toList (by decide +kernel)).unescape
  have hdump : ∀ m ∈ dumpMember treeDump, Json.unescape m.1 = some m.1 := by
    intro m hm
    cases treeDump with
    | none => cases hm
    | some dump =>
      obtain rfl := List.mem_singleton.mp hm
      exact (@spells_key "parse_dump".toList (by decide +kernel)).unescape
  have hkeys := @readKeys?_self (("errors".toList, .ofTexts errors) ::
    ("warnings".toList, .ofTexts warnings) :: ("summary".toList, .ofText summary) ::
      dumpMember treeDump) (by
    simp only [List.forall_mem_cons]
    exact ⟨herrors, hwarnings, hsummary, hdump⟩)
  rw [toJson, ofJson?, hkeys, Option.bind_some]
  cases treeDump with
  | none =>
    simp [dumpMember, ofMembers?, required?, only?, texts?_ofTexts, text?_ofText]
  | some dump =>
    simp [dumpMember, ofMembers?, required?, only?, texts?_ofTexts, text?_ofText, dump?_ofText]

/-- Lines are read back from what is written of them. -/
lemma decode_encode (r : ReportLines) : decode r.encode = some r := by
  rw [decode, encode, String.toList_ofList, Json.read?_write (textual_toJson r),
    Option.bind_some, ofJson?_toJson]

/-- The lines of a report are read back from what is written of them, and with them whether the
report has a tree, be it empty.  They are written in the compact form: each message, the summary and
the tree as a string that spells it. -/
theorem decode_encode_ofReport (r : Report) :
    decode (ofReport r).encode = some (ofReport r) ∧
      (decode (ofReport r).encode).map treeDump = some r.treeDump ∧
      ∃ errors warnings summary dump,
        List.Forall₂ Json.Spells (r.errors.map fun d => d.shown.toList) errors ∧
        List.Forall₂ Json.Spells (r.warnings.map fun d => d.shown.toList) warnings ∧
        Json.Spells r.summary.toList summary ∧
        Option.Rel Json.Spells (r.treeDump.map String.toList) dump ∧
        (ofReport r).encode.toList = compact errors warnings summary dump := by
  have hread := decode_encode (ofReport r)
  refine ⟨hread, by rw [hread]; rfl, _, _, _, _, ?_, ?_, ?_, ?_, toList_encode (ofReport r)⟩
  · have hspelled := spells_escaped (r.errors.map Diagnostic.shown)
    rwa [List.map_map] at hspelled
  · have hspelled := spells_escaped (r.warnings.map Diagnostic.shown)
    rwa [List.map_map] at hspelled
  · exact Json.spells_escape r.summary.toList
  · cases hdump : r.treeDump with
    | none => simp [ofReport, hdump]
    | some dump => simpa [ofReport, hdump] using Option.Rel.some (Json.spells_escape dump.toList)

end RubyCheck.ReportLines
