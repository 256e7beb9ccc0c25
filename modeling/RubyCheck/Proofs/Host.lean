import RubyCheck.Host
import RubyCheck.Proofs.Position
import RubyCheck.Proofs.ReportLines
import RubyCheck.Proofs.Text.Utf8

/-!
# Runs of a host

Whatever a host asks for, and in whatever order, each call is answered and leaves behind what
`Session.Answered` says of it alone (`Session.answered_run`).  Only calls that check bytes change what
is kept, and what they leave does not depend on what was kept before (`Session.run_filter`).
-/

namespace RubyCheck

/-- A report is written with as many bytes as it has. -/
lemma byteLength_eq_length_encode (cs : List Char) :
    Source.byteLength cs = (Text.Utf8.encode cs).length := by
  induction cs with
  | nil => rfl
  | cons c cs ih =>
    rw [Source.byteLength_cons, ih]
    simp only [Text.Utf8.encode, List.flatMap_cons, List.length_append,
      String.length_utf8EncodeChar]

/-- An encoded report is never empty. -/
lemma encode_ne_empty (r : ReportLines) : r.encode ≠ "" := by
  intro h
  have hlist := congrArg String.toList h
  rw [ReportLines.toList_encode] at hlist
  cases hlist

/-- There is something to say about every fault. -/
lemma HostFault.message_ne_empty (f : HostFault) : f.message ≠ "" := by
  cases f with
  | nullInput =>
    have hall : "input pointer is null" ≠ "" := by decide +kernel
    exact hall
  | malformedText n =>
    have hbegin : "source is not valid UTF-8 (valid up to byte " ≠ "" := by decide +kernel
    intro h
    exact hbegin (String.append_eq_empty_iff.mp (String.append_eq_empty_iff.mp h).1).1

namespace Host

/-- Whether a call checks bytes. -/
def Call.checksBytes : Call → Bool
  | .check _ _ => true
  | _ => false

namespace Session

variable {s : Session} {c : Call} {before after : List Call}

/-- How a call is answered, and what it leaves behind. -/
inductive Answered (s : Session) : Call → Answer → Session → Prop
  /-- Bytes that encode a text are answered by the report of this text. -/
  | report {b : Buffer} {withDump : Bool} {source : List Char} {json : String} {s' : Session} :
      Text.Utf8.encode source = b.bytes → json = encodedReport source withDump → json ≠ "" →
      s'.resultLength = (Text.Utf8.encode json.toList).length → s'.lastError = "" →
      Answered s (.check (.lent b) withDump) (.report (some json)) s'
  /-- The null address is answered by itself. -/
  | nullInput {withDump : Bool} {s' : Session} :
      s'.resultLength = 0 → s'.lastError = "input pointer is null" → s'.lastError ≠ "" →
      Answered s (.check .null withDump) (.report none) s'
  /-- So are other bytes, and the message says how many of them still encode a text. -/
  | malformedText {b : Buffer} {withDump : Bool} {n : ℕ} {s' : Session} :
      ¬ Text.Utf8.IsEncoded b.bytes → n ≤ b.length → Text.Utf8.IsEncoded (b.bytes.take n) →
      (∀ m ≤ b.length, Text.Utf8.IsEncoded (b.bytes.take m) → m ≤ n) →
      s'.resultLength = 0 →
      s'.lastError = s!"source is not valid UTF-8 (valid up to byte {n})" → s'.lastError ≠ "" →
      Answered s (.check (.lent b) withDump) (.report none) s'
  | text {source : List Char} {withDump : Bool} :
      Answered s (.checkText source withDump) (.report (some (encodedReport source withDump))) s
  | allocate {length : ℕ} :
      Answered s (.allocate length) (.loan (.lent ⟨List.replicate length 0⟩)) s
  | reclaim {loan : Loan} : Answered s (.reclaim loan) (.buffer loan.reclaim?) s
  | query : Answered s .query (.session s) s

/-! ### One call -/

/-- A call is answered as it has to be. -/
lemma answered_step (s : Session) (c : Call) : Answered s c (s.step c).1 (s.step c).2 := by
  cases c with
  | check input withDump =>
    cases input with
    | null => exact .nullInput rfl rfl (HostFault.message_ne_empty .nullInput)
    | lent b =>
      cases hdecode : Text.Utf8.decode b.bytes with
      | ok source =>
        have hloan : encodedLoan (.lent b) withDump = .ok (encodedReport source withDump) := by
          simp only [encodedLoan, Loan.reclaim?, checkBytes, hdecode]
          rfl
        simp only [step, hloan]
        exact .report (Text.Utf8.decode_eq_ok_iff.mp hdecode) rfl (encode_ne_empty _)
          (byteLength_eq_length_encode _) rfl
      | error n =>
        have hloan : encodedLoan (.lent b) withDump = .error (.malformedText n) := by
          simp only [encodedLoan, Loan.reclaim?, checkBytes, hdecode]
          rfl
        obtain ⟨hnot, hn, htake, hmax⟩ := Text.Utf8.decode_eq_error_iff.mp hdecode
        simp only [step, hloan]
        exact .malformedText hnot hn htake hmax rfl rfl
          (HostFault.message_ne_empty (.malformedText n))
  | checkText source withDump => exact .text
  | allocate length => exact .allocate
  | reclaim loan => exact .reclaim
  | query => exact .query

/-- Only a call that checks bytes changes what is kept. -/
lemma step_of_not_checksBytes (h : c.checksBytes = false) : (s.step c).2 = s := by
  cases c with
  | check => cases h
  | _ => rfl

/-- A call that checks bytes leaves the same behind whatever was kept. -/
lemma step_of_checksBytes (s' : Session) (h : c.checksBytes = true) : s.step c = s'.step c := by
  cases c with
  | check => rfl
  | _ => cases h

/-- No answer but that to a query depends on what is kept. -/
lemma answer_eq_of_ne_query (s' : Session) (h : c ≠ .query) : (s.step c).1 = (s'.step c).1 := by
  cases c with
  | query => exact absurd rfl h
  | _ => rfl

/-- A check is answered by the null address exactly if it has it for an input, or bytes that encode
no text. -/
lemma answer_eq_none_iff {input : Loan} {withDump : Bool} :
    (s.step (.check input withDump)).1 = .report none ↔
      input = .null ∨ ∃ b, input = .lent b ∧ ¬ Text.Utf8.IsEncoded b.bytes := by
  constructor
  · intro h
    cases input with
    | null => exact .inl rfl
    | lent b =>
      refine .inr ⟨b, rfl, ?_⟩
      have hanswered := answered_step s (.check (.lent b) withDump)
      rw [h] at hanswered
      cases hanswered with
      | malformedText hnot => exact hnot
  · rintro (rfl | ⟨b, rfl, hnot⟩)
    · rfl
    · have hanswered := answered_step s (.check (.lent b) withDump)
      generalize (s.step (.check (.lent b) withDump)).1 = answer at hanswered ⊢
      cases hanswered with
      | report hencode => exact absurd ⟨_, hencode⟩ hnot
      | malformedText => rfl

/-! ### Some calls -/

lemma run_append (s : Session) (before after : List Call) :
    s.run (before ++ after) =
      ((s.run before).1 ++ ((s.run before).2.run after).1, ((s.run before).2.run after).2) := by
  induction before generalizing s with
  | nil => rfl
  | cons c before ih => simp only [List.cons_append, run, ih]

lemma length_run (s : Session) (cs : List Call) : (s.run cs).1.length = cs.length := by
  induction cs generalizing s with
  | nil => rfl
  | cons c cs ih => simp only [run, List.length_cons, ih]

/-- What is kept behind some calls is what those have left that check bytes. -/
theorem run_filter (s : Session) (cs : List Call) :
    (s.run (cs.filter Call.checksBytes)).2 = (s.run cs).2 := by
  induction cs generalizing s with
  | nil => rfl
  | cons c cs ih =>
    cases hchecks : c.checksBytes with
    | true => simp only [List.filter_cons, hchecks, if_true, run, ih]
    | false =>
      simp only [List.filter_cons, hchecks, Bool.false_eq_true, if_false, run, ih,
        step_of_not_checksBytes hchecks]

/-- What was kept before is forgotten with the first call that checks bytes. -/
theorem run_eq_of_checksBytes (s s' : Session) (h : ∃ c ∈ before, c.checksBytes = true) :
    (s.run before).2 = (s'.run before).2 := by
  rw [← run_filter s, ← run_filter s']
  obtain ⟨c, hc, hchecks⟩ := h
  have hmem : c ∈ before.filter Call.checksBytes := List.mem_filter.mpr ⟨hc, hchecks⟩
  cases hfilter : before.filter Call.checksBytes with
  | nil => rw [hfilter] at hmem; cases hmem
  | cons c' cs =>
    have hmem' : c' ∈ before.filter Call.checksBytes := by rw [hfilter]; exact List.mem_cons_self
    rw [run, run, step_of_checksBytes s' (List.mem_filter.mp hmem').2]

/-- However many calls there are, each of them is answered as it has to be and leaves behind what it
has to; a check is answered by the null address exactly if it has no text for an input, and no
answer but that to a query depends on the calls before. -/
theorem answered_run (before : List Call) (c : Call) (after : List Call) :
    ∃ answer, (fresh.run (before ++ c :: after)).1[before.length]? = some answer ∧
      Answered (fresh.run before).2 c answer (fresh.run (before ++ [c])).2 ∧
      (∀ input withDump, c = .check input withDump →
        (answer = .report none ↔
          input = .null ∨ ∃ b, input = .lent b ∧ ¬ Text.Utf8.IsEncoded b.bytes)) ∧
      (c ≠ .query → answer = (fresh.step c).1) := by
  have hbehind : (fresh.run (before ++ [c])).2 = ((fresh.run before).2.step c).2 := by
    rw [run_append]
    rfl
  refine ⟨((fresh.run before).2.step c).1, ?_, ?_, ?_, answer_eq_of_ne_query fresh⟩
  · rw [run_append, List.getElem?_append_right (length_run fresh before).le, length_run,
      Nat.sub_self]
    rfl
  · rw [hbehind]
    exact answered_step _ c
  · rintro input withDump rfl
    exact answer_eq_none_iff

end Session

end Host

end RubyCheck
