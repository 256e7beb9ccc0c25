import RubyCheck.Proofs.Likeness.Reading
import RubyCheck.Proofs.Scanner.Behind

/-!
# Reports behind empty lines

With empty lines in front of a text its report is the same, only that every line is further down
(`check_replicate`): the text is read alike further down, and the order of a report does not change when
all its lines do.
-/

namespace RubyCheck

variable (n : ℕ)

/-- The places of a text are further down behind empty lines. -/
def Likeness.lower : Likeness where
  start p p' := p' = p.lower n
  place p p' := p' = p.lower n
  lines := n
  onOneLine := False
  place_of_start h := h
  compare_eq_gt := by
    rintro p _ q _ rfl rfl
    rw [Position.compare_lower]
  byte_lt := by
    rintro p _ q _ rfl rfl
    exact Nat.add_lt_add_iff_right
  line_eq := by
    rintro p _ rfl
    rfl

/-- The finding in a text with `n` empty lines in front of it. -/
def Finding.lower (f : Finding) : Finding := ⟨f.cause.lower n, f.position.lower n⟩

/-! ### Diagnostics -/

namespace Diagnostic

/-- The diagnostic, shown on a line further down. -/
def lower (d : Diagnostic) : Diagnostic := { d with line := d.line + n }

/-- Wherever the lines are, diagnostics are in the same order. -/
lemma before_lower (d e : Diagnostic) : (d.lower n).before (e.lower n) = d.before e := by
  have hless : decide (d.line + n < e.line + n) = decide (d.line < e.line) := by simp
  have heq : (d.line + n == e.line + n) = (d.line == e.line) := by simp [beq_eq_decide]
  change (decide (d.line + n < e.line + n) || (d.line + n == e.line + n && _)) = _
  rw [hless, heq]
  rfl

lemma ofFault_lower {f f' : Fault} (h : f.Like (Likeness.lower n) f') :
    ofFault f' = (ofFault f).lower n := by
  have hstart : f'.span.start = f.span.start.lower n := h.start
  rw [ofFault, at_, h.kind, h.cause, hstart, Position.shownLine_lower, Position.shownColumn_lower]
  rfl

/-- A finding is shown further down, and so is the line that its wording names. -/
lemma ofFinding_lower (f : Finding) :
    ofFinding (f.lower n) =
      { (ofFinding f).lower n with message := (f.cause.lower n).message } := by
  obtain ⟨cause, position⟩ := f
  rw [ofFinding, at_, Finding.lower, Position.shownLine_lower, Position.shownColumn_lower]
  cases cause with
  | _ => rfl

lemma before_ofFinding_lower (f g : Finding) :
    (ofFinding (f.lower n)).before (ofFinding (g.lower n)) = (ofFinding f).before (ofFinding g) := by
  rw [ofFinding_lower, ofFinding_lower]
  exact before_lower n _ _

end Diagnostic

/-! ### Readings -/

namespace Likeness

/-- Behind empty lines the tokens of a text are the same but for their places, and the first one is set
off. -/
lemma lower_ofText (source : List Char) :
    (TokenStream.ofText source).Like (lower n) (.ofText (List.replicate n '\n' ++ source)) := by
  obtain ⟨f, hf, htokens, hfaults⟩ := TokenStream.ofText_replicate n source
  have hspan (s : Span) : s.Like (lower n) (s.lower n) := ⟨rfl, rfl⟩
  have hspells (text : String) : (lower n).Spells text := False.elim
  have htoken (t : Token) : t.Same (lower n) (t.lower n) :=
    ⟨⟨rfl, rfl, hspan t.span, rfl, fun _ => hspells _⟩, rfl⟩
  have htokens' (ts : List Token) : List.Forall₂ (Token.Same (lower n)) ts (ts.map (Token.lower n)) :=
    List.forall₂_map_right_iff.mpr (List.forall₂_same.mpr fun t _ => htoken t)
  have hspace (t : Token) : t.Like (lower n) (t.space.lower n) :=
    ⟨rfl, rfl, hspan t.span, rfl, fun _ => hspells _⟩
  have hplain (ts : List Token) : List.Forall₂ (Token.Like (lower n)) ts (ts.map (Token.lower n)) :=
    (htokens' ts).imp fun _ _ ht => ht.toLike
  refine ⟨?_, ?_, ?_⟩
  · rw [htokens]
    rcases hf with rfl | rfl
    · rw [List.modifyHead_id]
      exact hplain _
    · cases (TokenStream.ofText source).tokens with
      | nil => exact .nil
      | cons t ts => exact .cons (hspace t) (hplain ts)
  · rw [htokens]
    cases (TokenStream.ofText source).tokens with
    | nil => exact .nil
    | cons t ts => exact htokens' ts
  · rw [hfaults]
    refine List.forall₂_map_right_iff.mpr (List.forall₂_same.mpr fun f _ => ?_)
    exact ⟨rfl, rfl, hspells _⟩

end Likeness

namespace Reading

/-- Behind empty lines the same faults are shown, further down. -/
lemma shown_faults_replicate (limits : Limits) (source : List Char) :
    (ofText limits (List.replicate n '\n' ++ source)).tree.faults.map .ofFault =
      ((ofText limits source).tree.faults.map .ofFault).map (Diagnostic.lower n) := by
  have hlike : (ofText limits source).Like (.lower n)
      (ofText limits (List.replicate n '\n' ++ source)) :=
    like_ofText (Likeness.lower_ofText n source)
  apply List.Forall₂.eq_map
  refine List.rel_map (R := Fault.Like (Likeness.lower n)) (fun f f' h => ?_) hlike.tree.faults
  exact Diagnostic.ofFault_lower n h

/-- Behind empty lines the same is found in a text, further down. -/
lemma findings_replicate (limits : Limits) (source : List Char) :
    (ofText limits (List.replicate n '\n' ++ source)).findings =
      (ofText limits source).findings.map (Finding.lower n) := by
  apply List.Forall₂.eq_map
  refine (like_ofText (Likeness.lower_ofText n source)).findings.imp fun f f' h => ?_
  obtain ⟨cause, position⟩ := f'
  obtain rfl : cause = f.cause.lower n := h.cause
  obtain rfl : position = f.position.lower n := h.position
  rfl

/-- With `n` empty lines in front of a text, the same errors and warnings are reported in the same
order, each of the same kind, with the same wording and in the same column, and `n` lines further
down; and so is the line that a warning names in its wording. -/
theorem check_replicate (source : List Char) (withDump : Bool) :
    (check (List.replicate n '\n' ++ source) withDump).errors =
        ((check source withDump).errors.map fun d => { d with line := d.line + n }) ∧
      ∃ warnings : List Finding, warnings.Perm (ofText .standard source).findings ∧
        (check source withDump).warnings = warnings.map .ofFinding ∧
        (check (List.replicate n '\n' ++ source) withDump).warnings = warnings.map fun f =>
          { Diagnostic.ofFinding f with
            message := (f.cause.lower n).message
            line := f.position.shownLine + n } := by
  set reading := ofText .standard source
  constructor
  · change Report.sorted ((ofText .standard (List.replicate n '\n' ++ source)).tree.faults.map .ofFault) =
      (Report.sorted (reading.tree.faults.map .ofFault)).map (Diagnostic.lower n)
    rw [shown_faults_replicate, Report.sorted, Report.sorted]
    exact (List.map_mergeSort fun d _ e _ => (Diagnostic.before_lower n d e).symm).symm
  · -- Findings are put in order before they are shown.
    set inOrder : Finding → Finding → Bool := fun f g =>
      (Diagnostic.ofFinding f).before (.ofFinding g) with hinOrder
    have hsorted (fs : List Finding) :
        Report.sorted (fs.map .ofFinding) = (fs.mergeSort inOrder).map .ofFinding :=
      (List.map_mergeSort (f := Diagnostic.ofFinding) fun _ _ _ _ => rfl).symm
    have hlower (fs : List Finding) :
        (fs.map (Finding.lower n)).mergeSort inOrder = (fs.mergeSort inOrder).map (Finding.lower n) :=
      (List.map_mergeSort (r := inOrder) (s := inOrder) fun f _ g _ =>
        (Diagnostic.before_ofFinding_lower n f g).symm).symm
    refine ⟨reading.findings.mergeSort inOrder, List.mergeSort_perm _ _, hsorted _, ?_⟩
    change Report.sorted ((ofText .standard (List.replicate n '\n' ++ source)).findings.map
      .ofFinding) = _
    rw [findings_replicate, hsorted, hlower, List.map_map]
    exact congrArg (List.map · _) (funext (Diagnostic.ofFinding_lower n))

end Reading

end RubyCheck
