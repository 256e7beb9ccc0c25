import RubyCheck.Proofs.Scanner.Append
import RubyCheck.Proofs.Scanner.Run
import RubyCheck.Proofs.Scanner.Stack

/-!
# How faults of tokens are worded

What is said of a fault quotes at most a character that begins no token, a number or the terminator of a
heredoc, and none of them breaks lines.  So whatever the text is, each fault that is found while it is
split into tokens is a lexical one, and worded on one line.
-/

namespace RubyCheck.Scanner

variable {s s' t : Scanner} {r r' : Snapshot} {nested : Scanner → Option Scanner}

/-- Every fault that was found is lexical, and worded on one line. -/
def Worded (r : Snapshot) : Prop := ∀ f ∈ r.faults, f.cause.Lexical

lemma Worded.of_faults (h : Worded r) (hfaults : r'.faults = r.faults) : Worded r' := by
  rw [Worded, hfaults]
  exact h

/-- One more fault was found. -/
lemma Worded.push (h : Worded r) {f : Fault} (hfaults : r'.faults = f :: r.faults)
    (hf : f.cause.Lexical) : Worded r' := by
  rw [Worded, hfaults]
  exact List.forall_mem_cons.mpr ⟨hf, h⟩

lemma lexical_unterminated (flavor : Flavor) : flavor.unterminated.Lexical := by
  cases flavor with
  | _ => exact ⟨rfl, by decide⟩

/-- The terminator of a heredoc is named on one line. -/
lemma lexical_openerFaults {o : HeredocOpener} (ho : s.heredocOpener? = some o) :
    ∀ f ∈ s.openerFaults o, f.cause.Lexical := by
  intro f hf
  have hline : OneLine (String.ofList o.terminator) := by
    rw [OneLine, String.toList_ofList]
    exact (heredocOpener?_spec ho).2.1
  rw [eq_of_mem_openerFaults hf]
  exact ⟨rfl, .append (.append (by decide) hline) (by decide)⟩

lemma Worded.content (h : Worded s.snapshot) (hmove : Content s t) : Worded t.snapshot := by
  obtain ⟨l, l', outer, stop, n, hmodes, hends, rfl⟩ := hmove
  rcases snapshot_emitContent (s := { s with modes := .literal l' :: outer }) n with
    ⟨hsnap, -⟩ | ⟨-, hsnap⟩
  · rw [hsnap]
    exact h
  · rw [hsnap]
    exact h

/-- A move forward finds lexical faults, and words them on one line. -/
theorem Worded.forward (h : Worded s.snapshot)
    (hnested : ∀ o t, s.InCode → s.heredocOpener? = some o → nested (s.bodyScanner o) = some t →
      Worded t.snapshot)
    (hmove : Forward nested s s') : Worded s'.snapshot := by
  cases hmove with
  | blank n code piece core_eq | document n code top word ended core_eq
  | token ms kind n spaced code layers plain pos ahead core_eq spelled
  | endInterpolation spaced mode outer rest modes brace core_eq
  | beginInterpolation l outer modes stop core_eq | endBody l outer modes open_ stop core_eq =>
    rw [snapshot_eq_of_core core_eq]
    exact h.of_faults rfl
  | stray cause n code pos ahead core_eq words =>
    rw [snapshot_eq_of_core core_eq]
    exact h.push rfl words
  | faulty cause k kind n spaced code plain pos ahead core_eq spelled words =>
    rw [snapshot_eq_of_core core_eq]
    exact h.push rfl words
  | jump t resume rest code lineBreak read pending core_eq =>
    rw [snapshot_eq_of_core core_eq]
    rcases read with rfl | rfl
    · exact h.of_faults rfl
    · exact h.of_faults rfl
  | heredoc o spaced body code opener read core_eq =>
    rw [snapshot_eq_of_core core_eq]
    refine List.forall_mem_append.mpr ⟨hnested o body code opener read, ?_⟩
    exact List.forall_mem_append.mpr ⟨lexical_openerFaults opener, h⟩
  | begin o spaced code pos ahead core_eq =>
    rw [snapshot_eq_of_core core_eq, snapshot_beginLiteral]
    exact h.of_faults rfl
  | abandon l outer modes stop core_eq =>
    rw [snapshot_eq_of_core core_eq, snapshot_abandonLiteral]
    exact h.push rfl (lexical_unterminated l.flavor)
  | close l outer modes stop core_eq =>
    rw [snapshot_eq_of_core core_eq, snapshot_closeLiteral]
    exact h.of_faults rfl

/-- Closing the innermost mode at the end of the text finds at most a literal that was left open. -/
lemma Worded.dropMode (h : Worded s.snapshot) (m : Mode) (outer : List Mode) :
    Worded (s.dropMode m outer).snapshot := by
  cases m with
  | code d =>
    rw [snapshot_dropMode_code]
    exact h.of_faults rfl
  | literal l =>
    cases hclose : l.close with
    | none =>
      rw [snapshot_dropMode_body hclose]
      exact h.of_faults rfl
    | some c =>
      rw [snapshot_dropMode_literal (by simp [hclose])]
      exact h.push rfl (lexical_unterminated l.flavor)

theorem worded_kept : Kept Worded where
  content _ h hmove := h.content hmove
  body _ _ _ := by simp [Worded, bodyScanner, ofBody, ofCursor]
  forward _ h hnested hmove := h.forward (fun o t hcode ho ht => (hnested o t hcode ho ht).1) hmove
  close _ _ _ h := h.dropMode _ _

/-- The faults that are found in splitting a text into tokens are lexical, and worded on one line each. -/
theorem worded_of_run {source : List Char} {fuel : ℕ} (h : run fuel (ofText source) = some t) :
    ∀ f ∈ t.faults, f.cause.Lexical := by
  have hstart : Worded (ofText source).snapshot := by simp [Worded, ofText, ofCursor]
  exact (worded_kept.run_safe fuel _ _ h (.outer (sound_ofText hstart))).1.holds

end RubyCheck.Scanner
