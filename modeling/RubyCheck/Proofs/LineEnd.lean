import RubyCheck.Proofs.Likeness.Reading
import RubyCheck.Proofs.Scanner.Returned

/-!
# Reports of texts whose lines end differently

A text without literals and continued lines has the same report if its lines end with a carriage return
and a line break (`check_returned`): the same kinds and wordings on the same lines.  A line that is
continued by a backslash in front of the line break is not, as a carriage return comes between the two
(`not_check_returned`).
-/

namespace RubyCheck

open Scanner

variable {source : List Char}

/-! ### Tokens -/

/-- Runs that end alike give like tokens. -/
lemma TokenStream.like_ofScanner {s t : Scanner} (h : Level source s t)
    (hhead : s.cursor.rest.head? ≠ some '\n') :
    (TokenStream.ofScanner s).Like (.returned source) (.ofScanner t) := by
  have hend : (TokenStream.endToken s.cursor.position).Same (.returned source)
      (TokenStream.endToken t.cursor.position) :=
    ⟨⟨rfl, rfl, Span.like_point (h.cursor.start hhead), rfl, fun _ => False.elim⟩, rfl⟩
  have htokens : List.Forall₂ (Token.Same (.returned source)) (TokenStream.ofScanner s).tokens
      (TokenStream.ofScanner t).tokens := by
    rw [TokenStream.tokens_ofScanner, TokenStream.tokens_ofScanner]
    exact List.rel_append (List.rel_reverse h.tokens) (.cons hend .nil)
  refine ⟨htokens.imp fun _ _ hsame => hsame.toLike, ?_, List.rel_reverse h.faults⟩
  rw [← List.drop_one, ← List.drop_one]
  exact List.forall₂_drop 1 htokens

/-- The tokens of a text do not depend on how its lines end. -/
theorem TokenStream.like_returned (hsource : Steady source) :
    (TokenStream.ofText source).Like (.returned source) (.ofText (returned source)) := by
  obtain ⟨s, hs, hstream⟩ := TokenStream.exists_run source
  obtain ⟨t, ht, hstream'⟩ := TokenStream.exists_run (returned source)
  obtain ⟨fuel, u, hu, hlevel, hhead⟩ :=
    run_returned hsource (hs _ le_rfl) (.inl (level_ofText source))
  -- Both runs on the other text come to the same end.
  obtain rfl : u = t := by
    have hlong := run_mono (le_max_left fuel (stepsFor (returned source).length)) hu
    rw [ht _ (le_max_right _ _)] at hlong
    exact (Option.some.inj hlong).symm
  rw [hstream, hstream']
  exact TokenStream.like_ofScanner hlevel hhead

/-! ### Reports -/

/-- What a diagnostic shows but for its column. -/
def Diagnostic.withoutColumn (d : Diagnostic) : DiagnosticKind × ℕ × String :=
  (d.kind, d.line, d.message)

namespace Reading

variable {limits : Limits}

lemma withoutColumn_ofFault {f f' : Fault} (h : f.Like (.returned source) f') :
    (Diagnostic.ofFault f').withoutColumn = (Diagnostic.ofFault f).withoutColumn := by
  have hline := (Likeness.returned source).shownLine_eq h.start
  simp only [Diagnostic.withoutColumn, Diagnostic.ofFault, Diagnostic.at_, h.kind, h.cause, hline]
  rfl

lemma withoutColumn_ofFinding {f f' : Finding} (h : f.Like (.returned source) f') :
    (Diagnostic.ofFinding f').withoutColumn = (Diagnostic.ofFinding f).withoutColumn := by
  have hline := (Likeness.returned source).shownLine_eq
    ((Likeness.returned source).place_of_start h.position)
  obtain ⟨cause, position⟩ := f
  have hcause : f'.cause = cause := by
    rw [h.cause]
    cases cause with
    | _ => rfl
  simp only [Diagnostic.withoutColumn, Diagnostic.ofFinding, Diagnostic.at_, DiagnosticKind.ofFinding,
    hcause, hline]
  rfl

/-- What is related is shown alike, and so what is sorted of it is the same but for the order. -/
lemma perm_shown {α : Type} {R : α → α → Prop} {shown : α → Diagnostic} {xs ys : List α}
    (h : List.Forall₂ R xs ys)
    (hshown : ∀ x y, R x y → (shown y).withoutColumn = (shown x).withoutColumn) :
    (((ys.map shown).mergeSort Diagnostic.before).map Diagnostic.withoutColumn).Perm
      (((xs.map shown).mergeSort Diagnostic.before).map Diagnostic.withoutColumn) := by
  have hsame : (ys.map shown).map Diagnostic.withoutColumn =
      (xs.map shown).map Diagnostic.withoutColumn := by
    induction h with
    | nil => rfl
    | cons hxy _ ih => simp only [List.map_cons, hshown _ _ hxy, ih]
  refine ((List.mergeSort_perm _ _).map _).trans ?_
  rw [hsame]
  exact ((List.mergeSort_perm _ _).map _).symm

/-- In a text without literals and continued lines the same is reported on the same lines, whichever way
its lines end. -/
theorem check_returned (source : List Char) (hbare : Bare source) (hreturn : '\r' ∉ source)
    (hcontinued : ¬ ['\\', '\n'] <:+: source) (withDump : Bool) :
    ((check (returned source) withDump).errors.map Diagnostic.withoutColumn).Perm
        ((check source withDump).errors.map Diagnostic.withoutColumn) ∧
      ((check (returned source) withDump).warnings.map Diagnostic.withoutColumn).Perm
        ((check source withDump).warnings.map Diagnostic.withoutColumn) := by
  have hlike : (ofText .standard source).Like (.returned source)
      (ofText .standard (returned source)) :=
    like_ofText (TokenStream.like_returned ⟨hbare, hreturn, hcontinued⟩)
  exact ⟨perm_shown hlike.tree.faults fun _ _ => withoutColumn_ofFault,
    perm_shown hlike.findings fun _ _ => withoutColumn_ofFinding⟩

/-- A method with an unused variable that an octal number is assigned to, and an `end` too many. -/
theorem check_returned_method :
    Bare "def f\n  x = 010\nend\nend\n".toList ∧ '\r' ∉ "def f\n  x = 010\nend\nend\n".toList ∧
      ¬ ['\\', '\n'] <:+: "def f\n  x = 010\nend\nend\n".toList ∧
      ((check (returned "def f\n  x = 010\nend\nend\n".toList) false).errors.map
          Diagnostic.withoutColumn).Perm
        ((check "def f\n  x = 010\nend\nend\n".toList false).errors.map Diagnostic.withoutColumn) ∧
      ((check (returned "def f\n  x = 010\nend\nend\n".toList) false).warnings.map
          Diagnostic.withoutColumn).Perm
        ((check "def f\n  x = 010\nend\nend\n".toList false).warnings.map
          Diagnostic.withoutColumn) := by
  have hbare : Bare "def f\n  x = 010\nend\nend\n".toList := by decide +kernel
  have hreturn : '\r' ∉ "def f\n  x = 010\nend\nend\n".toList := by decide +kernel
  have hcontinued : ¬ ['\\', '\n'] <:+: "def f\n  x = 010\nend\nend\n".toList := by decide +kernel
  exact ⟨hbare, hreturn, hcontinued, check_returned _ hbare hreturn hcontinued false⟩

/-- A continued line is no longer continued if a carriage return stands in front of the line break, and
the backslash is at fault. -/
theorem not_check_returned :
    Bare "p 1 + \\\n2\n".toList ∧ '\r' ∉ "p 1 + \\\n2\n".toList ∧
      ¬ ((check (returned "p 1 + \\\n2\n".toList) false).errors.map Diagnostic.withoutColumn).Perm
        ((check "p 1 + \\\n2\n".toList false).errors.map Diagnostic.withoutColumn) := by
  refine ⟨by decide +kernel, by decide +kernel, fun hperm => ?_⟩
  have hnone : (check "p 1 + \\\n2\n".toList false).errors = [] := by decide +kernel
  have hsome : (check (returned "p 1 + \\\n2\n".toList) false).errors ≠ [] := by decide +kernel
  rw [hnone, List.map_nil, List.perm_nil, List.map_eq_nil_iff] at hperm
  exact hsome hperm

end Reading

end RubyCheck
