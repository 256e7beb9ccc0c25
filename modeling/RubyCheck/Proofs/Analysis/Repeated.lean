import Mathlib.Tactic.Common
import RubyCheck.Analysis.Duplicate

/-!
# Repeated values

The values of a `case` are gone through once, with a table of the values seen so far and of the lines
where they were seen.  Behind some literals the table has the line of the first literal of each value
(`Remembered`), so a literal is found to be repeated exactly if an earlier one has its value, and what
is found names the line of the first of these.
-/

namespace RubyCheck.Analysis

/-- The literals that the clauses of a `case` compare with, clause by clause and value by value. -/
def comparedLiterals (choice : Node) : List Node :=
  ((choice.children.filter (·.kind = .when_)).flatMap fun clause =>
    match clause.children with
    | [] => []
    | values :: _ => values.children).filter (·.literal?.isSome)

/-- What is found about a literal behind others: nothing, unless one of them has the same value. -/
def repetition? (before : List Node) (n : Node) : Option Finding :=
  (before.find? fun m => m.literal? = n.literal?).map fun first =>
    ⟨.duplicateValue n.spelling first.span.start.shownLine, n.span.start⟩

/-- A table of values has the line of the first of some literals with each value. -/
def Remembered (before : List Node) (seen : List (LiteralValue × ℕ)) : Prop :=
  ∀ value, seen.lookup value =
    (before.find? fun m => m.literal? = some value).map (·.span.start.shownLine)

variable {before ns : List Node} {seen : List (LiteralValue × ℕ)} {n : Node} {value : LiteralValue}

namespace Remembered

lemma nil : Remembered [] [] := fun _ => rfl

/-- A literal whose value is in the table already changes nothing. -/
lemma skip (h : Remembered before seen) (hvalue : n.literal? = some value)
    (hseen : (seen.lookup value).isSome = true) : Remembered (before ++ [n]) seen := by
  intro other
  rw [h other, List.find?_append]
  by_cases hsame : other = value
  · subst hsame
    rw [h other, Option.isSome_map] at hseen
    obtain ⟨first, hfirst⟩ := Option.isSome_iff_exists.mp hseen
    rw [hfirst, Option.some_or]
  · have hnot : n.literal? ≠ some other := by
      rw [hvalue]
      exact fun heq => hsame (Option.some.inj heq).symm
    rw [List.find?_singleton, if_neg (by simpa using hnot), Option.or_none]

/-- A value that is not in the table is put there, with the line of its literal. -/
lemma add (h : Remembered before seen) (hvalue : n.literal? = some value)
    (hseen : seen.lookup value = none) :
    Remembered (before ++ [n]) ((value, n.span.start.shownLine) :: seen) := by
  intro other
  rw [List.lookup_cons, List.find?_append, List.find?_singleton, hvalue]
  by_cases hsame : other = value
  · subst hsame
    have hnone : (before.find? fun m => m.literal? = some other) = none := by
      rw [h other, Option.map_eq_none_iff] at hseen
      exact hseen
    simp [hnone]
  · have hother : (other == value) = false := beq_eq_false_iff_ne.mpr hsame
    rw [hother, if_neg (by simpa using Ne.symm hsame), Option.or_none]
    exact h other

/-- What is found about a literal is what the table has of its value. -/
lemma repetition? (h : Remembered before seen) (hvalue : n.literal? = some value) :
    repetition? before n = (seen.lookup value).map fun line =>
      ⟨.duplicateValue n.spelling line, n.span.start⟩ := by
  rw [h value, Analysis.repetition?, hvalue, Option.map_map]
  rfl

/-- Each literal is held against those in front of it. -/
lemma repeatedAmong (h : Remembered before seen) (hns : ∀ n ∈ ns, n.literal?.isSome = true) :
    repeatedAmong seen (ns.filterMap fun n => n.literal?.map (·, n)) =
      (ns.zipIdx before.length).filterMap fun p =>
        Analysis.repetition? ((before ++ ns).take p.2) p.1 := by
  induction ns generalizing before seen with
  | nil => rfl
  | cons n ns ih =>
    rw [List.forall_mem_cons] at hns
    obtain ⟨value, hvalue⟩ := Option.isSome_iff_exists.mp hns.1
    have hfront : (before ++ n :: ns).take before.length = before := by simp
    have hlength : (before ++ [n]).length = before.length + 1 := List.length_append
    have hassoc : before ++ [n] ++ ns = before ++ n :: ns := by simp
    rw [List.filterMap_cons, hvalue, Option.map_some, List.zipIdx_cons, List.filterMap_cons]
    dsimp only
    rw [hfront, Analysis.repeatedAmong]
    cases hlookup : seen.lookup value with
    | some line =>
      have hfound : Analysis.repetition? before n =
          some ⟨.duplicateValue n.spelling line, n.span.start⟩ := by
        rw [h.repetition? hvalue, hlookup]
        rfl
      have hrest := ih (h.skip hvalue (by rw [hlookup]; rfl)) hns.2
      rw [hlength, hassoc] at hrest
      rw [hfound, hrest]
    | none =>
      have hfound : Analysis.repetition? before n = none := by
        rw [h.repetition? hvalue, hlookup]
        rfl
      have hrest := ih (h.add hvalue hlookup) hns.2
      rw [hlength, hassoc] at hrest
      rw [hfound, hrest]

end Remembered

/-- The literals of a `case` with what they denote. -/
lemma caseLiterals_eq (choice : Node) :
    caseLiterals choice = (comparedLiterals choice).filterMap fun n => n.literal?.map (·, n) := by
  have hclauses : choice.children.flatMap clauseValues =
      (choice.children.filter (·.kind = .when_)).flatMap fun clause =>
        match clause.children with
        | [] => []
        | values :: _ => values.children := by
    induction choice.children with
    | nil => rfl
    | cons clause clauses ih =>
      rw [List.flatMap_cons, ih, List.filter_cons, clauseValues]
      by_cases hkind : clause.kind = .when_
      · rw [if_pos hkind, if_pos (by simpa using hkind), List.flatMap_cons]
        cases clause.children with
        | nil => rfl
        | cons values body => rfl
      · rw [if_neg hkind, if_neg (by simpa using hkind), List.nil_append]
  have hvalued : (fun n : Node => n.literal?.map (·, n)) =
      fun n => if n.literal?.isSome = true then n.literal?.map (·, n) else none := by
    funext n
    cases n.literal? with
    | none => rfl
    | some value => rfl
  rw [caseLiterals, hclauses, comparedLiterals, List.filterMap_filter, ← hvalued]

/-- Of the literals that the clauses of a `case` compare with, in order, each is found to be repeated
if an earlier one has its value, and no other is.  What is found stands where the literal begins, and
names the line of the first literal with that value. -/
theorem repeatedValues_eq (choice : Node) :
    repeatedValues choice = (comparedLiterals choice).zipIdx.filterMap fun p =>
      repetition? ((comparedLiterals choice).take p.2) p.1 := by
  have hliterals : ∀ n ∈ comparedLiterals choice, n.literal?.isSome = true :=
    fun n hn => (List.mem_filter.mp hn).2
  rw [repeatedValues, caseLiterals_eq]
  exact Remembered.nil.repeatedAmong hliterals

end RubyCheck.Analysis
