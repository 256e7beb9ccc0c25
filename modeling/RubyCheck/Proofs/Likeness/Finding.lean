import RubyCheck.Analysis.Duplicate
import RubyCheck.Analysis.Token
import RubyCheck.Proofs.Likeness.Basic

/-!
# Trees and findings that are alike

What a literal denotes and how a message writes it does not depend on where it stands, and neither does
the shape of a tree.  So like trees are listed alike, and the regions that were given up in them are alike.

Two findings name a line in their wording, and in the other text that line is further down.  Findings are
alike if that is all that differs but for their places, and so are the findings of like trees and tokens
that need no frame: repeated values of a `case` and single tokens.
-/

namespace RubyCheck

variable {L : Likeness}

namespace Node

/-! ### Literals -/

/-- Nodes that are alike have the same literal value. -/
lemma literal?_like (node : Node) {node' : Node} (h : node.Like L node') :
    node'.literal? = node.literal? := by
  obtain ⟨kind, span, text, children⟩ := node
  cases h with
  | intro hspan htext hchildren =>
    cases kind with
    | unary =>
      cases text with
      | none => rfl
      | some text =>
        cases hchildren with
        | nil => rfl
        | @cons operand _ _ _ hoperand _ => rw [literal?, literal?, literal?_like operand hoperand]
    | integer | float | string | character | regex =>
      cases text with
      | none => rfl
      | some text => rfl
    | symbol =>
      cases text with
      | none => rfl
      | some text =>
        cases hchildren with
        | nil => rfl
        | cons _ _ => rfl
    | _ => rfl

/-- A message writes the same literals in the same way. -/
lemma spelling_like (node : Node) {node' : Node} (h : node.Like L node') :
    L.Text node.spelling node'.spelling := by
  obtain ⟨kind, span, text, children⟩ := node
  have hname : L.Spells (text.getD "") := h.spells_name
  have hplain {s : String} (hs : OneLine s) : L.Text s s := .of_oneLine hs
  cases h with
  | intro hspan htext hchildren =>
    have hquoted {before after : String} (hbefore : OneLine before) (hafter : OneLine after) :
        L.Text (before ++ text.getD "" ++ after) (before ++ text.getD "" ++ after) :=
      ⟨rfl, .append (.append (.of_oneLine hbefore) hname) (.of_oneLine hafter)⟩
    cases kind with
    | unary =>
      cases hchildren with
      | nil => exact hplain (show OneLine "-" by decide)
      | @cons operand _ _ _ hoperand _ =>
        exact (hplain (show OneLine "-" by decide)).append (spelling_like operand hoperand)
    | string => exact hquoted (show OneLine "\"" by decide) (show OneLine "\"" by decide)
    | regex => exact hquoted (show OneLine "/" by decide) (show OneLine "/" by decide)
    | symbol => exact ⟨rfl, .append (.of_oneLine (show OneLine ":" by decide)) hname⟩
    | nil_ => exact hplain (show OneLine "nil" by decide)
    | true_ => exact hplain (show OneLine "true" by decide)
    | false_ => exact hplain (show OneLine "false" by decide)
    | _ => exact ⟨rfl, hname⟩

/-! ### Pre-order -/

/-- A node at the same depth in both texts. -/
def Listed (L : Likeness) (p p' : ℕ × Node) : Prop := p'.1 = p.1 ∧ p.2.Like L p'.2

mutual

/-- Trees that are alike have outlines that are alike. -/
lemma outline_like : (depth : ℕ) → (node : Node) → {node' : Node} → node.Like L node' →
    List.Forall₂ (Listed L) (node.outline depth) (node'.outline depth)
  | depth, ⟨_, _, _, children⟩, ⟨_, _, _, _⟩, h => by
    have hrest := outlineEach_like (depth + 1) children h.children
    exact .cons ⟨rfl, h⟩ hrest

/-- Lists of trees that are alike have outlines that are alike. -/
lemma outlineEach_like : (depth : ℕ) → (nodes : List Node) → {nodes' : List Node} →
    List.Forall₂ (Like L) nodes nodes' →
    List.Forall₂ (Listed L) (outlineEach depth nodes) (outlineEach depth nodes')
  | _, [], _, .nil => .nil
  | depth, node :: nodes, _, .cons h hrest =>
    List.rel_append (outline_like depth node h) (outlineEach_like depth nodes hrest)

end

end Node

/-! ### Whole trees -/

namespace SyntaxTree

variable (L)

/-- The same tree in both texts, with the same faults. -/
structure Like (t t' : SyntaxTree) : Prop where
  root : t.root.Like L t'.root
  faults : List.Forall₂ (Fault.Like L) t.faults t'.faults

variable {L}

/-- The same regions were given up. -/
lemma Like.errorSpans {t t' : SyntaxTree} (h : t.Like L t') :
    List.Forall₂ (Span.Like L) t.errorSpans t'.errorSpans := by
  have hlisting : List.Forall₂ (Node.Listed L) t.root.listing t'.root.listing := by
    rw [Node.listing_eq, Node.listing_eq]
    exact Node.outline_like 0 t.root h.root
  refine List.rel_map (fun _ _ hp => hp.2.span) (List.rel_filter (fun p p' hp => ?_) hlisting)
  simp only [hp.2.kind]

end SyntaxTree

/-! ### Findings -/

namespace Finding

/-- What is found in a text with `n` empty lines in front of it. -/
def Cause.lower (n : ℕ) : Cause → Cause
  | duplicateValue spelling firstLine => duplicateValue spelling (firstLine + n)
  | shadowedVariable name outerLine => shadowedVariable name (outerLine + n)
  | cause => cause

variable (L)

/-- The same finding in both texts. -/
structure Like (f f' : Finding) : Prop where
  cause : f'.cause = f.cause.lower L.lines
  position : L.start f.position f'.position
  spells : L.Spells f.cause.message

end Finding

/-- Looking a value up that was seen before, on some line. -/
lemma lookup_map_line {α : Type} [BEq α] (n : ℕ) (a : α) (ps : List (α × ℕ)) :
    (ps.map (Prod.map id (· + n))).lookup a = (ps.lookup a).map (· + n) := by
  induction ps with
  | nil => rfl
  | cons p ps ih =>
    obtain ⟨b, x⟩ := p
    rw [List.map_cons, Prod.map_apply, id, List.lookup_cons, List.lookup_cons, ih]
    cases a == b with
    | true => rfl
    | false => rfl

/-! ### Wordings -/

namespace Finding.Cause

variable {spelling name text : String}

/-- The message about a repeated value is on one line if the value is. -/
lemma spells_duplicateValue (h : L.Spells spelling) (line : ℕ) :
    L.Spells (duplicateValue spelling line).message :=
  .append (.append (.append (.append (.of_oneLine (by decide)) h) (.of_oneLine (by decide)))
    (.of_oneLine (oneLine_toString line))) (.of_oneLine (by decide))

/-- The message about an unused variable is on one line if the name is. -/
lemma spells_unusedVariable (h : L.Spells name) : L.Spells (unusedVariable name).message :=
  .append (.append (.of_oneLine (by decide)) h) (.of_oneLine (by decide))

/-- The message about a variable in void context is on one line if the name is. -/
lemma spells_voidValue (h : L.Spells name) : L.Spells (voidValue name).message :=
  .append (.append (.of_oneLine (by decide)) h) (.of_oneLine (by decide))

/-- The message about a hidden variable is on one line if the name is. -/
lemma spells_shadowedVariable (h : L.Spells name) (line : ℕ) :
    L.Spells (shadowedVariable name line).message :=
  .append (.append (.append (.append (.of_oneLine (by decide)) h) (.of_oneLine (by decide)))
    (.of_oneLine (oneLine_toString line))) (.of_oneLine (by decide))

/-- The message about an octal number is on one line if the number is. -/
lemma spells_legacyOctal (h : L.Spells text) : L.Spells (legacyOctal text).message := by
  have hdigits : L.Spells (octalDigits text) := by
    unfold octalDigits
    split
    · exact .of_oneLine (by decide)
    · exact h.of_subset (List.dropWhile_subset _)
  exact .append (.append (.append (.of_oneLine (by decide)) h) (.of_oneLine (by decide)))
    (.append (.append (.of_oneLine (by decide)) hdigits) (.of_oneLine (by decide)))

end Finding.Cause

namespace Analysis

/-! ### Repeated values -/

/-- Clauses that are alike have values that are alike. -/
lemma clauseValues_like {clause clause' : Node} (h : clause.Like L clause') :
    List.Forall₂ (Node.Like L) (clauseValues clause) (clauseValues clause') := by
  have hhead := h.children.head?
  unfold clauseValues
  rw [h.kind]
  split
  · generalize clause.children.head? = x at hhead ⊢
    generalize clause'.children.head? = x' at hhead ⊢
    cases hhead with
    | none => exact .nil
    | some hvalues => exact hvalues.children
  · exact .nil

/-- A literal with the same value in both texts. -/
def SameLiteral (L : Likeness) (p p' : LiteralValue × Node) : Prop := p'.1 = p.1 ∧ p.2.Like L p'.2

/-- Choices that are alike have the same literals. -/
lemma caseLiterals_like {choice choice' : Node} (h : choice.Like L choice') :
    List.Forall₂ (SameLiteral L) (caseLiterals choice) (caseLiterals choice') := by
  refine List.rel_filterMap (fun v v' hv => ?_) (List.rel_flatMap h.children fun _ _ => clauseValues_like)
  rw [Node.literal?_like v hv]
  cases v.literal? with
  | none => exact .none
  | some value => exact .some ⟨rfl, hv⟩

/-- Of the literals seen before only the lines are further down. -/
lemma repeatedAmong_like (seen : List (LiteralValue × ℕ)) {ps ps' : List (LiteralValue × Node)}
    (h : List.Forall₂ (SameLiteral L) ps ps') :
    List.Forall₂ (Finding.Like L) (repeatedAmong seen ps)
      (repeatedAmong (seen.map (Prod.map id (· + L.lines))) ps') := by
  induction h generalizing seen with
  | nil => exact .nil
  | @cons p p' ps ps' hp _ ih =>
    obtain ⟨value, v⟩ := p
    obtain ⟨value', v'⟩ := p'
    obtain ⟨hvalue, hv⟩ := hp
    obtain rfl : value' = value := hvalue
    have hspelling := Node.spelling_like v hv
    rw [repeatedAmong, repeatedAmong, lookup_map_line]
    cases seen.lookup value' with
    | none =>
      have hseen := ih ((value', v.span.start.shownLine) :: seen)
      rw [List.map_cons, Prod.map_apply, id,
        ← L.shownLine_eq (L.place_of_start hv.span.start)] at hseen
      exact hseen
    | some firstLine =>
      refine .cons ⟨?_, hv.span.start, ?_⟩ (ih seen)
      · rw [hspelling.eq]
        rfl
      · exact Finding.Cause.spells_duplicateValue hspelling.spelled firstLine

/-- In choices that are alike the same values are repeated. -/
lemma repeatedValues_like {choice choice' : Node} (h : choice.Like L choice') :
    List.Forall₂ (Finding.Like L) (repeatedValues choice) (repeatedValues choice') :=
  repeatedAmong_like [] (caseLiterals_like h)

/-! ### Single tokens -/

/-- Single tokens that are alike show the same finding or none. -/
lemma tokenFinding?_like {t t' : Token} (h : t.Like L t') :
    Option.Rel (Finding.Like L) (tokenFinding? t) (tokenFinding? t') := by
  unfold tokenFinding?
  rw [h.kind]
  split
  · rw [h.ambiguous]
    split
    · have hmessage : OneLine Finding.Cause.ambiguousRegex.message := by decide
      exact .some ⟨rfl, h.span.start, .of_oneLine hmessage⟩
    · exact .none
  · rename_i hkind
    refine .some ⟨by rw [h.text]; rfl, h.span.start, ?_⟩
    exact Finding.Cause.spells_legacyOctal (h.spells (by rw [hkind]; decide))
  · exact .none

/-- Whether a token begins in a region can be told from the order of places. -/
lemma contains_eq {s s' : Span} (hs : s.Like L s') {p p' : Position} (hp : L.start p p') :
    s'.contains p'.byte = s.contains p.byte := by
  have hstart := L.byte_lt hp (L.place_of_start hs.start)
  have hstop := L.byte_lt hp hs.stop
  rw [Span.contains, Span.contains, Bool.eq_iff_iff]
  simp only [Bool.and_eq_true, decide_eq_true_eq, ← Nat.not_lt, hstart, hstop]

/-- Tokens that are alike show the same findings, outside regions given up that are alike. -/
lemma tokenFindings_like {given given' : List Span} (hgiven : List.Forall₂ (Span.Like L) given given')
    {ts ts' : List Token} (hts : List.Forall₂ (Token.Like L) ts ts') :
    List.Forall₂ (Finding.Like L) (tokenFindings given ts) (tokenFindings given' ts') := by
  refine List.rel_filterMap (R := Token.Like L) (fun _ _ ht => tokenFinding?_like ht) ?_
  refine List.rel_filter (fun t t' ht => ?_) hts
  have hany : given'.any (·.contains t'.span.start.byte) = given.any (·.contains t.span.start.byte) := by
    induction hgiven with
    | nil => rfl
    | cons hs _ ih => rw [List.any_cons, List.any_cons, contains_eq hs ht.span.start, ih]
  simp only [hany]

end Analysis

end RubyCheck
