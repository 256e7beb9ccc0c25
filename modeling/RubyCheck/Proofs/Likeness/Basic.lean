import Mathlib.Data.List.Forall2
import RubyCheck.Fault
import RubyCheck.Proofs.OneLine
import RubyCheck.Token.Basic
import RubyCheck.Tree.LiteralValue

/-!
# Texts that are alike

Two texts are read alike if their tokens are the same but for the places where they stand.  A `Likeness`
says how the places in one text are related to those in the other: nothing is known of them but that the
order of places is the same in both, and that a place in the second text is some number of lines further
down.  It may also say that no token but a line break is written over several lines, and so no text that
is taken from tokens is.

Tokens, faults, nodes and findings are alike if they are the same but for their places, and if their
texts stand on one line should that be asked for.
-/

/-! ### Lists of related items -/

namespace List.Forall₂

variable {α β : Type*} {R : α → β → Prop} {xs : List α} {ys : List β}

/-- Of two related lists, both are empty or neither is. -/
lemma isEmpty (h : Forall₂ R xs ys) : ys.isEmpty = xs.isEmpty := by
  cases h with
  | nil => rfl
  | cons _ _ => rfl

/-- The first items of related lists are related. -/
lemma head? (h : Forall₂ R xs ys) : Option.Rel R xs.head? ys.head? := by
  cases h with
  | nil => exact .none
  | cons hxy _ => exact .some hxy

/-- The last items of related lists are related. -/
lemma getLast? (h : Forall₂ R xs ys) : Option.Rel R xs.getLast? ys.getLast? := by
  rw [← List.head?_reverse, ← List.head?_reverse]
  exact (List.rel_reverse h).head?

/-- Every item of the one is related to an item of the other. -/
lemma exists_of_mem {x : α} (h : Forall₂ R xs ys) (hx : x ∈ xs) : ∃ y ∈ ys, R x y := by
  induction h with
  | nil => simp at hx
  | cons hxy _ ih =>
    rcases List.mem_cons.mp hx with rfl | hx
    · exact ⟨_, List.mem_cons_self, hxy⟩
    · obtain ⟨y, hy, hxy⟩ := ih hx
      exact ⟨y, List.mem_cons_of_mem _ hy, hxy⟩

/-- Where every item determines the one it is related to. -/
lemma eq_map {g : α → β} (h : Forall₂ (fun x y => y = g x) xs ys) : ys = xs.map g := by
  induction h with
  | nil => rfl
  | cons hxy _ ih => rw [List.map_cons, hxy, ih]

/-- Sorting related items into the same order. -/
lemma mergeSort {before : α → α → Bool} {before' : β → β → Bool} (h : Forall₂ R xs ys)
    (hsame : ∀ x y, R x y → ∀ x' y', R x' y' → before' y y' = before x x') :
    Forall₂ R (xs.mergeSort before) (ys.mergeSort before') := by
  obtain ⟨hlength, hrel⟩ := List.forall₂_iff_zip.mp h
  set pairs := xs.zip ys with hpairs
  have hxs : xs = pairs.map Prod.fst := (List.map_fst_zip (Nat.le_of_eq hlength)).symm
  have hys : ys = pairs.map Prod.snd := (List.map_snd_zip (Nat.le_of_eq hlength.symm)).symm
  have hall : ∀ p ∈ pairs, R p.1 p.2 := fun p hp => hrel hp
  -- Both lists are the halves of the pairs, sorted by their first half.
  set inOrder : α × β → α × β → Bool := fun p q => before p.1 q.1 with hinOrder
  have hfst : xs.mergeSort before = (pairs.mergeSort inOrder).map Prod.fst := by
    rw [hxs]
    exact (List.map_mergeSort (f := Prod.fst) fun _ _ _ _ => rfl).symm
  have hsnd : ys.mergeSort before' = (pairs.mergeSort inOrder).map Prod.snd := by
    rw [hys]
    refine (List.map_mergeSort fun p hp q hq => ?_).symm
    exact (hsame _ _ (hall p hp) _ _ (hall q hq)).symm
  rw [hfst, hsnd, List.forall₂_map_left_iff, List.forall₂_map_right_iff, List.forall₂_same]
  exact fun p hp => hall p (List.mem_mergeSort.mp hp)

end List.Forall₂

namespace RubyCheck

/-! ### Places -/

/-- How the places of one text are related to those of another one that is read alike. -/
structure Likeness where
  /-- The places where a token begins in both. -/
  start : Position → Position → Prop
  /-- The places where a token begins or ends in both. -/
  place : Position → Position → Prop
  /-- How many lines further down the second text stands. -/
  lines : ℕ
  /-- Whether the texts of tokens are asked to stand on one line. -/
  onOneLine : Prop
  place_of_start {p p' : Position} : start p p' → place p p'
  compare_eq_gt {p p' q q' : Position} :
    place p p' → start q q' → (compare p' q' = .gt ↔ compare p q = .gt)
  byte_lt {p p' q q' : Position} : start p p' → place q q' → (p'.byte < q'.byte ↔ p.byte < q.byte)
  line_eq {p p' : Position} : place p p' → p'.line = p.line + lines

namespace Likeness

/-- A text that stands on one line if that is asked for. -/
def Spells (L : Likeness) (text : String) : Prop := L.onOneLine → OneLine text

variable (L : Likeness) {p p' q q' : Position}

/-- The later of two places is the same in both texts. -/
lemma later (hp : L.place p p') (hq : L.start q q') : L.place (p.later q) (p'.later q') := by
  unfold Position.later
  by_cases hlater : compare p q = .gt
  · rw [if_pos hlater, if_pos ((L.compare_eq_gt hp hq).mpr hlater)]
    exact hp
  · rw [if_neg hlater, if_neg fun h => hlater ((L.compare_eq_gt hp hq).mp h)]
    exact L.place_of_start hq

/-- The line that is shown is the same number of lines further down. -/
lemma shownLine_eq (hp : L.place p p') : p'.shownLine = p.shownLine + L.lines := by
  rw [Position.shownLine, Position.shownLine, L.line_eq hp, Nat.add_right_comm]

variable {L}

/-- What is put together of texts on one line is on one line. -/
lemma Spells.append {s t : String} (hs : L.Spells s) (ht : L.Spells t) : L.Spells (s ++ t) :=
  fun h => (hs h).append (ht h)

/-- What stands on one line anyway. -/
lemma Spells.of_oneLine {s : String} (h : OneLine s) : L.Spells s := fun _ => h

/-- What is made of the characters of a text on one line is on one line. -/
lemma Spells.of_subset {s : String} {cs : List Char} (hs : L.Spells s) (h : cs ⊆ s.toList) :
    L.Spells (String.ofList cs) := fun hask => (hs hask).of_subset h

variable (L)

/-- The same text taken from both texts, on one line if that is asked for. -/
structure Text (s s' : String) : Prop where
  eq : s' = s
  spelled : L.Spells s

variable {L}

namespace Text

variable {s s' t t' : String}

/-- A text on one line may be taken from both. -/
lemma of_oneLine (h : OneLine s) : L.Text s s := ⟨rfl, .of_oneLine h⟩

/-- Texts taken from both may be put together. -/
lemma append (hs : L.Text s s') (ht : L.Text t t') : L.Text (s ++ t) (s' ++ t') :=
  ⟨by rw [hs.eq, ht.eq], hs.spelled.append ht.spelled⟩

end Text

end Likeness

/-! ### Spans, tokens and faults -/

variable (L : Likeness)

/-- The same span in both texts. -/
structure Span.Like (s s' : Span) : Prop where
  start : L.start s.start s'.start
  stop : L.place s.stop s'.stop

/-- The same token in both texts, but for whether it is set off. -/
structure Token.Like (t t' : Token) : Prop where
  kind : t'.kind = t.kind
  text : t'.text = t.text
  span : t.span.Like L t'.span
  ambiguous : t'.ambiguous = t.ambiguous
  /-- Line breaks are the only tokens that have to be written over several lines. -/
  spells : t.kind ≠ .newline → L.Spells t.text

/-- The same token in both texts, set off in both or in none. -/
structure Token.Same (t t' : Token) : Prop extends Token.Like L t t' where
  spaced : t'.spaced = t.spaced

/-- The same token in both texts, whose text stands on one line if that is asked for. -/
structure Token.Taken (t t' : Token) : Prop extends Token.Like L t t' where
  spelled : L.Spells t.text

/-- The same fault in both texts. -/
structure Fault.Like (f f' : Fault) : Prop where
  cause : f'.cause = f.cause
  start : L.place f.span.start f'.span.start
  spells : L.Spells f.cause.message

variable {L}

/-- A point at the beginning of a token is the same span in both. -/
lemma Span.like_point {p p' : Position} (h : L.start p p') : (Span.point p).Like L (.point p') :=
  ⟨h, L.place_of_start h⟩

namespace Token.Like

variable {t t' : Token}

/-- Both tokens are the end of the text or neither is. -/
lemma isEof (h : t.Like L t') : t'.isEof = t.isEof := by rw [Token.isEof, Token.isEof, h.kind]

/-- Both are described alike. -/
lemma describe (h : t.Like L t') : t'.describe = t.describe := by
  unfold Token.describe
  rw [h.kind, h.text]

/-- What a message calls a token stands on one line even if the token does not. -/
lemma spells_describe (h : t.Like L t') : L.Spells t.describe := by
  unfold Token.describe
  split
  · exact .of_oneLine t.kind.oneLine_display
  · exact .of_oneLine t.kind.oneLine_display
  · rename_i hkind _
    split
    · exact .of_oneLine t.kind.oneLine_display
    · exact h.spells hkind

end Token.Like

/-- The text of a token that is taken is taken from both. -/
lemma Token.Taken.word {t t' : Token} (h : t.Taken L t') : L.Text t.text t'.text :=
  ⟨h.toLike.text, h.spelled⟩

/-! ### Nodes -/

namespace Node

variable (L)

/-- The same tree in both texts. -/
inductive Like : Node → Node → Prop
  | intro {kind : NodeKind} {span span' : Span} {text : Option String} {children children' : List Node}
      (hspan : span.Like L span') (htext : ∀ x ∈ text, L.Spells x)
      (hchildren : List.Forall₂ Like children children') :
      Like ⟨kind, span, text, children⟩ ⟨kind, span', text, children'⟩

variable {L} {node node' : Node}

namespace Like

section Parts

variable (h : node.Like L node')

include h

/-- Nodes that are alike are of one kind. -/
lemma kind : node'.kind = node.kind := by
  cases h
  rfl

/-- Nodes that are alike have the same span in both texts. -/
lemma span : node.span.Like L node'.span := by
  cases h with
  | intro hspan _ _ => exact hspan

/-- Nodes that are alike have the same text. -/
lemma text : node'.text = node.text := by
  cases h
  rfl

/-- The text of a node is on one line if that is asked for. -/
lemma spells : ∀ x ∈ node.text, L.Spells x := by
  cases h with
  | intro _ htext _ => exact htext

/-- Nodes that are alike have children that are alike. -/
lemma children : List.Forall₂ (Like L) node.children node'.children := by
  cases h with
  | intro _ _ hchildren => exact hchildren

/-- Nodes that are alike have the same name. -/
lemma name : node'.name = node.name := by rw [Node.name, Node.name, h.text]

/-- The name of a node is on one line if that is asked for. -/
lemma spells_name : L.Spells node.name := by
  cases htext : node.text with
  | none => exact .of_oneLine (by rw [Node.name, htext]; decide)
  | some text => simpa [Node.name, htext] using h.spells text htext

/-- Nodes stay alike with another text taken from both. -/
lemma withText {text text' : String} (htext : L.Text text text') :
    (node.withText text).Like L (node'.withText text') := by
  obtain rfl := htext.eq
  cases h with
  | intro hspan _ hchildren =>
    refine .intro hspan (fun x hx => ?_) hchildren
    obtain rfl := Option.mem_some_iff.mp hx
    exact htext.spelled

/-- Nodes stay alike with another kind. -/
lemma withKind {kind : NodeKind} :
    Like L { node with kind := kind } { node' with kind := kind } := by
  cases h with
  | intro hspan htext hchildren => exact .intro hspan htext hchildren

/-- Nodes stay alike with another span that is the same in both texts. -/
lemma withSpan {span span' : Span} (hspan : span.Like L span') :
    Like L { node with span := span } { node' with span := span' } := by
  cases h with
  | intro _ htext hchildren => exact .intro hspan htext hchildren

end Parts

/-- Leaves of one kind and text over the same span are alike. -/
lemma leaf {kind : NodeKind} {span span' : Span} {text text' : String} (hspan : span.Like L span')
    (htext : L.Text text text') : (Node.leaf kind span text).Like L (.leaf kind span' text') :=
  Like.withText (.intro hspan (by simp) .nil : (Node.inner kind span []).Like L (.inner kind span' []))
    htext

end Like

end Node

end RubyCheck
