import RubyCheck.Check
import RubyCheck.Proofs.Analysis.Event
import RubyCheck.Proofs.Grammar.Likewise
import RubyCheck.Proofs.Likeness.Scope
import RubyCheck.Proofs.Limits
import RubyCheck.Proofs.TokenStream

/-!
# Texts that are read alike

Like trees have like events (`events_like`), and each of them does the same to like frames and finds the
same (`State.Like.step`).  So if the tokens of two texts are alike, and their faults, then so are their
trees and whatever is found in them (`Reading.like_ofText`): every layer behind the tokens keeps what it does
wherever tokens stand.
-/

namespace RubyCheck.Analysis

variable (L : Likeness)

/-- The same happens in both texts. -/
inductive Event.Like : Event → Event → Prop
  | enter (kind : FrameKind) : Like (.enter kind) (.enter kind)
  | leave : Like .leave .leave
  | use (name : String) : Like (.use name) (.use name)
  | useForUpdate (name : String) : Like (.useForUpdate name) (.useForUpdate name)
  | write {name : String} (hname : L.Spells name) {p p' : Position} (hp : L.start p p') :
      Like (.write name p) (.write name p')
  | parameter {name : String} (hname : L.Spells name) {p p' : Position} (hp : L.start p p')
      (inBlock : Bool) : Like (.parameter name p inBlock) (.parameter name p' inBlock)
  | blockLocal {name : String} (hname : L.Spells name) {p p' : Position} (hp : L.start p p') :
      Like (.blockLocal name p) (.blockLocal name p')
  | exitHook {p p' : Position} (hp : L.start p p') : Like (.exitHook p) (.exitHook p')
  | found {f f' : Finding} (hf : f.Like L f') : Like (.found f) (.found f')

/-- The same frames and findings in both texts. -/
structure State.Like (s s' : State) : Prop where
  scopes : s.scopes.Like L s'.scopes
  found : List.Forall₂ (Finding.Like L) s.found s'.found

/-- The same events in both texts. -/
abbrev SameEvents : List Event → List Event → Prop := List.Forall₂ (Event.Like L)

variable {L}

/-! ### Events -/

section Events

variable {node node' : Node} {nodes nodes' : List Node} {rest rest' : List Event}

/-- A statement in void context shows the same event in both texts. -/
lemma voidStatement_like (h : node.Like L node') :
    SameEvents L (voidStatement node) (voidStatement node') := by
  unfold voidStatement
  rw [h.kind]
  split
  · refine .cons (.found ⟨?_, h.span.start, Finding.Cause.spells_voidValue h.spells_name⟩) .nil
    rw [h.name]
    rfl
  · exact .nil

/-- A variable that is updated shows the same events in both texts. -/
lemma updatedVariable_like (h : List.Forall₂ (Node.Like L) nodes nodes') :
    SameEvents L (updatedVariable nodes) (updatedVariable nodes') := by
  cases h with
  | nil => exact .nil
  | cons htarget _ =>
    rw [updatedVariable, updatedVariable, htarget.kind, htarget.name]
    split
    · exact .cons (.useForUpdate _) .nil
    · exact .nil

/-- A parameter with its name shows the same event in both texts. -/
lemma namedParameter_like {name : String} (hname : L.Spells name) {p p' : Position}
    (hp : L.start p p') (inBlock : Bool) :
    SameEvents L (namedParameter name p inBlock) (namedParameter name p' inBlock) := by
  unfold namedParameter
  split
  · exact .nil
  · exact .cons (.parameter hname hp inBlock) .nil

/-- Repeated values show the same events in both texts. -/
lemma found_repeatedValues_like (h : node.Like L node') :
    SameEvents L ((repeatedValues node).map .found) ((repeatedValues node').map .found) :=
  List.rel_map (R := Finding.Like L) (fun _ _ hf => .found hf) (repeatedValues_like h)

end Events

mutual

/-- Like trees have like events. -/
lemma events_like : (role : Role) → (node : Node) → {node' : Node} → node.Like L node' →
    {rest rest' : List Event} → SameEvents L rest rest' →
    SameEvents L (events role node rest) (events role node' rest')
  | role, ⟨kind, span, text, children⟩, ⟨kind', span', text', children'⟩, h, rest, rest', hrest => by
    obtain rfl : kind' = kind := h.kind
    obtain rfl : text' = text := h.text
    have hchildren : List.Forall₂ (Node.Like L) children children' := h.children
    have heach (role : Role) {rest rest' : List Event} (hrest : SameEvents L rest rest') :=
      eventsOfEach_like role children hchildren hrest
    have hname : L.Spells (text'.getD "") := h.spells_name
    have hscope (kind : FrameKind) : SameEvents L
        (.enter kind :: eventsOfEach .plain children (.leave :: rest))
        (.enter kind :: eventsOfEach .plain children' (.leave :: rest')) :=
      .cons (.enter kind) (heach .plain (.cons .leave hrest))
    unfold events
    split
    case h_2 =>
      exact heach .plain (List.rel_append (namedParameter_like hname h.span.start _) hrest)
    case h_3 => exact .cons (.blockLocal hname h.span.start) hrest
    case h_4 => exact hrest
    case h_5 => exact eventsOfStatements_like children hchildren hrest
    case h_6 => exact .cons (.use _) hrest
    case h_7 => exact .cons (.write hname h.span.start) hrest
    case h_8 => exact List.rel_append (updatedVariable_like hchildren) (heach .plain hrest)
    case h_9 => exact List.rel_append (found_repeatedValues_like h) (heach .plain hrest)
    case h_10 | h_11 | h_14 | h_15 | h_16 => exact hscope _
    case h_12 | h_13 => exact eventsOfClass_like children hchildren hrest
    case h_17 => exact .cons (.exitHook h.span.start) (hscope _)
    all_goals exact heach _ hrest
termination_by structural _ node => node

/-- Trees that are alike show the same events. -/
lemma eventsOfEach_like : (role : Role) → (nodes : List Node) → {nodes' : List Node} →
    List.Forall₂ (Node.Like L) nodes nodes' → {rest rest' : List Event} → SameEvents L rest rest' →
    SameEvents L (eventsOfEach role nodes rest) (eventsOfEach role nodes' rest')
  | _, [], _, .nil, _, _, hrest => hrest
  | role, node :: nodes, _, .cons h hnodes, _, _, hrest =>
    events_like role node h (eventsOfEach_like role nodes hnodes hrest)
termination_by structural _ nodes => nodes

/-- Statements that are alike show the same events. -/
lemma eventsOfStatements_like : (nodes : List Node) → {nodes' : List Node} →
    List.Forall₂ (Node.Like L) nodes nodes' → {rest rest' : List Event} → SameEvents L rest rest' →
    SameEvents L (eventsOfStatements nodes rest) (eventsOfStatements nodes' rest')
  | [], _, .nil, _, _, hrest => hrest
  | [node], _, .cons h .nil, _, _, hrest => events_like .plain node h hrest
  | node :: next :: nodes, _, .cons h (.cons hnext hnodes), _, _, hrest =>
    List.rel_append (voidStatement_like h)
      (events_like .plain node h (eventsOfStatements_like (next :: nodes) (.cons hnext hnodes) hrest))
termination_by structural nodes => nodes

/-- Classes that are alike show the same events. -/
lemma eventsOfClass_like : (nodes : List Node) → {nodes' : List Node} →
    List.Forall₂ (Node.Like L) nodes nodes' → {rest rest' : List Event} → SameEvents L rest rest' →
    SameEvents L (eventsOfClass nodes rest) (eventsOfClass nodes' rest')
  | [], _, .nil, _, _, hrest => .cons (.enter _) (.cons .leave hrest)
  | node :: nodes, _, .cons h hnodes, _, _, hrest => by
    have hbody := eventsOfEach_like .plain nodes hnodes (.cons .leave hrest)
    rw [eventsOfClass, eventsOfClass, h.kind]
    split
    · exact .cons (.enter _) (events_like .plain node h hbody)
    · exact events_like .plain node h (.cons (.enter _) hbody)
termination_by structural nodes => nodes

end

/-- Programs that are alike show the same events. -/
lemma eventsOfProgram_like {t t' : SyntaxTree} (h : t.Like L t') :
    SameEvents L (eventsOfProgram t) (eventsOfProgram t') :=
  eventsOfStatements_like _ h.root.children .nil

/-! ### What happens to the frames -/

namespace State.Like

/-- At the beginning the walks are alike. -/
lemma initial : State.initial.Like L .initial := ⟨.initial, .nil⟩

variable {s s' : State} (h : s.Like L s')

include h

/-- Walks stay alike when the same is found in both. -/
lemma find {f f' : Finding} (hf : f.Like L f') : (s.find f).Like L (s'.find f') :=
  { h with found := .cons hf h.found }

/-- Walks stay alike when both leave a frame. -/
lemma leave : s.leave.Like L s'.leave := by
  have hpop := h.scopes.pop?
  unfold State.leave
  generalize s.scopes.pop? = x at hpop ⊢
  generalize s'.scopes.pop? = x' at hpop ⊢
  cases hpop with
  | none => exact h
  | some hleft =>
    exact ⟨hleft.2, List.rel_append (List.rel_reverse hleft.1.unused) h.found⟩

variable {name : String} (hname : L.Spells name) {p p' : Position} (hp : L.start p p')

include hname hp

/-- Walks stay alike when a name hides another in both. -/
lemma hide : (s.hide name p).Like L (s'.hide name p') := by
  have houter := h.scopes.outer? name
  unfold State.hide
  generalize s.scopes.outer? name = x at houter ⊢
  generalize s'.scopes.outer? name = x' at houter ⊢
  cases houter with
  | none => exact h
  | some hv =>
    have htouched : State.Like L { s with scopes := s.scopes.touchOuter name }
        { s' with scopes := s'.scopes.touchOuter name } :=
      { h with scopes := h.scopes.touchOuter name }
    refine htouched.find ⟨?_, hp, Finding.Cause.spells_shadowedVariable hname _⟩
    rw [L.shownLine_eq (L.place_of_start hv.declaredAt)]
    rfl

/-- Walks stay alike when a parameter is bound in both. -/
lemma bind (inBlock : Bool) : (s.bind name p inBlock).Like L (s'.bind name p' inBlock) := by
  have hbind {s s' : State} (h : s.Like L s') :
      State.Like L { s with scopes := s.scopes.bindParameter name p }
        { s' with scopes := s'.scopes.bindParameter name p' } :=
    { h with scopes := h.scopes.add hname (Variable.like_bound hp) }
  cases inBlock with
  | true => exact hbind (h.hide hname hp)
  | false => exact hbind h

omit hname in
/-- Walks stay alike at an exit hook. -/
lemma atExitHook : (((exitHookFinding? s.scopes.enclosingDefinition p).map s.find).getD s).Like L
    (((exitHookFinding? s'.scopes.enclosingDefinition p').map s'.find).getD s') := by
  unfold exitHookFinding?
  rw [h.scopes.enclosingDefinition]
  split
  · have hmessage : OneLine Finding.Cause.endInMethod.message := by decide
    exact h.find ⟨rfl, hp, .of_oneLine hmessage⟩
  · exact h

omit hname hp

/-- The same event comes to the same. -/
lemma step {e e' : Event} (he : e.Like L e') : (s.step e).Like L (s'.step e') := by
  cases he with
  | enter kind => exact { h with scopes := h.scopes.push kind }
  | leave => exact h.leave
  | use name => exact { h with scopes := h.scopes.read name }
  | useForUpdate name => exact { h with scopes := h.scopes.read name }
  | write hname hp => exact { h with scopes := h.scopes.write hname hp }
  | parameter hname hp inBlock => exact h.bind hname hp inBlock
  | blockLocal hname hp => exact { h with scopes := h.scopes.add hname (Variable.like_blockLocal hp) }
  | exitHook hp => exact h.atExitHook hp
  | found hf => exact h.find hf

/-- Walks stay alike over all events. -/
lemma run {es es' : List Event} (hes : SameEvents L es es') : (s.run es).Like L (s'.run es') := by
  induction hes generalizing s s' with
  | nil => exact h
  | cons he _ ih =>
    rw [run_cons, run_cons]
    exact ih (h.step he)

end State.Like

/-! ### What is found -/

/-- In like trees the same is found. -/
lemma treeFindings_like {t t' : SyntaxTree} (h : t.Like L t') :
    List.Forall₂ (Finding.Like L) (treeFindings t) (treeFindings t') :=
  List.rel_reverse (State.Like.initial.run (eventsOfProgram_like h)).found

/-- In like trees and tokens the same is found. -/
theorem findings_like {t t' : SyntaxTree} (h : t.Like L t') {ts ts' : List Token}
    (hts : List.Forall₂ (Token.Like L) ts ts') :
    List.Forall₂ (Finding.Like L) (findings t ts) (findings t' ts') :=
  List.rel_append (treeFindings_like h) (tokenFindings_like h.errorSpans hts)

end RubyCheck.Analysis

namespace RubyCheck

variable (L : Likeness)

/-- The same tokens and faults in both texts.  Whether the first token is set off may differ. -/
structure TokenStream.Like (u u' : TokenStream) : Prop where
  tokens : List.Forall₂ (Token.Like L) u.tokens u'.tokens
  spaced : List.Forall₂ (Token.Same L) u.tokens.tail u'.tokens.tail
  faults : List.Forall₂ (Fault.Like L) u.faults u'.faults

/-- The same tokens and the same tree in both texts. -/
structure Reading.Like (r r' : Reading) : Prop where
  tokens : List.Forall₂ (Token.Like L) r.stream.tokens r'.stream.tokens
  tree : r.tree.Like L r'.tree

variable {L}

/-- Faults that are alike are reported as one kind. -/
lemma Fault.Like.kind {f f' : Fault} (h : f.Like L f') :
    DiagnosticKind.ofFault f' = DiagnosticKind.ofFault f := by
  rw [DiagnosticKind.ofFault, DiagnosticKind.ofFault, Fault.isLexical, Fault.isLexical, h.cause]

namespace Tape

/-- Where the last token is the end of the text, none has to be supplied. -/
lemma ofTokens_cons {t : Token} {ts : List Token} (h : (ts.getLastD t).kind = .eof) :
    ofTokens (t :: ts) = ⟨none, t, ts⟩ := by
  have hending : ending (ts.getLastD t) = [] := if_pos (beq_iff_eq.mpr h)
  rw [ofTokens, hending, List.append_nil]

/-- The tapes at the first tokens of two texts. -/
lemma like_ofText {source source' : List Char}
    (h : (TokenStream.ofText source).Like L (.ofText source')) :
    (ofTokens (TokenStream.ofText source).tokens).Like L false
      (ofTokens (TokenStream.ofText source').tokens) := by
  obtain ⟨ts, p, hend, hts⟩ := TokenStream.exists_endToken source
  obtain ⟨ts', p', hend', -⟩ := TokenStream.exists_endToken source'
  have htokens := h.tokens
  have hspaced := h.spaced
  rw [hend, hend'] at htokens hspaced ⊢
  have hends := Tape.ends_ofTokens (ts ++ [TokenStream.endToken p])
  have hlength : ts'.length = ts.length := by simpa using htokens.length_eq.symm
  cases ts with
  | nil =>
    obtain rfl := List.length_eq_zero_iff.mp hlength
    rw [List.nil_append] at htokens hends ⊢
    rw [List.nil_append] at htokens ⊢
    rw [ofTokens_cons rfl] at hends ⊢
    rw [ofTokens_cons rfl]
    cases htokens with
    | cons ht _ => exact ⟨.none, ht, .inl rfl, .nil, hends⟩
  | cons t ts =>
    obtain ⟨t', ts', rfl⟩ := List.exists_cons_of_ne_nil (List.ne_nil_of_length_pos (by
      rw [hlength]
      exact Nat.succ_pos _))
    have hlast (t : Token) (ts : List Token) (p : Position) :
        ((ts ++ [TokenStream.endToken p]).getLastD t).kind = .eof := by
      simp [TokenStream.endToken, Token.empty]
    rw [List.cons_append] at htokens hspaced hends ⊢
    rw [List.cons_append] at htokens hspaced ⊢
    rw [ofTokens_cons (hlast t ts p)] at hends ⊢
    rw [ofTokens_cons (hlast t' ts' p')]
    cases htokens with
    | cons ht _ =>
      refine ⟨.none, ht, .inr ⟨rfl, ?_⟩, hspaced, hends⟩
      exact beq_eq_false_iff_ne.mpr (hts t List.mem_cons_self)

end Tape

namespace SyntaxTree

/-- What reading comes to. -/
lemma ofTokens_like (limits : Limits) {ts ts' : List Token} (hlength : ts'.length = ts.length)
    (h : (Tape.ofTokens ts).Like L false (Tape.ofTokens ts')) :
    (ofTokens limits ts).Like L (ofTokens limits ts') := by
  have hlevels : Grammar.levelsFor ts' = Grammar.levelsFor ts := by
    rw [Grammar.levelsFor, Grammar.levelsFor, hlength]
  have hstate : (Grammar.State.ofTokens limits ts).Like L false (.ofTokens limits ts') :=
    ⟨h, .nil, rfl, rfl, rfl, rfl⟩
  have hsame := Grammar.alike_program L (Grammar.levelsFor ts) false
    (fun h => absurd h Bool.false_ne_true) _ _ (fun h => absurd h Bool.false_ne_true) hstate
  obtain ⟨root, s, hprogram, htree⟩ := exists_run limits ts
  obtain ⟨root', s', hprogram', htree'⟩ := exists_run limits ts'
  rw [hlevels] at hprogram'
  rw [hprogram, hprogram'] at hsame
  rw [htree, htree']
  cases hsame with
  | ok hroot hs => exact ⟨hroot, hs.faults⟩

end SyntaxTree

namespace Reading

variable {limits : Limits} {source source' : List Char}

/-- Texts with like tokens are read alike. -/
theorem like_ofText (h : (TokenStream.ofText source).Like L (.ofText source')) :
    (ofText limits source).Like L (ofText limits source') := by
  have htree := SyntaxTree.ofTokens_like limits h.tokens.length_eq.symm (Tape.like_ofText h)
  exact ⟨h.tokens, htree.root, List.rel_append h.faults htree.faults⟩

/-- In texts that are read alike the same is found. -/
theorem Like.findings {r r' : Reading} (h : r.Like L r') :
    List.Forall₂ (Finding.Like L) r.findings r'.findings :=
  Analysis.findings_like h.tree h.tokens

end Reading

end RubyCheck
