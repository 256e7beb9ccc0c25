import RubyCheck.Proofs.Analysis.Walk
import RubyCheck.Proofs.SyntaxTree

/-!
# The variables that a walk comes upon

The analysis keeps frames of its own, and they agree with the scopes in which a text was read: in a
text without faults, a variable that is come upon is seen in the frames, unless it stands in the
default value of a parameter of its name.  Such a name was a variable while the text was read, but
the parameter is bound behind its default value only.
-/

namespace RubyCheck.Analysis

open SyntaxTree

/-- Every part of the tree of a text is sound. -/
lemma sound_ofText (limits : Limits) (source : List Char) :
    (ofText limits source).root.Everywhere Sound := by
  obtain ⟨ns, s', hreads, hfits, -, htree⟩ := exists_reads limits (TokenStream.ofText source).tokens
  change (ofTokens limits (TokenStream.ofText source).tokens).root.Everywhere Sound
  rw [htree]
  exact .intro ⟨hfits, rfl⟩ fun c hc => (hreads.laidOut c hc).and (hreads.assignsNoParameter c hc)

lemma root_ofText (limits : Limits) (source : List Char) :
    ∃ span ns, (ofText limits source).root = .inner .program span ns := by
  obtain ⟨ns, s', -, -, -, htree⟩ := exists_reads limits (TokenStream.ofText source).tokens
  exact ⟨_, ns, congrArg SyntaxTree.root htree⟩

/-- The uses in the events of a program are the visits of the nodes that use variables. -/
lemma heard_ofText (limits : Limits) (source : List Char) :
    Heard [] (ofText limits source).root.situated .initial
      (eventsOfProgram (ofText limits source)) := by
  obtain ⟨span, ns, hroot⟩ := root_ofText limits source
  have hsound := sound_ofText limits source
  rw [hroot] at hsound
  have hplain := hsound.root.admits_plain (by simp [Node.inner]) (by simp [Node.inner])
    (by simp [Node.inner])
  have hfollowed : Followed [] [(0, true)] 1 ns .initial (eventsOfStatements ns []) :=
    .statements (fun c hc _ _ _ hs => followed (hsound.children c hc) (hplain c hc) hs)
      Grammar.Agrees.outermost
  have hchildren : (Node.inner .program span ns).children = [] ++ ns := rfl
  rw [eventsOfProgram, hroot, Node.situated, Node.situate_of_opens_some rfl hchildren]
  exact .cons (by simp [Node.inner]) (by simp [Node.inner]) hfollowed.heard

/-- In a text without faults, as many uses of variables are visited as there are nodes that use one,
and they are visited in pre-order.  The name of such a node is seen at its visit exactly if one of
the nodes in front of it, other than a parameter in whose default value it stands, makes a variable
of that name that can be seen from it: the innermost scope around that node is the innermost one
around the use, or is around it with no closed scope in between.  So the name is seen, unless the
use stands in the default value of a parameter of that name. -/
theorem sees_of_use (limits : Limits) (source : List Char)
    (hok : (ofText limits source).faults = []) :
    (eventsOfProgram (ofText limits source)).countP Event.isUse =
        (ofText limits source).root.situated.countP isVariable ∧
      ∀ es name es', eventsOfProgram (ofText limits source) = es ++ .use name :: es' →
        ∃ before around n after,
          (ofText limits source).root.situated = before ++ (around, n) :: after ∧
          n.kind = .localVariable ∧ n.name = name ∧
          es.countP Event.isUse = before.countP isVariable ∧
          ((State.initial.run es).scopes.sees name = true ↔
            ∃ p ∈ settled before, p.2.declares = true ∧ p.2.name = name ∧
              ∃ scope ∈ p.1.head?, scope.1 ∈ visible around) ∧
          ((State.initial.run es).scopes.sees name = true ∨ ∃ outer p between,
            before = outer ++ p :: between ∧ p.2.kind = .parameter ∧ p.2.name = name ∧
            between.length + 1 < p.2.size ∧ ∃ scope ∈ p.1.head?, scope.1 ∈ visible around) := by
  have hheard := heard_ofText limits source
  refine ⟨hheard.count, fun es name es' hes => ?_⟩
  obtain ⟨before, around, n, after, hn, hkind, hname, hcount, hsees⟩ := hheard.each hes
  rw [List.nil_append, declared_declarations] at hsees
  refine ⟨before, around, n, after, hn, hkind, hname, hcount, hsees, ?_⟩
  -- While the text was read the name was a variable.
  have hdeclared : Declared (declarations before) around n.name := by
    have hresolved := resolved_ofText hok
    rw [hn] at hresolved
    exact (hresolved.of_mem (by simp [Node.isBareName, hkind])).mp hkind
  obtain ⟨p, hp, hdeclares, hsame, hvisible⟩ := declared_declarations.mp hdeclared
  rcases mem_settled_or hp with hsettled | ⟨outer, between, hbefore, hparameter, hsize⟩
  · exact .inl (hsees.mpr ⟨p, hsettled, hdeclares, hsame.trans hname, hvisible⟩)
  · exact .inr ⟨outer, p, between, hbefore, hparameter, hsame.trans hname, hsize, hvisible⟩

/-- A block that reads the variable of the line above. -/
theorem sees_of_use_block :
    (ofText .standard "x = 1\neach \x7b |y| x \x7d\n".toList).faults = [] ∧
      ∃ es es', eventsOfProgram (ofText .standard "x = 1\neach \x7b |y| x \x7d\n".toList) =
          es ++ .use "x" :: es' ∧
        ∃ before around n after,
          (ofText .standard "x = 1\neach \x7b |y| x \x7d\n".toList).root.situated =
            before ++ (around, n) :: after ∧
          n.kind = .localVariable ∧ n.name = "x" ∧
          es.countP Event.isUse = before.countP isVariable ∧
          ((State.initial.run es).scopes.sees "x" = true ↔
            ∃ p ∈ settled before, p.2.declares = true ∧ p.2.name = "x" ∧
              ∃ scope ∈ p.1.head?, scope.1 ∈ visible around) := by
  set source := "x = 1\neach \x7b |y| x \x7d\n".toList
  set es := eventsOfProgram (ofText .standard source)
  have hok : (ofText .standard source).faults = [] := by decide +kernel
  have hes : es = es.take 3 ++ .use "x" :: es.drop 4 := by decide +kernel
  obtain ⟨before, around, n, after, hn, hkind, hname, hcount, hsees, -⟩ :=
    (sees_of_use .standard source hok).2 _ _ _ hes
  exact ⟨hok, _, _, hes, before, around, n, after, hn, hkind, hname, hcount, hsees⟩

/-- The default value of a parameter that mentions the parameter: the name is not seen there,
although it is a variable, and what is assigned to it there counts as unused. -/
theorem not_sees_of_use :
    (ofText .standard "def f(x = [x, x = 1])\nend\n".toList).faults = [] ∧
      ∃ es es', eventsOfProgram (ofText .standard "def f(x = [x, x = 1])\nend\n".toList) =
          es ++ .use "x" :: es' ∧
        (State.initial.run es).scopes.sees "x" = false := by
  set t := ofText .standard "def f(x = [x, x = 1])\nend\n".toList
  refine ⟨?_, (eventsOfProgram t).take 1, (eventsOfProgram t).drop 2, ?_, ?_⟩
  · decide +kernel
  · decide +kernel
  · decide +kernel

end RubyCheck.Analysis
