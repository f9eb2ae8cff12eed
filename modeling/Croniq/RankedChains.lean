import Mathlib.Data.List.Chain

/-!
# Chains along a ranked relation

A relation in which every element has at most one successor, and the successor
is one rank higher, up to a bound.
-/

namespace RankedChains

open List Relation

variable {Node : Type*}

/-- In a closed set successors are unique, one rank higher and within the bound. -/
structure Ranked (next : Node → Node → Prop) (rank : Node → Nat) (bound : Nat)
    (inside : Node → Prop) : Prop where
  unique : ∀ {node first second}, inside node → next node first → next node second → first = second
  closed : ∀ {node after}, inside node → next node after → inside after
  rises : ∀ {node after}, inside node → next node after → rank after = rank node + 1
  bounded : ∀ {node after}, inside node → next node after → rank after ≤ bound

/-- The elements after `node` in its chain, in order. -/
structure ChainFrom (next : Node → Node → Prop) (rank : Node → Nat) (bound : Nat)
    (inside : Node → Prop) (node : Node) (chain : List Node) : Prop where
  isChain : (node :: chain).IsChain next
  reaches : ∀ other, ReflTransGen next node other ↔ other ∈ node :: chain
  allInside : ∀ other ∈ node :: chain, inside other
  ranks : (node :: chain).map rank = range' (rank node) (chain.length + 1)
  fits : rank node + chain.length ≤ bound

namespace Ranked

variable {next : Node → Node → Prop} {rank : Node → Nat} {bound : Nat} {inside : Node → Prop}

theorem exists_chain_of_last {node : Node} (isInside : inside node) (within : rank node ≤ bound)
    (noNext : ∀ after, ¬ next node after) :
    ∃ chain, ChainFrom next rank bound inside node chain := by
  refine ⟨[],⟨.singleton node,?_,by simpa using isInside,rfl,within⟩⟩
  intro other
  rw [ReflTransGen.cases_head_iff,mem_singleton]
  constructor
  · rintro (rfl | ⟨after,follows,_⟩)
    · rfl
    · exact absurd follows (noNext after)
  · rintro rfl
    exact .inl rfl

theorem reaches_iff (ranked : Ranked next rank bound inside) {node after other : Node}
    (isInside : inside node) (follows : next node after) :
    ReflTransGen next node other ↔ other = node ∨ ReflTransGen next after other := by
  rw [ReflTransGen.cases_head_iff]
  constructor
  · rintro (rfl | ⟨first,isFirst,reaches⟩)
    · exact .inl rfl
    · rw [ranked.unique isInside follows isFirst]
      exact .inr reaches
  · rintro (rfl | reaches)
    · exact .inl rfl
    · exact .inr ⟨after,follows,reaches⟩

theorem exists_chain (ranked : Ranked next rank bound inside) {node : Node}
    (isInside : inside node) (within : rank node ≤ bound) :
    ∃ chain, ChainFrom next rank bound inside node chain := by
  induction room : bound - rank node generalizing node with
  | zero =>
    refine exists_chain_of_last isInside within fun after follows => ?_
    have rises := ranked.rises isInside follows
    have bounded := ranked.bounded isInside follows
    omega
  | succ room ih =>
    by_cases hasNext : ∃ after, next node after
    · obtain ⟨after,follows⟩ := hasNext
      have rises := ranked.rises isInside follows
      have afterInside := ranked.closed isInside follows
      obtain ⟨chain,isChain,reaches,allInside,ranks,fits⟩ :=
        ih afterInside (ranked.bounded isInside follows) (by omega)
      refine ⟨after :: chain,⟨.cons_cons follows isChain,?_,?_,?_,?_⟩⟩
      · intro other
        rw [ranked.reaches_iff isInside follows,reaches other]
        exact mem_cons.symm
      · exact forall_mem_cons.mpr ⟨isInside,allInside⟩
      · rw [map_cons,ranks,rises,length_cons]
        exact (range'_succ ..).symm
      · rw [length_cons]
        omega
    · exact exists_chain_of_last isInside within fun after follows => hasNext ⟨after,follows⟩

end Ranked

end RankedChains
