import Memprof.Proofs.HeapSum

/-!
# The `DList2` walk measures what the recursion would

`Node::size_of_excluding_self` measures the value alone and leaves `next` to
`DList2::size_of_excluding_self`, whose `while` loop walks the chain so that a
long list does not deepen the stack. The measurement it stands in for is the
plain recursive one, `linkSizeRec`: `list_head` through the `Option` and `Box`
impls, with a node measuring its value and then its `next` link.

Fuel here counts tests of `curr.is_some()` and is bookkeeping: on a chain of
`n` nodes, `n + 1` tests always suffice and `n` never do, so the loop runs its
body exactly `n` times, one round per node in chain order, and ends with
`curr` empty and `size` equal to the recursive measurement. The accumulator
lemma `dlist2Loop_eq_add` is the whole of the equivalence; the fuel lemmas say
that the round-by-round loop is `dlist2Loop`.
-/

namespace Memprof.Heap

/-- The recursive measurement of a link: each node's box, its value, and the
rest of the chain. -/
def linkSizeRec (A : Allocator) : List (Nat × Val) → Nat
  | [] => 0
  | (ptr, value) :: next => heapSizeOf A ptr + (sizeOfExcludingSelf A value + linkSizeRec A next)

/-! ## The loop against its accumulator form -/

/-- With more tests than nodes, the loop stops with `curr` empty where
`dlist2Loop` stops, having visited every node once. -/
theorem dlist2While_of_lt (A : Allocator) :
    ∀ (fuel : Nat) (vars : DList2Vars), vars.curr.length < fuel →
      dlist2While A fuel vars = some (⟨[], dlist2Loop A vars.curr vars.size⟩, vars.curr)
  | 0, _, h => absurd h (Nat.not_lt_zero _)
  | _ + 1, ⟨[], _⟩, _ => rfl
  | fuel + 1, ⟨(ptr, value) :: next, size⟩, h => by
      simp only [dlist2While, dlist2Round,
        dlist2While_of_lt A fuel ⟨next, _⟩ (Nat.lt_of_succ_lt_succ h), Option.map_some', dlist2Loop,
        sizeOfExcludingSelf]

/-- With no more tests than nodes, the fuel runs out before the loop stops. -/
theorem dlist2While_of_le (A : Allocator) :
    ∀ (fuel : Nat) (vars : DList2Vars), fuel ≤ vars.curr.length → dlist2While A fuel vars = none
  | 0, _, _ => rfl
  | _ + 1, ⟨[], _⟩, h => absurd h (Nat.not_succ_le_zero _)
  | fuel + 1, ⟨(ptr, value) :: next, size⟩, h => by
      simp only [dlist2While, dlist2Round,
        dlist2While_of_le A fuel ⟨next, _⟩ (Nat.le_of_succ_le_succ h), Option.map_none']

/-! ## The accumulator form against the recursion -/

/-- The loop from `size` adds the recursive measurement of the rest of the chain. -/
theorem dlist2Loop_eq_add (A : Allocator) :
    ∀ (nodes : List (Nat × Val)) (size : Nat), dlist2Loop A nodes size = size + linkSizeRec A nodes
  | [], _ => rfl
  | (ptr, value) :: next, size => by
      rw [dlist2Loop, linkSizeRec, dlist2Loop_eq_add A next]
      omega

theorem linkSizeRec_eq_sum (A : Allocator) (nodes : List (Nat × Val)) :
    linkSizeRec A nodes = (nodes.map fun node => heapSizeOf A node.1 + sizeOfExcludingSelf A node.2).sum := by
  induction nodes with
  | nil => rfl
  | cons node next ih =>
      rw [List.map_cons, List.sum_cons, ← ih, linkSizeRec, Nat.add_assoc]

theorem dlist2While_refines_linkSizeRec (A : Allocator) (nodes : List (Nat × Val)) :
    (∀ fuel, nodes.length < fuel →
        dlist2While A fuel ⟨nodes, 0⟩ = some (⟨[], linkSizeRec A nodes⟩, nodes)) ∧
      (∀ fuel, fuel ≤ nodes.length → dlist2While A fuel ⟨nodes, 0⟩ = none) ∧
      sizeOfExcludingSelf A (.dlist nodes) = linkSizeRec A nodes ∧
      linkSizeRec A nodes =
        (nodes.map fun node => heapSizeOf A node.1 + sizeOfExcludingSelf A node.2).sum := by
  have hloop : dlist2Loop A nodes 0 = linkSizeRec A nodes := by rw [dlist2Loop_eq_add, Nat.zero_add]
  refine ⟨fun fuel h => ?_, fun fuel => dlist2While_of_le A fuel ⟨nodes, 0⟩, hloop,
    linkSizeRec_eq_sum A nodes⟩
  rw [dlist2While_of_lt A fuel ⟨nodes, 0⟩ h, hloop]

/-- Two nodes: three tests, two rounds, and the recursive measurement. -/
theorem dlist2While_two_nodes :
    [(16, Val.leaf 3), (32, .leaf 0)].length < 3 ∧
      dlist2While sixteenBytes 3 ⟨[(16, .leaf 3), (32, .leaf 0)], 0⟩ =
        some (⟨[], linkSizeRec sixteenBytes [(16, .leaf 3), (32, .leaf 0)]⟩,
          [(16, .leaf 3), (32, .leaf 0)]) ∧
      2 ≤ [(16, Val.leaf 3), (32, .leaf 0)].length ∧
      dlist2While sixteenBytes 2 ⟨[(16, .leaf 3), (32, .leaf 0)], 0⟩ = none :=
  ⟨by decide, (dlist2While_refines_linkSizeRec sixteenBytes _).1 3 (by decide), by decide,
    (dlist2While_refines_linkSizeRec sixteenBytes _).2.1 2 (by decide)⟩

end Memprof.Heap
