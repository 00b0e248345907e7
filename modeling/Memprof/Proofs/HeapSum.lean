import Memprof.Model.SizeOf

/-!
# What `size_of_excluding_self` adds up

The implementations are written one type at a time, each adding its own block
to what its contents report. Unfolded over a whole value, they add one
`heap_size_of` per block on every path of ownership from the value down, and
the leaves' own measurements. `sizeOfExcludingSelf_eq` says so for every
value, through vectors and lists of any length; the induction is the
definition's own mutual recursion, the vector fold and the list walk carrying
their accumulators.

Paths are the right unit, not blocks. `Arc<T>` delegates to its referent and
remembers nothing, so a referent two handles share is measured once per handle:
`sizeOf_counts_shared_referent_twice` is a vector of two clones of one `Arc`.
Where no two paths meet at a block other than the `EMPTY` sentinel, which every
zero-size allocation shares and which measures nothing, the path sum is the sum
over the set of owned blocks.

The sums are `usize`. A debug build checks each addition, and since every
partial sum the source forms is part of the whole, the checked measurement
returns the path sum or panics with the overflow, and panics only when the path
sum does not fit: `sizeOfExcludingSelfChecked_eq_pathSum`. Shared handles make that reachable
with little memory, a path sum being a sum over paths and not over blocks.
-/

namespace Memprof.Heap

mutual

/-- The blocks a value owns, once per path that reaches them: each box, each
`String` and `Vec` buffer and each list node, through box contents, `Some`
payloads, vector elements, list values and `Arc` referents. The `Arc`
allocation itself is not one of them. -/
def ownedBlocks : Val → List Nat
  | .leaf _ => []
  | .string buf => [buf]
  | .box ptr inner => ptr :: ownedBlocks inner
  | .none => []
  | .some inner => ownedBlocks inner
  | .arc _ inner => ownedBlocks inner
  | .vec buf elems => buf :: elemsBlocks elems
  | .dlist nodes => nodesBlocks nodes

/-- The blocks the elements of a vector own. -/
def elemsBlocks : List Val → List Nat
  | [] => []
  | v :: rest => ownedBlocks v ++ elemsBlocks rest

/-- The blocks of a node chain: each node, then what its value owns. -/
def nodesBlocks : List (Nat × Val) → List Nat
  | [] => []
  | (ptr, v) :: rest => ptr :: ownedBlocks v ++ nodesBlocks rest

end

mutual

/-- The leaves' own measurements, along the same paths. -/
def leafSum : Val → Nat
  | .leaf size => size
  | .string _ => 0
  | .box _ inner => leafSum inner
  | .none => 0
  | .some inner => leafSum inner
  | .arc _ inner => leafSum inner
  | .vec _ elems => elemsLeafSum elems
  | .dlist nodes => nodesLeafSum nodes

def elemsLeafSum : List Val → Nat
  | [] => 0
  | v :: rest => leafSum v + elemsLeafSum rest

def nodesLeafSum : List (Nat × Val) → Nat
  | [] => 0
  | (_, v) :: rest => leafSum v + nodesLeafSum rest

end

/-- The path sum: `heap_size_of` of every block on every path, and the leaves. -/
def pathSum (A : Allocator) (v : Val) : Nat :=
  ((ownedBlocks v).map (heapSizeOf A)).sum + leafSum v

mutual

theorem sizeOfExcludingSelf_eq (A : Allocator) :
    ∀ v, sizeOfExcludingSelf A v = ((ownedBlocks v).map (heapSizeOf A)).sum + leafSum v
  | .leaf _ => by simp [sizeOfExcludingSelf, ownedBlocks, leafSum]
  | .string _ => by simp [sizeOfExcludingSelf, ownedBlocks, leafSum]
  | .box _ inner => by
      simp only [sizeOfExcludingSelf, ownedBlocks, leafSum, List.map_cons, List.sum_cons,
        sizeOfExcludingSelf_eq A inner]
      omega
  | .none => by simp [sizeOfExcludingSelf, ownedBlocks, leafSum]
  | .some inner => by simp [sizeOfExcludingSelf, ownedBlocks, leafSum, sizeOfExcludingSelf_eq A inner]
  | .arc _ inner => by simp [sizeOfExcludingSelf, ownedBlocks, leafSum, sizeOfExcludingSelf_eq A inner]
  | .vec _ elems => by
      simp only [sizeOfExcludingSelf, ownedBlocks, leafSum, List.map_cons, List.sum_cons,
        vecFold_eq A elems 0]
      omega
  | .dlist nodes => by
      simp only [sizeOfExcludingSelf, ownedBlocks, leafSum, dlist2Loop_eq A nodes 0]
      omega

theorem vecFold_eq (A : Allocator) : ∀ elems n,
    vecFold A elems n = n + ((elemsBlocks elems).map (heapSizeOf A)).sum + elemsLeafSum elems
  | [], n => by simp [vecFold, elemsBlocks, elemsLeafSum]
  | v :: rest, n => by
      simp only [vecFold, elemsBlocks, elemsLeafSum, List.map_append, List.sum_append,
        vecFold_eq A rest, sizeOfExcludingSelf_eq A v]
      omega

theorem dlist2Loop_eq (A : Allocator) : ∀ nodes n,
    dlist2Loop A nodes n = n + ((nodesBlocks nodes).map (heapSizeOf A)).sum + nodesLeafSum nodes
  | [], n => by simp [dlist2Loop, nodesBlocks, nodesLeafSum]
  | (ptr, v) :: rest, n => by
      simp only [dlist2Loop, nodesBlocks, nodesLeafSum, List.cons_append, List.map_cons,
        List.sum_cons, List.map_append, List.sum_append, dlist2Loop_eq A rest,
        sizeOfExcludingSelf_eq A v]
      omega

end

/-- The sentinel measures nothing, so it may be dropped from any sum of blocks. -/
theorem sum_heapSizeOf_filter (A : Allocator) (l : List Nat) :
    ((l.filter (· ≠ A.empty)).map (heapSizeOf A)).sum = (l.map (heapSizeOf A)).sum := by
  induction l with
  | nil => rfl
  | cons b l ih =>
      by_cases hb : b = A.empty
      · rw [List.filter_cons_of_neg (by simpa using hb), ih, List.map_cons, List.sum_cons, hb]
        simp [heapSizeOf]
      · rw [List.filter_cons_of_pos (by simpa using hb), List.map_cons, List.sum_cons, ih,
          List.map_cons, List.sum_cons]

/-- When blocks repeat only at the sentinel, summing the list is summing the set. -/
theorem sum_eq_sum_toFinset (A : Allocator) {l : List Nat}
    (h : (l.filter (· ≠ A.empty)).Nodup) :
    (l.map (heapSizeOf A)).sum = ∑ b ∈ l.toFinset, heapSizeOf A b := by
  calc (l.map (heapSizeOf A)).sum
      = ((l.filter (· ≠ A.empty)).map (heapSizeOf A)).sum := (sum_heapSizeOf_filter A l).symm
    _ = ∑ b ∈ (l.filter (· ≠ A.empty)).toFinset, heapSizeOf A b := (List.sum_toFinset _ h).symm
    _ = ∑ b ∈ l.toFinset, heapSizeOf A b := by
        rw [List.toFinset_filter]
        exact Finset.sum_filter_of_ne fun b _ hb => decide_eq_true fun h => hb (by simp [heapSizeOf, h])

/-! ## Checked additions

A debug build's measurement is the path sum, or the overflow panic, and it panics
only when the path sum does not fit a `usize`: every partial sum the source
forms is a part of the whole, so an addition can overflow only when the whole
does. -/

/-- A checked computation of the sum `n`: it returned `n`, or it panicked with
the overflow and `n` does not fit a `usize`. -/
def CheckedSum (x : Except Panic Nat) (n : Nat) : Prop :=
  x = .ok n ∨ (x = .error .overflow ∧ usizeLimit ≤ n)

theorem CheckedSum.ok (n : Nat) : CheckedSum (.ok n) n := .inl rfl

theorem CheckedSum.add (a b : Nat) : CheckedSum (usizeAdd a b) (a + b) := by
  unfold usizeAdd
  split
  · exact .inl rfl
  · exact .inr ⟨rfl, by omega⟩

/-- A checked part of a larger sum, bound into the computation of the rest. -/
theorem CheckedSum.bind {x : Except Panic Nat} {a n : Nat} {f : Nat → Except Panic Nat}
    (hx : CheckedSum x a) (hf : CheckedSum (f a) n) (hle : a ≤ n) : CheckedSum (x >>= f) n := by
  rcases hx with rfl | ⟨rfl, ha⟩
  · exact hf
  · exact .inr ⟨rfl, le_trans ha hle⟩

theorem le_vecFold (A : Allocator) (elems : List Val) (n : Nat) : n ≤ vecFold A elems n := by
  rw [vecFold_eq]
  omega

theorem le_dlist2Loop (A : Allocator) (nodes : List (Nat × Val)) (n : Nat) : n ≤ dlist2Loop A nodes n := by
  rw [dlist2Loop_eq]
  omega

mutual

theorem sizeOfExcludingSelfChecked_sum (A : Allocator) :
    ∀ v, CheckedSum (sizeOfExcludingSelfChecked A v) (sizeOfExcludingSelf A v)
  | .leaf _ => .ok _
  | .string _ => .ok _
  | .box _ inner => (sizeOfExcludingSelfChecked_sum A inner).bind (.add _ _) (Nat.le_add_left _ _)
  | .none => .ok _
  | .some inner => sizeOfExcludingSelfChecked_sum A inner
  | .arc _ inner => sizeOfExcludingSelfChecked_sum A inner
  | .vec _ elems => (vecFoldChecked_sum A elems 0).bind (.add _ _) (Nat.le_add_left _ _)
  | .dlist nodes => dlist2LoopChecked_sum A nodes 0

theorem vecFoldChecked_sum (A : Allocator) :
    ∀ elems n, CheckedSum (vecFoldChecked A elems n) (vecFold A elems n)
  | [], n => .ok n
  | elem :: rest, n =>
      (sizeOfExcludingSelfChecked_sum A elem).bind
        ((CheckedSum.add n _).bind (vecFoldChecked_sum A rest _) (le_vecFold A rest _))
        (le_trans (by omega) (le_vecFold A rest _))

theorem dlist2LoopChecked_sum (A : Allocator) :
    ∀ nodes n, CheckedSum (dlist2LoopChecked A nodes n) (dlist2Loop A nodes n)
  | [], n => .ok n
  | (ptr, value) :: next, n =>
      (sizeOfExcludingSelfChecked_sum A value).bind
        ((CheckedSum.add (heapSizeOf A ptr) _).bind
          ((CheckedSum.add n _).bind (dlist2LoopChecked_sum A next _) (le_dlist2Loop A next _))
          (le_trans (by omega) (le_dlist2Loop A next _)))
        (le_trans (by omega) (le_dlist2Loop A next _))

end

theorem sizeOfExcludingSelfChecked_eq_pathSum (A : Allocator) (v : Val) :
    (sizeOfExcludingSelfChecked A v = .ok (pathSum A v) ∨
      (sizeOfExcludingSelfChecked A v = .error .overflow ∧ usizeLimit ≤ pathSum A v)) ∧
      (((ownedBlocks v).filter (· ≠ A.empty)).Nodup →
        pathSum A v = (∑ b ∈ (ownedBlocks v).toFinset, heapSizeOf A b) + leafSum v) := by
  have hpath : sizeOfExcludingSelf A v = pathSum A v := sizeOfExcludingSelf_eq A v
  exact ⟨hpath ▸ sizeOfExcludingSelfChecked_sum A v, fun h => by rw [pathSum, sum_eq_sum_toFinset A h]⟩

/-- An allocator whose every block has 16 usable bytes. -/
def sixteenBytes : Allocator := ⟨1, fun _ => 16⟩

/-- A vector, two boxes inside it: the measurement is the path sum, which is the
set sum. -/
theorem sizeOfExcludingSelf_vec_of_boxes :
    ((ownedBlocks (.vec 64 [.box 16 (.leaf 3), .box 32 (.leaf 0)])).filter
        (· ≠ sixteenBytes.empty)).Nodup ∧
      sizeOfExcludingSelfChecked sixteenBytes (.vec 64 [.box 16 (.leaf 3), .box 32 (.leaf 0)]) =
        .ok (pathSum sixteenBytes (.vec 64 [.box 16 (.leaf 3), .box 32 (.leaf 0)])) ∧
      pathSum sixteenBytes (.vec 64 [.box 16 (.leaf 3), .box 32 (.leaf 0)]) =
        (∑ b ∈ (ownedBlocks (.vec 64 [.box 16 (.leaf 3), .box 32 (.leaf 0)])).toFinset,
          heapSizeOf sixteenBytes b) + leafSum (.vec 64 [.box 16 (.leaf 3), .box 32 (.leaf 0)]) :=
  have h := sizeOfExcludingSelfChecked_eq_pathSum sixteenBytes (.vec 64 [.box 16 (.leaf 3), .box 32 (.leaf 0)])
  ⟨by decide, h.1.resolve_right fun h' => absurd h'.2 (by decide), h.2 (by decide)⟩

/-- Two clones of one `Arc` in a vector: the referent's box is measured twice,
once per handle, while the set of owned blocks holds it once. -/
theorem sizeOf_counts_shared_referent_twice :
    sizeOfExcludingSelfChecked sixteenBytes
        (.vec 64 [.arc 8 (.box 16 (.leaf 0)), .arc 8 (.box 16 (.leaf 0))]) ≠
      .ok ((∑ b ∈ (ownedBlocks (.vec 64 [.arc 8 (.box 16 (.leaf 0)), .arc 8 (.box 16 (.leaf 0))])).toFinset,
          heapSizeOf sixteenBytes b) +
        leafSum (.vec 64 [.arc 8 (.box 16 (.leaf 0)), .arc 8 (.box 16 (.leaf 0))])) := fun h =>
  absurd (Except.ok.inj ((show sizeOfExcludingSelfChecked sixteenBytes
    (.vec 64 [.arc 8 (.box 16 (.leaf 0)), .arc 8 (.box 16 (.leaf 0))]) = .ok 48 from rfl).symm.trans h))
    (by decide)

/-! ## What the allocator is asked -/

/-- The measurement depends on the allocator only at the blocks on the paths:
not at an `Arc`'s own allocation, not at any block the value does not own. -/
theorem sizeOfExcludingSelf_frame {A A' : Allocator} (v : Val)
    (h : ∀ b ∈ ownedBlocks v, heapSizeOf A b = heapSizeOf A' b) :
    sizeOfExcludingSelf A v = sizeOfExcludingSelf A' v := by
  rw [sizeOfExcludingSelf_eq, sizeOfExcludingSelf_eq, List.map_congr_left h]

/-- `sixteenBytes`, but with a large block at one address. -/
def sixteenBytesBut (b : Nat) : Allocator := ⟨1, fun b' => if b' = b then 4096 else 16⟩

theorem sizeOf_arc_ignores_its_allocation :
    sizeOfExcludingSelf sixteenBytes (.arc 8 (.box 16 (.leaf 3))) =
      sizeOfExcludingSelf (sixteenBytesBut 8) (.arc 8 (.box 16 (.leaf 3))) :=
  sizeOfExcludingSelf_frame _ (by decide)

end Memprof.Heap
