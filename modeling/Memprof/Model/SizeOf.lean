import Memprof.Model.Rust

/-!
# `heap_size_of` and the `SizeOf` implementations

A value is modelled by what `size_of_excluding_self` can see of it: the address
of every heap block it holds, and below that the values those blocks hold. One
inductive covers every type the source gives an implementation for, nested to
any depth, with a leaf for a type that measures itself. It is untyped, so it
also holds shapes no Rust type has (a vector whose elements differ in shape);
a law proved of every `Val` holds of every well-typed one in particular.

The allocator enters only through `heap_size_of`, and `heap_size_of` only
through the two things it needs that `memory.rs` does not define:
`je_malloc_usable_size`, and the address `::std::rt::heap::EMPTY` that stands
for a zero-size allocation. Both are fields of `Allocator`.

A `DList<T>` is read, as the source reads it, through the shadow `DList2<T>`:
`list_head` and then each node's `next`. The chain of `Option<Box<Node<T>>>`
links is the list of the nodes it reaches, each with the address of its box and
its value; `_prev`, `_list_tail` and `_length` are never read and are left out.

Sizes are `usize` in the source. `sizeOfExcludingSelf` carries the
implementations' additions out in `Nat`: it is the sum they compute, which is
what the call returns when no addition overflows. A debug build checks every
addition and panics on the first that reaches 2^64;
`sizeOfExcludingSelfChecked` is the same recursion with each `+` checked, in
the order the source evaluates it, and the proofs relate the two. A release
build would wrap instead.
-/

namespace Memprof.Heap

/-- What the allocator contributes to a measurement. -/
structure Allocator where
  /-- `::std::rt::heap::EMPTY`. -/
  empty : Nat
  /-- `je_malloc_usable_size`. -/
  usableSize : Nat → Nat

/-- `heap_size_of`: the sentinel measures nothing, any other block what the
allocator says. -/
def heapSizeOf (A : Allocator) (ptr : Nat) : Nat :=
  if ptr = A.empty then 0 else A.usableSize ptr

/-- A value of a type built from `String`, `Box`, `Option`, `Arc`, `Vec` and
`DList` over leaf types. -/
inductive Val where
  /-- A leaf type, with what its own `size_of_excluding_self` returns. -/
  | leaf (size : Nat)
  /-- `String`: the address of its buffer. -/
  | string (buf : Nat)
  /-- `Box<T>`: the address of the box, and the boxed value. -/
  | box (ptr : Nat) (inner : Val)
  /-- `Option<T>`. -/
  | none
  | some (inner : Val)
  /-- `Arc<T>`: the address of the shared allocation, and the referent. -/
  | arc (ptr : Nat) (inner : Val)
  /-- `Vec<T>`: the address of the backing buffer, and the elements. -/
  | vec (buf : Nat) (elems : List Val)
  /-- `DList<T>`: from `list_head` along `next`, each node's box and value. -/
  | dlist (nodes : List (Nat × Val))
  deriving Repr

mutual

/-- The sum `size_of_excluding_self` adds up, one case per `impl SizeOf`, in `Nat`. -/
def sizeOfExcludingSelf (A : Allocator) : Val → Nat
  | .leaf size => size
  | .string buf => heapSizeOf A buf
  | .box ptr inner => heapSizeOf A ptr + sizeOfExcludingSelf A inner
  | .none => 0
  | .some inner => sizeOfExcludingSelf A inner
  | .arc _ inner => sizeOfExcludingSelf A inner
  | .vec buf elems => heapSizeOf A buf + vecFold A elems 0
  | .dlist nodes => dlist2Loop A nodes 0

/-- `self.iter().fold(0, |n, elem| n + elem.size_of_excluding_self())`. -/
def vecFold (A : Allocator) : List Val → Nat → Nat
  | [], n => n
  | elem :: rest, n => vecFold A rest (n + sizeOfExcludingSelf A elem)

/-- The `while curr.is_some()` loop of `DList2::size_of_excluding_self`. Each
round adds `curr`'s measurement, which the `Option` and `Box` impls make the
node's box plus `Node::size_of_excluding_self`, the value alone; then `curr`
moves to `next`. -/
def dlist2Loop (A : Allocator) : List (Nat × Val) → Nat → Nat
  | [], size => size
  | (ptr, value) :: next, size =>
      dlist2Loop A next (size + (heapSizeOf A ptr + sizeOfExcludingSelf A value))

end

/-! ## Checked additions

A debug build's `size_of_excluding_self`: each `+` and `+=` of the source is a
`usizeAdd`, taken after both of its operands, left first. -/

mutual

/-- `size_of_excluding_self` with its additions checked, one case per `impl SizeOf`. -/
def sizeOfExcludingSelfChecked (A : Allocator) : Val → Except Panic Nat
  | .leaf size => .ok size
  | .string buf => .ok (heapSizeOf A buf)
  | .box ptr inner => sizeOfExcludingSelfChecked A inner >>= usizeAdd (heapSizeOf A ptr)
  | .none => .ok 0
  | .some inner => sizeOfExcludingSelfChecked A inner
  | .arc _ inner => sizeOfExcludingSelfChecked A inner
  | .vec buf elems => vecFoldChecked A elems 0 >>= usizeAdd (heapSizeOf A buf)
  | .dlist nodes => dlist2LoopChecked A nodes 0

/-- `self.iter().fold(0, |n, elem| n + elem.size_of_excluding_self())`, checked. -/
def vecFoldChecked (A : Allocator) : List Val → Nat → Except Panic Nat
  | [], n => .ok n
  | elem :: rest, n => do
      let s ← sizeOfExcludingSelfChecked A elem
      let n' ← usizeAdd n s
      vecFoldChecked A rest n'

/-- The `while curr.is_some()` loop, checked: the `Box` impl's addition of the
node's block to its value's measurement, then `size +=`. -/
def dlist2LoopChecked (A : Allocator) : List (Nat × Val) → Nat → Except Panic Nat
  | [], size => .ok size
  | (ptr, value) :: next, size => do
      let v ← sizeOfExcludingSelfChecked A value
      let s ← usizeAdd (heapSizeOf A ptr) v
      let size' ← usizeAdd size s
      dlist2LoopChecked A next size'

end

/-! ## The `while` loop, one round at a time

`dlist2Loop` is the loop as a function of where it starts. Below is the same
loop as the source runs it: its two variables, one round of the body, and the
rounds repeated while `curr.is_some()`, counting the tests of that condition. -/

/-- The loop's variables: `curr`, as the nodes the link reaches, and `size`. -/
structure DList2Vars where
  curr : List (Nat × Val)
  size : Nat

/-- One round: `none` when `curr.is_some()` fails; otherwise the node `curr`
points to, and the variables after `size += (*curr).size_of_excluding_self()`
(through the `Option`, `Box` and `Node` impls) and `curr = &...next`. -/
def dlist2Round (A : Allocator) : DList2Vars → Option ((Nat × Val) × DList2Vars)
  | ⟨[], _⟩ => none
  | ⟨(ptr, value) :: next, size⟩ =>
      some ((ptr, value), ⟨next, size + sizeOfExcludingSelf A (.some (.box ptr value))⟩)

/-- The loop allowed `fuel` tests of its condition: the variables it stops
with and the nodes its rounds visited, in order; `none` when the fuel runs out
first. -/
def dlist2While (A : Allocator) : Nat → DList2Vars → Option (DList2Vars × List (Nat × Val))
  | 0, _ => none
  | fuel + 1, vars =>
      match dlist2Round A vars with
      | none => some (vars, [])
      | some (node, vars') => (dlist2While A fuel vars').map fun r => (r.1, node :: r.2)

end Memprof.Heap
