import Mathlib

/-!
# What the profiler borrows from Rust's runtime

`memory.rs` leans on a handful of library behaviours that decide what its
functions return: a panic ends the calling thread, `u64` and `usize` arithmetic
is checked, `str::parse::<u64>` rejects anything but a short run of ASCII
digits, a `HashMap` keeps one entry per key and iterates in an order of its own.
This file fixes each of them once, so that the model of the profiler itself
reads line for line against the source.

Arithmetic overflow is modelled as the debug build has it, a panic. A release
build wraps instead; the places where that matters are the ones the overflow
results below are about, and each says what the wrapped value would be.

A `HashMap` is Mathlib's `AList`: its entries with the keys kept distinct by a
field, so no state of a map can repeat a key. The order in which `values()` or
`into_iter()` hands the entries out is not the order of that list: it is some
permutation of it, fixed by the map's hashing, which `IterOrder` stands for.
-/

namespace Memprof

/-- Why a thread stopped by unwinding. -/
inductive Panic where
  /-- `panic!` with the text the source formats. -/
  | msg (text : String)
  /-- `unwrap` called on `None` or on an `Err`. -/
  | unwrap
  /-- An arithmetic overflow check of a debug build. -/
  | overflow
  deriving DecidableEq, Repr

/-- `Option::unwrap` and `Result::unwrap`, with the failure as a panic. -/
def unwrapOr : Option α → Except Panic α
  | some a => .ok a
  | none => .error .unwrap

theorem bind_eq_ok {ε α β : Type} {x : Except ε α} {f : α → Except ε β} {b : β} :
    x >>= f = .ok b ↔ ∃ a, x = .ok a ∧ f a = .ok b := by
  cases x <;> simp [bind, Except.bind]

@[simp] theorem ok_bind {ε α β : Type} (a : α) (f : α → Except ε β) : (Except.ok a >>= f) = f a :=
  rfl

@[simp] theorem pure_eq_ok {ε α : Type} {a b : α} : (pure a : Except ε α) = .ok b ↔ a = b := by
  simp [pure, Except.pure]

@[simp] theorem unwrapOr_eq_ok {α : Type} {o : Option α} {a : α} :
    unwrapOr o = .ok a ↔ o = some a := by
  cases o <;> simp [unwrapOr]

/-- The largest `u64` plus one. -/
def u64Limit : Nat := 2 ^ 64

/-- A `u64` result, or the overflow panic when it does not fit. -/
def checkU64 (n : Nat) : Except Panic Nat :=
  if n < u64Limit then .ok n else .error .overflow

/-- `a + b` on `u64`. -/
def u64Add (a b : Nat) : Except Panic Nat := checkU64 (a + b)

/-- `a * b` on `u64`. -/
def u64Mul (a b : Nat) : Except Panic Nat := checkU64 (a * b)

theorem checkU64_ok {n : Nat} (h : n < u64Limit) : checkU64 n = .ok n := if_pos h

@[simp] theorem checkU64_eq_ok {n m : Nat} : checkU64 n = .ok m ↔ n = m ∧ n < u64Limit := by
  unfold checkU64
  split <;> simp_all
  omega

@[simp] theorem u64Add_eq_ok {a b c : Nat} : u64Add a b = .ok c ↔ a + b = c ∧ a + b < u64Limit :=
  checkU64_eq_ok

@[simp] theorem u64Mul_eq_ok {a b c : Nat} : u64Mul a b = .ok c ↔ a * b = c ∧ a * b < u64Limit :=
  checkU64_eq_ok

/-- The largest `usize` plus one, on the 64-bit targets modelled. -/
def usizeLimit : Nat := 2 ^ 64

/-- `a + b` on `usize`. -/
def usizeAdd (a b : Nat) : Except Panic Nat :=
  if a + b < usizeLimit then .ok (a + b) else .error .overflow

/-- What holds of the accumulator before every step of a `foldlM` that returns
holds after it. -/
theorem foldlM_ok_inv {ε σ α : Type} {f : σ → α → Except ε σ} (P : σ → Prop)
    (hf : ∀ s a s', P s → f s a = .ok s' → P s') :
    ∀ {l : List α} {s s' : σ}, P s → l.foldlM f s = .ok s' → P s'
  | [], _, _, hs, h => by cases h; exact hs
  | a :: l, s, _, hs, h => by
      rw [List.foldlM_cons] at h
      obtain ⟨t, ht, h⟩ := bind_eq_ok.mp h
      exact foldlM_ok_inv P hf (hf s a t hs ht) h

/-- One digit of `from_str_radix` in base ten: shift the value and add the
digit; `none` on any other character. -/
def decimalStep (acc : Nat) (c : Char) : Option Nat :=
  if c.isDigit then some (acc * 10 + (c.toNat - '0'.toNat)) else none

/-- `u64::from_str`: a nonempty run of ASCII digits whose value fits, with the
checked multiply and add of `from_str_radix` folded into one bound. -/
def parseU64 (s : String) : Option Nat :=
  if s.isEmpty then none
  else s.data.foldlM (fun acc c => (decimalStep acc c).filter fun n => decide (n < u64Limit)) 0

/-- The decimal value of a nonempty run of ASCII digits, however large. -/
def asciiDecimal (s : String) : Option Nat :=
  if s.isEmpty then none else s.data.foldlM decimalStep 0

theorem decimalStep_le {acc n : Nat} {c : Char} (h : decimalStep acc c = some n) : acc ≤ n := by
  unfold decimalStep at h
  split at h <;> simp only [Option.some.injEq, reduceCtorEq] at h
  omega

theorem foldlM_decimalStep_le : ∀ {cs : List Char} {acc n : Nat},
    cs.foldlM decimalStep acc = some n → acc ≤ n
  | [], _, _, h => by cases h; exact le_rfl
  | c :: cs, acc, n, h => by
      obtain ⟨a, ha, h⟩ := Option.bind_eq_some.mp h
      exact le_trans (decimalStep_le ha) (foldlM_decimalStep_le h)

theorem foldlM_checked_of_decimal : ∀ {cs : List Char} {acc n : Nat},
    cs.foldlM decimalStep acc = some n → n < u64Limit →
      cs.foldlM (fun acc c => (decimalStep acc c).filter fun n => decide (n < u64Limit)) acc = some n
  | [], _, _, h, _ => h
  | c :: cs, acc, n, h, hn => by
      obtain ⟨a, ha, h⟩ := Option.bind_eq_some.mp h
      have hlt : a < u64Limit := lt_of_le_of_lt (foldlM_decimalStep_le h) hn
      rw [List.foldlM_cons, ha]
      simpa [Option.filter, hlt] using foldlM_checked_of_decimal h hn

/-- A decimal that fits parses as itself. -/
theorem parseU64_of_asciiDecimal {s : String} {n : Nat} (h : asciiDecimal s = some n)
    (hn : n < u64Limit) : parseU64 s = some n := by
  unfold asciiDecimal at h
  unfold parseU64
  split at h
  · cases h
  · rw [if_neg ‹_›]
    exact foldlM_checked_of_decimal h hn

/-- The order a `HashMap` hands its entries out in: some enumeration of them. -/
structure IterOrder (α : Type) where
  arrange : List α → List α
  perm : ∀ l, (arrange l).Perm l

/-- The order that happens to be the list's own. -/
def IterOrder.asListed (α : Type) : IterOrder α := ⟨id, List.Perm.refl⟩

/-- A `HashMap<K, V>`: one value per key. -/
abbrev HashMap (K V : Type) := AList (fun _ : K => V)

namespace HashMap

variable {K V : Type}

/-- The entries as pairs, in the list's order. -/
def pairs (m : HashMap K V) : List (K × V) := m.entries.map fun e => (e.1, e.2)

theorem pairs_keys (m : HashMap K V) : (pairs m).map Prod.fst = m.keys := by
  simp [pairs, AList.keys, List.keys]

theorem pairs_nodup_keys (m : HashMap K V) : ((pairs m).map Prod.fst).Nodup := by
  rw [pairs_keys]; exact m.keys_nodup

variable [DecidableEq K]

/-- `HashMap::insert`: the value displaced, if the key was present, and the map
with the new value under the key. -/
def insert (m : HashMap K V) (k : K) (v : V) : Option V × HashMap K V :=
  (m.lookup k, AList.insert k v m)

/-- `HashMap::remove`: the value taken out, if any, and the map without the key. -/
def remove (m : HashMap K V) (k : K) : Option V × HashMap K V :=
  (m.lookup k, m.erase k)

theorem mem_pairs {m : HashMap K V} {k : K} {v : V} :
    (k, v) ∈ pairs m ↔ m.lookup k = some v := by
  rw [← Option.mem_def, AList.mem_lookup_iff]
  simp only [pairs, List.mem_map]
  constructor
  · rintro ⟨⟨a, b⟩, h, he⟩
    cases he
    exact h
  · exact fun h => ⟨⟨k, v⟩, h, rfl⟩

end HashMap

end Memprof
