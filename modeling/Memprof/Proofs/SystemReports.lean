import Memprof.Model.System
import Memprof.Proofs.SmapsScan

/-!
# What the system reporter sends

Each figure of the batch is exact while its arithmetic fits and a panic once
it does not. `statm` counts pages, and `npages * page_size` is a `u64`
product: any count of at least `2^64 / page_size` pages overflows it, which at
4 KiB pages is `2^52`. `mallinfo` counts bytes in `c_int`s, and the code adds
`hblkhd` and `uordblks` before widening, so any pair of nonnegative counts whose
sum reaches `2^31`, a heap of 2 GiB, overflows the sum. Either panic ends
`collect_reports` before it sends anything, and the print cycle that called it.
-/

namespace Memprof.System

open Memprof Memprof.Smaps

theorem asU64_of_nonneg {x : CInt} (h : 0 ≤ x.val) : x.asU64 = x.val.toNat := by
  have := x.range
  unfold CInt.asU64
  rw [Int.emod_eq_of_lt h (by unfold cIntLimit at this; omega)]

/-- The heap figure is the exact sum of two nonnegative counts while it fits
a `c_int`, and a panic from there on. -/
theorem getSystemHeapAllocated_eq {info : Mallinfo} (h₁ : 0 ≤ info.hblkhd.val)
    (h₂ : 0 ≤ info.uordblks.val) :
    getSystemHeapAllocated info =
      if info.hblkhd.val + info.uordblks.val < cIntLimit then
        .ok (some (info.hblkhd.val + info.uordblks.val).toNat)
      else .error .overflow := by
  unfold getSystemHeapAllocated
  split
  · have hr : cIntMin ≤ info.hblkhd.val + info.uordblks.val ∧
        info.hblkhd.val + info.uordblks.val < cIntLimit := ⟨by unfold cIntMin; omega, ‹_›⟩
    rw [show info.hblkhd.add info.uordblks = .ok ⟨_, hr⟩ from dif_pos hr, ok_bind,
      asU64_of_nonneg (show 0 ≤ info.hblkhd.val + info.uordblks.val by omega)]
    rfl
  · rw [show info.hblkhd.add info.uordblks = .error .overflow from dif_neg fun h => ‹¬_› h.2]
    rfl

/-- A `statm` word that parses gives the exact byte count while the product
fits a `u64`, and a panic from there on. -/
theorem getProcSelfStatmField_eq {ε : Type} {w : SpaceClass} {contents word : String}
    {pageSize field npages : Nat} (hw : (words w contents)[field]? = some word)
    (hp : parseU64 word = some npages) :
    getProcSelfStatmField w (.ok contents : Except ε String) pageSize field =
      if npages * pageSize < u64Limit then .ok (some (npages * pageSize)) else .error .overflow := by
  simp only [getProcSelfStatmField, hw, hp, u64Mul, checkU64]
  split <;> rfl

section Run

variable {ε : Type} {env : SystemEnv ε} {fuel : Nat} {p : Panic}

theorem collectReports_of_vsize_error (h : getVsize env = .error p) :
    collectReports env fuel = some (.error p) := by
  unfold collectReports
  rw [h]
  rfl

theorem collectReports_of_heap_error {vsize resident : Option Nat} {segs : List (String × Nat)}
    (hv : getVsize env = .ok vsize) (hr : getResident env = .ok resident)
    (hs : getResidentSegments env.digits env.order env.smaps fuel = some (.ok segs))
    (hh : getSystemHeapAllocated env.mallinfo = .error p) :
    collectReports env fuel = some (.error p) := by
  unfold collectReports
  rw [hv, ok_bind, hr, ok_bind]
  simp only [pure, Except.pure, hs, Option.map_some', ok_bind, hh]
  rfl

end Run

/-- A heap of 2 GiB: `hblkhd` and `uordblks` of 1 GiB each. -/
def twoGiBHeap : Mallinfo :=
  ⟨⟨2 ^ 30, by unfold cIntMin cIntLimit; omega⟩, ⟨2 ^ 30, by unfold cIntMin cIntLimit; omega⟩⟩

theorem collectReports_overflows {ε : Type} (w : SpaceClass) (d : DigitClass)
    (o : IterOrder (String × Nat)) (info : Mallinfo) (mc : Mallctl) (e : ε) (fuel : Nat) :
    collectReports ⟨w, fun _ => .error e, 4096, d, o, .ofLines [], twoGiBHeap, mc⟩ (fuel + 1) =
      some (.error .overflow) ∧
    collectReports (⟨w, fun _ => .ok "4503599627370496 1 0 1 0 0 0\n", 4096, d, o, .ofLines [], info, mc⟩ :
        SystemEnv ε) fuel =
      some (.error .overflow) := by
  constructor
  · have hseg : getResidentSegments d o (LineSource.ofLines [] : LineSource ε) (fuel + 1) =
        some (.ok (sortBySizeDesc [(totalName, 0)])) := by
      have h : getResidentSegments d o (openSmaps (.ok [] : Except ε (List String))) (fuel + 1) =
          some (residentSegments d o []) := getResidentSegments_ofLines [] (Nat.succ_pos fuel)
      have hscan : ([] : List String).foldlM (scanLine d) ScanState.init = .ok ScanState.init := rfl
      rw [residentSegments_of_scan hscan] at h
      exact h.trans (congrArg _ finish_empty)
    have hheap : getSystemHeapAllocated twoGiBHeap = .error .overflow := by
      rw [getSystemHeapAllocated_eq (by decide) (by decide), if_neg (by decide)]
    exact collectReports_of_heap_error rfl rfl hseg hheap
  · have hw : (words w "4503599627370496 1 0 1 0 0 0\n")[0]? = some "4503599627370496" := rfl
    have hp : parseU64 "4503599627370496" = some 4503599627370496 := rfl
    have hv : getProcSelfStatmField w (.ok "4503599627370496 1 0 1 0 0 0\n" : Except ε String) 4096 0 =
        .error .overflow := by
      rw [getProcSelfStatmField_eq hw hp, if_neg (by decide)]
    exact collectReports_of_vsize_error hv

end Memprof.System
