import Memprof.Model.Smaps
import Memprof.Model.Profiler

/-!
# `SystemMemoryReporter`

The system reporter asks the operating system and the two allocators for
their figures and sends them as one batch: `vsize` and `resident` from
`/proc/self/statm`, one entry per segment from `get_resident_segments`,
`system-heap-allocated` from glibc's `mallinfo`, and three `jemalloc` statistics
through `je_mallctl`. A figure that cannot be had is left out of the batch.

What the reporter reads is the environment, `SystemEnv`: the text of
`/proc/self/statm` at each of its two reads, the page size, the smaps line
source, the `mallinfo` record and what `je_mallctl` answers. Only the Linux
build is modelled. `statm` is split by `words()`, whose whitespace class is
Unicode's `White_Space`: exact within ASCII, a parameter beyond it, as the
digits of the smaps regexes are.

`mallinfo`'s fields are `c_int`s, and the code adds two of them as `c_int`s
before widening, so the sum is checked against the `c_int` range as a debug
build checks it; a release build would wrap it and sign-extend the result.
Only `hblkhd` and `uordblks` are read; the other eight fields are left out.
-/

namespace Memprof.System

open Memprof Memprof.Profiler Memprof.Smaps

/-- The least `c_int`. -/
def cIntMin : Int := -2 ^ 31

/-- The greatest `c_int` plus one. -/
def cIntLimit : Int := 2 ^ 31

/-- A `c_int`: an `i32`. -/
structure CInt where
  val : Int
  range : cIntMin ≤ val ∧ val < cIntLimit
  deriving DecidableEq

/-- `a + b` on `c_int`. -/
def CInt.add (a b : CInt) : Except Panic CInt :=
  if h : cIntMin ≤ a.val + b.val ∧ a.val + b.val < cIntLimit then .ok ⟨a.val + b.val, h⟩
  else .error .overflow

/-- `x as u64`: two's complement, sign-extended. -/
def CInt.asU64 (x : CInt) : Nat := (x.val % 2 ^ 64).toNat

/-- The fields of `struct_mallinfo` that the code reads. -/
structure Mallinfo where
  hblkhd : CInt
  uordblks : CInt

/-- `get_system_heap_allocated`. -/
def getSystemHeapAllocated (info : Mallinfo) : Except Panic (Option Nat) := do
  let sum ← info.hblkhd.add info.uordblks
  pure (some sum.asU64)

/-- `char::is_whitespace`: the characters beyond ASCII. -/
structure SpaceClass where
  nonAscii : Char → Bool

/-- Whether `c` is whitespace: within ASCII, the space and `\t` to `\r`. -/
def SpaceClass.test (w : SpaceClass) (c : Char) : Bool :=
  if c.toNat < 128 then c = ' ' || ('\t' ≤ c && c ≤ '\r') else w.nonAscii c

/-- `str::words`: the nonempty runs between whitespace. -/
def words (w : SpaceClass) (s : String) : List String :=
  ((s.data.splitOnP w.test).filter (· ≠ [])).map String.mk

/-- `get_proc_self_statm_field`: the `field`-th word of `statm` times the page
size, when the file was read and the word is a `u64`. -/
def getProcSelfStatmField {ε : Type} (w : SpaceClass) (statm : Except ε String) (pageSize field : Nat) :
    Except Panic (Option Nat) :=
  match statm with
  | .error _ => .ok none
  | .ok contents =>
      match (words w contents)[field]? with
      | none => .ok none
      | some s =>
          match parseU64 s with
          | none => .ok none
          | some npages => (u64Mul npages pageSize).map some

/-- What `je_mallctl` answers. -/
structure Mallctl where
  /-- The return value of the `"epoch"` request made before reading a name. -/
  epoch : String → Int
  /-- The return value of the request for a name, and the value it stores. -/
  read : String → Int × Nat

/-- `get_jemalloc_stat`. -/
def getJemallocStat (mc : Mallctl) (valueName : String) : Option Nat :=
  if mc.epoch valueName ≠ 0 then none
  else if (mc.read valueName).1 ≠ 0 then none
  else some (mc.read valueName).2

/-- Everything `collect_reports` reads. -/
structure SystemEnv (ε : Type) where
  spaces : SpaceClass
  /-- The text of `/proc/self/statm` when the given field is read. -/
  statm : Nat → Except ε String
  pageSize : Nat
  digits : DigitClass
  order : IterOrder (String × Nat)
  smaps : LineSource ε
  mallinfo : Mallinfo
  mallctl : Mallctl

/-- `get_vsize`. -/
def getVsize {ε : Type} (env : SystemEnv ε) : Except Panic (Option Nat) :=
  getProcSelfStatmField env.spaces (env.statm 0) env.pageSize 0

/-- `get_resident`. -/
def getResident {ε : Type} (env : SystemEnv ε) : Except Panic (Option Nat) :=
  getProcSelfStatmField env.spaces (env.statm 1) env.pageSize 1

/-- The `report` closure: a report when there is a size. -/
def report (name : String) : Option Nat → List MemoryReport
  | some size => [⟨name, size⟩]
  | none => []

/-- `SystemMemoryReporter::collect_reports`: the batch it sends, in order, with
the smaps loop given `fuel` rounds; `none` when the loop has not ended. -/
def collectReports {ε : Type} (env : SystemEnv ε) (fuel : Nat) :
    Option (Except Panic (List MemoryReport)) :=
  match getVsize env >>= fun vsize => getResident env >>= fun resident => pure (vsize, resident) with
  | .error p => some (.error p)
  | .ok (vsize, resident) =>
      (getResidentSegments env.digits env.order env.smaps fuel).map fun segs => do
        let segs ← segs
        let heap ← getSystemHeapAllocated env.mallinfo
        pure (report "vsize" vsize ++ report "resident" resident ++
          segs.map (fun seg => ⟨seg.1, seg.2⟩) ++
          report "system-heap-allocated" heap ++
          report "jemalloc-heap-allocated" (getJemallocStat env.mallctl "stats.allocated") ++
          report "jemalloc-heap-active" (getJemallocStat env.mallctl "stats.active") ++
          report "jemalloc-heap-mapped" (getJemallocStat env.mallctl "stats.mapped"))

/-- `collect_reports` as `handle_print_msg` sees it. It sends its batch and
returns `true` once its run ends, the channel's receiver being alive while the
cycle waits; it panics when the run panics, with a text the runtime writes; and
it never returns while the smaps loop never ends. -/
inductive SystemCollect {ε : Type} (env : SystemEnv ε) : Collect → Prop where
  | sends {fuel : Nat} {batch : List MemoryReport} :
      collectReports env fuel = some (.ok batch) → SystemCollect env (.returns true (.batch batch))
  | panics {fuel : Nat} {p : Panic} (text : String) :
      collectReports env fuel = some (.error p) → SystemCollect env (.panics text)
  | diverges : (∀ fuel, collectReports env fuel = none) → SystemCollect env .diverges

end Memprof.System
