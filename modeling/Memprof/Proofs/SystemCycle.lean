import Memprof.Proofs.SystemReports
import Memprof.Proofs.PrintCycle
import Memprof.Proofs.SmapsSource

/-!
# The system reporter inside a print cycle

`create` registers `SystemMemoryReporter` under `"system"`, and from then on
every print cycle calls its `collect_reports` on the profiler's own thread.
`SystemCollect` reads that call the way `handle_print_msg` does: a run that
ends sends its batch and returns `true`, a run that panics panics, and a run
whose smaps loop never ends never returns.

The last case is not hypothetical. When `/proc/self/smaps` cannot be opened,
the `BufferedReader` fails every read, the loop takes `Err(_) => continue`
forever, and `collect_reports` never returns. The cycle stops at that call at
the latest (a reporter ahead of it may stop it sooner): it asks a prefix of the
map's order that ends at the system reporter or before, nobody after it, never
prints its closing line, and the profiler thread takes no further message.
`printCycle_stops_when_smaps_fails` says so for every registry holding the
system reporter, every iteration order and every other reporter.

Over a file that opened, the loop ends after one round per line, so the call
either sends its batch and returns `true` or panics: it honours the contract
the registry law assumes of every reporter, or it kills the thread, and it never
blocks a cycle. Every batch it sends names each figure once.
-/

namespace Memprof.System

open Memprof Memprof.Profiler Memprof.Smaps

section Run

variable {ε : Type} {env : SystemEnv ε} {fuel : Nat}

/-- What a run of `collect_reports` that sends its batch went through, and the
batch it sends. -/
theorem collectReports_eq_ok {batch : List MemoryReport} :
    collectReports env fuel = some (.ok batch) ↔
      ∃ vsize resident segs heap, getVsize env = .ok vsize ∧ getResident env = .ok resident ∧
        getResidentSegments env.digits env.order env.smaps fuel = some (.ok segs) ∧
        getSystemHeapAllocated env.mallinfo = .ok heap ∧
        batch = report "vsize" vsize ++ report "resident" resident ++
          segs.map (fun seg => ⟨seg.1, seg.2⟩) ++ report "system-heap-allocated" heap ++
          report "jemalloc-heap-allocated" (getJemallocStat env.mallctl "stats.allocated") ++
          report "jemalloc-heap-active" (getJemallocStat env.mallctl "stats.active") ++
          report "jemalloc-heap-mapped" (getJemallocStat env.mallctl "stats.mapped") := by
  unfold collectReports
  rcases getVsize env with _ | vsize
  · exact iff_of_false (by simp [bind, Except.bind]) fun ⟨_, _, _, _, h, _⟩ => nomatch h
  rcases getResident env with _ | resident
  · exact iff_of_false (by simp [bind, Except.bind]) fun ⟨_, _, _, _, _, h, _⟩ => nomatch h
  simp only [ok_bind, pure, Except.pure]
  rcases getResidentSegments env.digits env.order env.smaps fuel with _ | _ | segs
  · exact iff_of_false (by simp) fun ⟨_, _, _, _, _, _, h, _⟩ => nomatch h
  · exact iff_of_false (by simp [bind, Except.bind]) fun ⟨_, _, _, _, _, _, h, _⟩ => nomatch h
  rcases getSystemHeapAllocated env.mallinfo with _ | heap
  · exact iff_of_false (by simp [bind, Except.bind]) fun ⟨_, _, _, _, _, _, _, h, _⟩ => nomatch h
  · exact ⟨fun h => ⟨vsize, resident, segs, heap, rfl, rfl, rfl, rfl, (Except.ok.inj (Option.some.inj h)).symm⟩,
      fun ⟨_, _, _, _, rfl, rfl, rfl, rfl, hb⟩ => hb ▸ rfl⟩

/-- While the smaps loop has not ended, neither has `collect_reports`. -/
theorem collectReports_of_smaps_none {vsize resident : Option Nat} (hv : getVsize env = .ok vsize)
    (hr : getResident env = .ok resident)
    (hs : getResidentSegments env.digits env.order env.smaps fuel = none) :
    collectReports env fuel = none := by
  unfold collectReports
  rw [hv, ok_bind, hr, ok_bind]
  simp only [pure, Except.pure, hs, Option.map_none']

/-- A call whose run never ends is, to the cycle, a call that never returns. -/
theorem SystemCollect.eq_diverges {c : Collect} (hc : SystemCollect env c)
    (h : ∀ fuel, collectReports env fuel = none) : c = .diverges := by
  cases hc with
  | sends hb => simp [h] at hb
  | panics _ hp => simp [h] at hp
  | diverges _ => rfl

/-- Over a file that opened, the smaps loop ends, and with it `collect_reports`. -/
theorem collectReports_isSome {ls : List String} (hsmaps : env.smaps = openSmaps (.ok ls)) :
    (collectReports env (ls.length + 1)).isSome := by
  unfold collectReports
  split
  · rfl
  · rw [hsmaps, getResidentSegments_ofLines ls (Nat.lt_succ_self _)]
    rfl

end Run

theorem systemCollect_of_smaps_opens {ε : Type} {env : SystemEnv ε} {ls : List String}
    (hsmaps : env.smaps = openSmaps (.ok ls)) {c : Collect} (hc : SystemCollect env c) :
    c.Honest ∨ ∃ text, c = .panics text := by
  cases hc with
  | sends _ => exact .inl trivial
  | panics text _ => exact .inr ⟨text, rfl⟩
  | diverges h => exact absurd (collectReports_isSome hsmaps) (by simp [h])

/-- A `report` call contributes its name or nothing. -/
theorem report_names_sublist (name : String) (size : Option Nat) :
    ((report name size).map MemoryReport.name).Sublist [name] := by
  cases size <;> simp [report]

theorem collectReports_names_nodup {ε : Type} {env : SystemEnv ε} {fuel : Nat} {batch : List MemoryReport}
    (h : collectReports env fuel = some (.ok batch)) : (batch.map MemoryReport.name).Nodup := by
  obtain ⟨vsize, resident, segs, heap, -, -, hs, -, rfl⟩ := collectReports_eq_ok.mp h
  obtain ⟨hnodup, hdash⟩ := getResidentSegments_names hs
  have hS : ((segs.map fun seg => (⟨seg.1, seg.2⟩ : MemoryReport)).map MemoryReport.name).Sublist
      (segs.map Prod.fst) := by
    rw [List.map_map]
    exact List.Sublist.refl _
  have hsub : (_ : List String).Sublist (["vsize", "resident"] ++ (segs.map Prod.fst ++
      ["system-heap-allocated", "jemalloc-heap-allocated", "jemalloc-heap-active", "jemalloc-heap-mapped"])) :=
    (report_names_sublist _ vsize).append ((report_names_sublist _ resident).append (hS.append
      ((report_names_sublist _ heap).append
        ((report_names_sublist _ (getJemallocStat env.mallctl "stats.allocated")).append
          ((report_names_sublist _ (getJemallocStat env.mallctl "stats.active")).append
            (report_names_sublist _ (getJemallocStat env.mallctl "stats.mapped")))))))
  -- the names it holds besides the segments' are neither dashed nor the total's
  have hnot : ∀ y, ¬Dashed y → y ≠ totalName → y ∉ segs.map Prod.fst := fun y hd ht hy => by
    obtain ⟨x, hx, rfl⟩ := List.mem_map.mp hy
    exact (hdash x hx).elim hd ht
  have hA : ∀ y ∈ ["vsize", "resident"], ¬Dashed y ∧ y ≠ totalName := by decide
  have hB : ∀ y ∈ ["system-heap-allocated", "jemalloc-heap-allocated", "jemalloc-heap-active",
      "jemalloc-heap-mapped"], ¬Dashed y ∧ y ≠ totalName := by decide
  simp only [List.map_append, List.append_assoc]
  exact hsub.nodup (List.nodup_append.mpr ⟨by decide,
    List.nodup_append.mpr ⟨hnodup, by decide, fun y hy hy' => hnot y (hB y hy').1 (hB y hy').2 hy⟩,
    List.disjoint_append_right.mpr ⟨fun y hy hy' => hnot y (hA y hy).1 (hA y hy).2 hy',
      fun y hy => (by decide : ∀ y ∈ ["vsize", "resident"], y ∉ ["system-heap-allocated",
        "jemalloc-heap-allocated", "jemalloc-heap-active", "jemalloc-heap-mapped"]) y hy⟩⟩)

/-- The system reporter where `statm` cannot be read, the smaps listing is empty
and the allocators have nothing allocated. -/
def quietSystem : SystemEnv Unit :=
  ⟨⟨fun _ => false⟩, fun _ => .error (), 4096, DigitClass.asciiOnly, IterOrder.asListed _,
    openSmaps (.ok []), ⟨⟨0, by decide⟩, ⟨0, by decide⟩⟩, ⟨fun _ => 0, fun _ => (0, 0)⟩⟩

/-- The batch of `quietSystem`: the smaps total and the four heap figures, all zero. -/
def quietBatch : List MemoryReport :=
  [⟨totalName, 0⟩, ⟨"system-heap-allocated", 0⟩, ⟨"jemalloc-heap-allocated", 0⟩,
    ⟨"jemalloc-heap-active", 0⟩, ⟨"jemalloc-heap-mapped", 0⟩]

theorem collectReports_quietSystem : collectReports quietSystem 1 = some (.ok quietBatch) := by
  have hs : getResidentSegments quietSystem.digits quietSystem.order quietSystem.smaps 1 =
      some (.ok [(totalName, 0)]) := by
    rw [show quietSystem.smaps = openSmaps (.ok [] : Except Unit (List String)) from rfl,
      getResidentSegments_ofLines [] (by decide), @residentSegments_of_scan _ _ [] _ rfl,
      show ScanState.init.segMap = ∅ from rfl, finish_empty,
      sortBySizeDesc_of_sorted (List.pairwise_singleton _ _)]
  exact (@collectReports_eq_ok Unit quietSystem 1 _).mpr ⟨none, none, _, some 0, rfl, rfl, hs, rfl, rfl⟩

theorem collectReports_quietSystem_names_nodup :
    collectReports quietSystem 1 = some (.ok quietBatch) ∧ (quietBatch.map MemoryReport.name).Nodup :=
  ⟨collectReports_quietSystem, collectReports_names_nodup collectReports_quietSystem⟩

theorem systemCollect_quietSystem :
    quietSystem.smaps = openSmaps (.ok []) ∧ SystemCollect quietSystem (.returns true (.batch quietBatch)) ∧
      ((Collect.returns true (.batch quietBatch)).Honest ∨
        ∃ text, Collect.returns true (.batch quietBatch) = .panics text) :=
  have hc : SystemCollect quietSystem (.returns true (.batch quietBatch)) := .sends collectReports_quietSystem
  ⟨rfl, hc, @systemCollect_of_smaps_opens Unit quietSystem [] rfl _ hc⟩

/-- The lines of a reporter's turn are report lines. -/
theorem mem_visit_lines {c : Collect} {l : Line} (h : l ∈ (visit c).1) : ∃ r, l = .report r := by
  match c, h with
  | .returns true (.batch reports), h =>
      obtain ⟨r, -, rfl⟩ := List.mem_map.mp h
      exact ⟨r, rfl⟩

/-- A registered reporter is one `values()` yields. -/
theorem mem_values {R : Type} {p : MemoryProfiler R} (o : IterOrder (String × R)) {name : String} {r : R}
    (h : p.reporters.lookup name = some r) : r ∈ p.values o :=
  List.mem_map.mpr ⟨(name, r), (o.perm _).mem_iff.mpr (HashMap.mem_pairs.mpr h), rfl⟩

theorem printCycle_stops_when_smaps_fails {R ε : Type} (env : SystemEnv ε) (e : ε)
    (hsmaps : env.smaps = openSmaps (.error e)) {vsize resident : Option Nat}
    (hv : getVsize env = .ok vsize) (hr : getResident env = .ok resident)
    (w : World R) (p : MemoryProfiler R) {system : R} (hreg : p.reporters.lookup "system" = some system)
    (hc : SystemCollect env (w.collect system)) :
    (handlePrintMsg w p).asked <+: p.values w.order ∧
      (∀ i, (p.values w.order)[i]? = some system → (handlePrintMsg w p).asked.length ≤ i + 1) ∧
      (handlePrintMsg w p).stop ≠ none ∧ Line.blank ∉ (handlePrintMsg w p).printed := by
  have hdiv : w.collect system = .diverges := hc.eq_diverges fun fuel =>
    collectReports_of_smaps_none hv hr (by
      simp only [getResidentSegments, hsmaps, openSmaps, scanSource_failedOpen, Option.map_none'])
  -- the system reporter's turn stops the cycle
  have hsys : (visit (w.collect system)).2.isSome := by simp [hdiv, visit]
  have hasked : (handlePrintMsg w p).asked = (p.values w.order).take
      ((p.values w.order).findIdx (fun r => (visit (w.collect r)).2.isSome) + 1) := by
    simp only [handlePrintMsg, collectEach_eq]
  have hstop : (handlePrintMsg w p).stop ≠ none := by
    simp only [handlePrintMsg, collectEach_eq, ne_eq, List.findSome?_eq_none_iff, not_forall]
    exact ⟨system, mem_values w.order hreg, by simp [hdiv, visit]⟩
  refine ⟨hasked ▸ List.take_prefix _ _, fun i hi => ?_, hstop, fun hb => ?_⟩
  · obtain ⟨hlt, hget⟩ := List.getElem?_eq_some_iff.mp hi
    have hfind : (p.values w.order).findIdx (fun r => (visit (w.collect r)).2.isSome) ≤ i :=
      Nat.le_of_not_lt fun h => by simpa [hget, hsys] using List.not_of_lt_findIdx h
    rw [hasked, List.length_take]
    omega
  simp only [handlePrintMsg, Option.isNone_iff_eq_none] at hstop hb
  rw [if_neg hstop, List.append_nil, List.mem_cons, collectEach_eq, List.mem_flatMap] at hb
  rcases hb with hb | ⟨r, -, hl⟩
  · cases hb
  · obtain ⟨_, h⟩ := mem_visit_lines hl
    cases h

/-- The system reporter alone, in an environment whose smaps cannot be opened. -/
def unreadableSmaps : SystemEnv Unit :=
  ⟨⟨fun _ => false⟩, fun _ => .error (), 4096, DigitClass.asciiOnly, IterOrder.asListed _,
    openSmaps (.error ()), ⟨⟨0, by decide⟩, ⟨0, by decide⟩⟩, ⟨fun _ => 0, fun _ => (0, 0)⟩⟩

/-- The world of a print cycle over `unreadableSmaps`: its call never returns. -/
def stuckSystem : World Unit := ⟨IterOrder.asListed _, fun _ => .diverges, fun _ => .returns⟩

/-- The registry `create` leaves: the system reporter alone. -/
def systemOnly : MemoryProfiler Unit := ⟨AList.insert "system" () ∅⟩

theorem printCycle_stops_unreadableSmaps :
    unreadableSmaps.smaps = openSmaps (.error ()) ∧ getVsize unreadableSmaps = .ok none ∧
      getResident unreadableSmaps = .ok none ∧ systemOnly.reporters.lookup "system" = some () ∧
      SystemCollect unreadableSmaps (stuckSystem.collect ()) ∧
      (handlePrintMsg stuckSystem systemOnly).asked <+: systemOnly.values stuckSystem.order ∧
      (∀ i, (systemOnly.values stuckSystem.order)[i]? = some () →
        (handlePrintMsg stuckSystem systemOnly).asked.length ≤ i + 1) ∧
      (handlePrintMsg stuckSystem systemOnly).stop ≠ none ∧
      Line.blank ∉ (handlePrintMsg stuckSystem systemOnly).printed :=
  have hc : SystemCollect unreadableSmaps .diverges := .diverges fun fuel =>
    collectReports_of_smaps_none rfl rfl (by
      simp only [getResidentSegments, unreadableSmaps, openSmaps, scanSource_failedOpen, Option.map_none'])
  ⟨rfl, rfl, rfl, rfl, hc,
    printCycle_stops_when_smaps_fails unreadableSmaps () rfl rfl rfl stuckSystem systemOnly rfl hc⟩

end Memprof.System
