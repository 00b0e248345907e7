import Memprof.Proofs.SystemFirst

/-!
# Among the other threads, the profiler thread runs `start`

`Step` lets `create`, the timer and every caller act in any interleaving, and
lets each print cycle meet any reporters at all. Seen from the profiler thread,
none of that matters but the messages it takes off the port. In every reachable
state, what the thread holds is what `start` computes over the messages it has
received, with the worlds its print cycles met: the run handled every one of
them, and while the thread runs, the run reached the end of the port holding
the thread's profiler. This is the sense in which the sequential `start` is the
thread, and what is proved of `start` holds of the thread in the system.

The registry then needs nothing of the reporters. A run of `start` that reaches
the end of the port took every message through a `handle_msg` that returned
`true`, so each register found its name free and each unregister found its name
present, and the registry is the fold of the spec's `registryStep` over the
messages. While the thread runs, its registry is `expected` of what it received,
whatever the interleaving and whatever the reporters did.
-/

namespace Memprof.Profiler

open Memprof

variable {R : Type} {system : R} {timed : Bool}

/-! ## Runs of `start` -/

/-- `start` reads the world of a message only while it handles that message. -/
theorem start_congr {w w' : Nat → World R} :
    ∀ (msgs : List (MemoryProfilerMsg R)) (k : Nat) (p : MemoryProfiler R),
      (∀ i, k ≤ i → i < k + msgs.length → w i = w' i) → start w k p msgs = start w' k p msgs
  | [], _, _, _ => rfl
  | msg :: rest, k, p, h => by
      have hk : w k = w' k := h k le_rfl (by simp)
      simp only [start, hk]
      split
      · rfl
      · rfl
      · rw [start_congr rest (k + 1) _ fun i h₁ h₂ => h i (by omega) (by simp; omega)]

/-- A run over one message handles it, and leaves the thread running exactly
when `handle_msg` returned `true`. -/
theorem start_single (w : Nat → World R) (k : Nat) (p : MemoryProfiler R) (msg : MemoryProfilerMsg R) :
    (start w k p [msg]).handled = 1 ∧
      ∀ p', ProfilerThread.after (handleMsg (w k) p msg) = .running p' →
        (start w k p [msg]).profiler = p' ∧ (start w k p [msg]).ending = .closed := by
  rcases hres : (handleMsg (w k) p msg).result with s | ⟨_ | _, p'⟩ <;>
    simp [start, ProfilerThread.after, hres]

/-- A run that emptied the port, then one more message. -/
theorem start_snoc {w : Nat → World R} {p : MemoryProfiler R} {msgs : List (MemoryProfilerMsg R)}
    (msg : MemoryProfilerMsg R) (h : (start w 0 p msgs).ending = .closed) :
    (start w 0 p (msgs ++ [msg])).handled =
        (start w 0 p msgs).handled + (start w msgs.length (start w 0 p msgs).profiler [msg]).handled ∧
      (start w 0 p (msgs ++ [msg])).profiler =
        (start w msgs.length (start w 0 p msgs).profiler [msg]).profiler ∧
      (start w 0 p (msgs ++ [msg])).ending =
        (start w msgs.length (start w 0 p msgs).profiler [msg]).ending := by
  rw [start_append, if_pos h, Nat.zero_add]
  exact ⟨rfl, rfl, rfl⟩

/-- A run that reaches the end of the port leaves the registry the fold of
`registryStep` over its messages, whatever the reporters did. -/
theorem start_closed_registry (w : Nat → World R) :
    ∀ (msgs : List (MemoryProfilerMsg R)) (k : Nat) (p : MemoryProfiler R) (reg : String → Option R),
      (∀ n, p.reporters.lookup n = reg n) → (start w k p msgs).ending = .closed →
      ∀ n, (start w k p msgs).profiler.reporters.lookup n = msgs.foldl registryStep reg n
  | [], _, _, _, hreg, _ => hreg
  | msg :: rest, k, p, reg, hreg, hc => by
      rcases hres : (handleMsg (w k) p msg).result with s | ⟨_ | _, p'⟩
      · simp [start, hres] at hc
      · simp [start, hres] at hc
      · have hafter : ProfilerThread.after (handleMsg (w k) p msg) = .running p' := by
          simp [ProfilerThread.after, hres]
        simp only [start, hres] at hc ⊢
        refine start_closed_registry w rest (k + 1) p' _ ?_ hc
        rcases after_running hafter with ⟨rfl, rfl⟩ | ⟨n, r, rfl, -, rfl⟩ | ⟨n, rfl, -, rfl⟩
        · exact hreg
        · exact lookup_insert_update hreg n r
        · exact lookup_erase_update hreg n

/-! ## The invariant -/

/-- The profiler thread, having received `log` and being `thread` now, has run
`start` over those messages with the worlds `w` its print cycles met. -/
structure RanStart (log : List (Origin × MemoryProfilerMsg R)) (thread : ProfilerThread R)
    (w : Nat → World R) : Prop where
  /-- The run handled every message received. -/
  handled : (start w 0 (MemoryProfiler.new R) (log.map Prod.snd)).handled = log.length
  /-- While the thread runs, the run reached the end of the port holding its profiler. -/
  running : ∀ p, thread = .running p →
    (start w 0 (MemoryProfiler.new R) (log.map Prod.snd)).profiler = p ∧
      (start w 0 (MemoryProfiler.new R) (log.map Prod.snd)).ending = .closed

/-- The threads' invariant: the profiler thread is not spawned before `create`
spawns it, receives nothing before it is spawned, and from then on runs `start`. -/
structure ThreadInv (s : Sys R) : Prop where
  early : s.pc = .start ∨ s.pc = .timerSpawned → s.profiler = .notSpawned
  empty : s.profiler = .notSpawned → s.log = []
  ran : ∃ w, RanStart s.log s.profiler w

/-- Any worlds will do for a thread that has received nothing. -/
theorem RanStart.of_nil {thread : ProfilerThread R}
    (hp : ∀ p, thread = .running p → p = MemoryProfiler.new R) (w : Nat → World R) :
    RanStart [] thread w where
  handled := rfl
  running p hs := by rw [hp p hs]; exact ⟨rfl, rfl⟩

/-- Worlds for a run over no messages. -/
def silentWorlds : Nat → World R := fun _ => ⟨IterOrder.asListed _, fun _ => .diverges, fun _ => .diverges⟩

theorem ThreadInv.init : ThreadInv (Sys.init : Sys R) where
  early _ := rfl
  empty _ := rfl
  ran := ⟨silentWorlds, .of_nil (fun _ h => by cases h) _⟩

theorem ProfilerThread.after_ne_notSpawned (h : Handled R) : ProfilerThread.after h ≠ .notSpawned := by
  unfold ProfilerThread.after
  split <;> simp

/-- Receiving a message extends the thread's run by it, under the world the
step chose. -/
theorem RanStart.recv {log : List (Origin × MemoryProfilerMsg R)} {p : MemoryProfiler R}
    {w : Nat → World R} (hr : RanStart log (.running p) w) (o : Origin) (msg : MemoryProfilerMsg R)
    (wr : World R) :
    RanStart (log ++ [(o, msg)]) (ProfilerThread.after (handleMsg wr p msg))
      (Function.update w log.length wr) := by
  obtain ⟨hq, hc⟩ := hr.running p rfl
  have hcongr : start (Function.update w log.length wr) 0 (MemoryProfiler.new R) (log.map Prod.snd) =
      start w 0 (MemoryProfiler.new R) (log.map Prod.snd) :=
    start_congr _ _ _ fun i _ hi => Function.update_noteq (by simp at hi; omega) _ _
  obtain ⟨hh, hpr, he⟩ := start_snoc msg (hcongr ▸ hc)
  simp only [hcongr, hq, List.length_map] at hh hpr he
  obtain ⟨h1, hrun⟩ := start_single (Function.update w log.length wr) log.length p msg
  rw [Function.update_same] at hrun
  constructor
  · simp only [List.map_append, List.map_cons, List.map_nil, List.length_append, List.length_singleton]
    rw [hh, h1, hr.handled]
  · intro p' hp'
    obtain ⟨h2, h3⟩ := hrun p' hp'
    simp only [List.map_append, List.map_cons, List.map_nil]
    exact ⟨hpr.trans h2, he.trans h3⟩

theorem ThreadInv.step {s s' : Sys R} (hi : ThreadInv s) (hs : Step system timed s s') : ThreadInv s' := by
  cases hs with
  | spawnTimer hpc => exact ⟨fun _ => hi.early (.inl hpc), hi.empty, hi.ran⟩
  | spawnProfiler hpc =>
      have hlog := hi.empty (hi.early (.inr hpc))
      exact ⟨by simp, by simp, ⟨silentWorlds, hlog ▸ .of_nil (by simp) _⟩⟩
  | register hpc => exact ⟨by simp, hi.empty, hi.ran⟩
  | tick _ _ => exact ⟨hi.early, hi.empty, hi.ran⟩
  | timerStops _ _ => exact ⟨hi.early, hi.empty, hi.ran⟩
  | send _ _ _ => exact ⟨hi.early, hi.empty, hi.ran⟩
  | @recv p o msg _ wr hp _ =>
      obtain ⟨w, hr⟩ := hi.ran
      rw [hp] at hr
      exact ⟨fun hpc => absurd (hp.symm.trans (hi.early hpc)) (by simp),
        fun h => absurd h (ProfilerThread.after_ne_notSpawned _), ⟨_, hr.recv o msg wr⟩⟩
  | hangUp hp _ =>
      obtain ⟨w, hr⟩ := hi.ran
      exact ⟨fun hpc => absurd (hp.symm.trans (hi.early hpc)) (by simp), by simp,
        ⟨w, hr.handled, by simp⟩⟩

theorem ThreadInv.reachable {s : Sys R} (hs : Reachable system timed s) : ThreadInv s := by
  induction hs with
  | init => exact ThreadInv.init
  | step _ hstep ih => exact ih.step hstep

/-! ## The thread in the system -/

theorem profilerThread_runs_start {s : Sys R} (hs : Reachable system timed s) :
    ∃ w : Nat → World R,
      (start w 0 (MemoryProfiler.new R) (s.log.map Prod.snd)).handled = s.log.length ∧
      ∀ p, s.profiler = .running p →
        (start w 0 (MemoryProfiler.new R) (s.log.map Prod.snd)).profiler = p ∧
          (start w 0 (MemoryProfiler.new R) (s.log.map Prod.snd)).ending = .closed :=
  let ⟨w, hr⟩ := (ThreadInv.reachable hs).ran
  ⟨w, hr.handled, hr.running⟩

theorem createdThenPrint_runs_start :
    ∃ w : Nat → World Unit,
      (start w 0 (MemoryProfiler.new Unit) (createdThenPrint.log.map Prod.snd)).handled =
        createdThenPrint.log.length ∧
      ∀ p, createdThenPrint.profiler = .running p →
        (start w 0 (MemoryProfiler.new Unit) (createdThenPrint.log.map Prod.snd)).profiler = p ∧
          (start w 0 (MemoryProfiler.new Unit) (createdThenPrint.log.map Prod.snd)).ending = .closed :=
  profilerThread_runs_start createdThenPrint_reachable

theorem running_registry_eq_expected {s : Sys R} (hs : Reachable system timed s) {p : MemoryProfiler R}
    (hp : s.profiler = .running p) : ∀ n, p.reporters.lookup n = expected (s.log.map Prod.snd) n := by
  obtain ⟨w, hr⟩ := (ThreadInv.reachable hs).ran
  obtain ⟨hq, hc⟩ := hr.running p hp
  intro n
  rw [← hq, start_closed_registry w _ 0 (MemoryProfiler.new R) (fun _ => none)
    (fun _ => AList.lookup_empty _) hc, expected]

theorem createdThenPrint_registry :
    createdThenPrint.profiler = .running ⟨AList.insert "system" () ∅⟩ ∧
      ∀ n, (⟨AList.insert "system" () ∅⟩ : MemoryProfiler Unit).reporters.lookup n =
        expected (createdThenPrint.log.map Prod.snd) n :=
  ⟨rfl, running_registry_eq_expected createdThenPrint_reachable rfl⟩

end Memprof.Profiler
