import Memprof.Proofs.PrintCycle

/-!
# The registry law over whole runs

The spec's account of the profiler thread is a law about its registry: start
empty, take messages in order, add a name on `RegisterMemoryReporter` and drop
it on `UnregisterMemoryReporter`, abort on a register of a name already there
or an unregister of one that is not, stop at `Exit`. `lawRun` is that law over a
partial map, written as the spec words it. `start_registry_law` says the
thread's loop, with its `HashMap`, its insert-then-check and its remove-then-check,
computes the same count of handled messages, the same ending and the same
registry, for every message sequence, from any state.

The law holds on a condition the code does not check: the reporters' own code
must come back. A reporter's `collect_reports` runs on the profiler's thread;
when it panics, the thread unwinds although no registry precondition was
broken, and when it reports success and then never answers, `recv` holds the
thread forever. The same goes for a reporter's destructor, which an unregister
runs when it drops the box it removed. `start_stops_on_panicking_reporter` shows
such runs. Over honest reporters, whose calls and destructors return, neither a
print nor an unregister stops the thread on its own account, and the law is
exact.

Since the statement quantifies over every starting state, it holds after
every handled message: the run over the first `k` messages that ends because
the port closed is the run the longer one went through.
-/

namespace Memprof.Profiler

open Memprof

variable {R : Type}

/-- The spec's law over a partial registry: how many messages are handled, how
the run ends, and the registry at the end. -/
def lawRun (reg : String → Option R) : List (MemoryProfilerMsg R) → Nat × Ending × (String → Option R)
  | [] => (0, .closed, reg)
  | .exit :: _ => (1, .exited, reg)
  | .print :: rest => let r := lawRun reg rest; (r.1 + 1, r.2)
  | .registerMemoryReporter name reporter :: rest =>
      if (reg name).isSome then (1, .stopped (.panicked (registerInUse name)), reg)
      else
        let r := lawRun (Function.update reg name (some reporter)) rest
        (r.1 + 1, r.2)
  | .unregisterMemoryReporter name :: rest =>
      if (reg name).isNone then (1, .stopped (.panicked (unregisterUnknown name)), reg)
      else
        let r := lawRun (Function.update reg name none) rest
        (r.1 + 1, r.2)

/-- One message's effect on the registry, as the spec describes it. -/
def registryStep (reg : String → Option R) : MemoryProfilerMsg R → String → Option R
  | .registerMemoryReporter name reporter => Function.update reg name (some reporter)
  | .unregisterMemoryReporter name => Function.update reg name none
  | _ => reg

/-- The registry after `msgs`: each register adds its name, mapped to its
reporter, each unregister removes its name. -/
def expected (msgs : List (MemoryProfilerMsg R)) : String → Option R :=
  msgs.foldl registryStep fun _ => none

/-- A law run that got to the end of the port kept every step of the fold. -/
theorem lawRun_closed : ∀ {msgs : List (MemoryProfilerMsg R)} {reg : String → Option R},
    (lawRun reg msgs).2.1 = .closed → (lawRun reg msgs).2.2 = msgs.foldl registryStep reg
  | [], _, _ => rfl
  | .exit :: _, _, h => by simp [lawRun] at h
  | .print :: rest, reg, h => @lawRun_closed rest reg h
  | .registerMemoryReporter name reporter :: rest, reg, h => by
      by_cases hn : (reg name).isSome
      · simp [lawRun, hn] at h
      · simp only [lawRun, hn] at h ⊢
        exact lawRun_closed h
  | .unregisterMemoryReporter name :: rest, reg, h => by
      by_cases hn : (reg name).isNone
      · simp [lawRun, hn] at h
      · simp only [lawRun, hn] at h ⊢
        exact lawRun_closed h

/-- A world whose reporters all honour the trait and whose destructors return. -/
def World.Honest (w : World R) : Prop := ∀ r, (w.collect r).Honest ∧ w.drop r = .returns

/-! ## One message

What `handle_msg` does to the registry, one lemma per message. -/

section
variable {w : World R} {p : MemoryProfiler R} {name : String}

theorem handleMsg_register_fresh {reporter : R} (h : p.reporters.lookup name = none) :
    (handleMsg w p (.registerMemoryReporter name reporter)).result =
      .ok (true, ⟨AList.insert name reporter p.reporters⟩) := by
  simp [handleMsg, HashMap.insert, h]

theorem handleMsg_register_taken {reporter : R} (h : p.reporters.lookup name ≠ none) :
    (handleMsg w p (.registerMemoryReporter name reporter)).result =
      .error (.panicked (registerInUse name)) := by
  obtain ⟨r, hr⟩ := Option.ne_none_iff_exists'.mp h
  simp [handleMsg, HashMap.insert, hr]

theorem handleMsg_unregister_known {r : R} (h : p.reporters.lookup name = some r)
    (hd : (w.drop r).stop = none) :
    (handleMsg w p (.unregisterMemoryReporter name)).result =
      .ok (true, ⟨p.reporters.erase name⟩) := by
  simp [handleMsg, HashMap.remove, h, hd]

theorem handleMsg_unregister_dropped {r : R} {s : Stop} (h : p.reporters.lookup name = some r)
    (hd : (w.drop r).stop = some s) :
    (handleMsg w p (.unregisterMemoryReporter name)).result = .error s := by
  simp [handleMsg, HashMap.remove, h, hd]

theorem handleMsg_unregister_unknown (h : p.reporters.lookup name = none) :
    (handleMsg w (p : MemoryProfiler R) (.unregisterMemoryReporter name)).result =
      .error (.panicked (unregisterUnknown name)) := by
  simp [handleMsg, HashMap.remove, h]

theorem handleMsg_print_honest (hw : w.Honest) :
    (handleMsg w p .print).result = .ok (true, p) := by
  simp [handleMsg, handlePrintMsg_honest p fun r => (hw r).1]

theorem handleMsg_exit : (handleMsg w p .exit).result = .ok (false, p) := rfl

end

/-! ## Whole runs -/

theorem lookup_insert_update {m : HashMap String R} {reg : String → Option R}
    (h : ∀ n, m.lookup n = reg n) (k : String) (v : R) :
    ∀ n, (AList.insert k v m).lookup n = Function.update reg k (some v) n := by
  intro n
  by_cases e : n = k
  · subst e; simp [AList.lookup_insert]
  · simp [AList.lookup_insert_ne e, e, h]

theorem lookup_erase_update {m : HashMap String R} {reg : String → Option R}
    (h : ∀ n, m.lookup n = reg n) (k : String) :
    ∀ n, (m.erase k).lookup n = Function.update reg k none n := by
  intro n
  by_cases e : n = k
  · subst e; simp [AList.lookup_erase]
  · simp [AList.lookup_erase_ne e, e, h]

/-- The run of `start` from a state whose registry is `reg` refines the law,
whatever is left in the port. -/
theorem start_refines_lawRun (w : Nat → World R) (hw : ∀ k, (w k).Honest) :
    ∀ (msgs : List (MemoryProfilerMsg R)) (k : Nat) (p : MemoryProfiler R)
      (reg : String → Option R), (∀ n, p.reporters.lookup n = reg n) →
      (start w k p msgs).handled = (lawRun reg msgs).1 ∧
      (start w k p msgs).ending = (lawRun reg msgs).2.1 ∧
      ∀ n, (start w k p msgs).profiler.reporters.lookup n = (lawRun reg msgs).2.2 n
  | [], _, _, _, hreg => ⟨rfl, rfl, hreg⟩
  | .exit :: _, k, p, reg, hreg => by
      simp [start, handleMsg_exit, lawRun, hreg]
  | .print :: rest, k, p, reg, hreg => by
      obtain ⟨h1, h2, h3⟩ := start_refines_lawRun w hw rest (k + 1) p reg hreg
      simp only [start, handleMsg_print_honest (hw k), lawRun]
      exact ⟨by rw [h1], h2, h3⟩
  | .registerMemoryReporter name reporter :: rest, k, p, reg, hreg => by
      by_cases hn : (reg name).isSome
      · have hp : p.reporters.lookup name ≠ none := by simpa [hreg, Option.isSome_iff_ne_none] using hn
        simp [start, handleMsg_register_taken hp, lawRun, hn, hreg]
      · have hp : p.reporters.lookup name = none := by simpa [hreg] using hn
        obtain ⟨h1, h2, h3⟩ := start_refines_lawRun w hw rest (k + 1)
          ⟨AList.insert name reporter p.reporters⟩ _ (lookup_insert_update hreg name reporter)
        simp only [start, handleMsg_register_fresh hp, lawRun, hn]
        exact ⟨by rw [h1]; rfl, h2, h3⟩
  | .unregisterMemoryReporter name :: rest, k, p, reg, hreg => by
      by_cases hn : (reg name).isNone
      · have hp : p.reporters.lookup name = none := by simpa [hreg] using hn
        simp [start, handleMsg_unregister_unknown hp, lawRun, hn, hreg]
      · obtain ⟨r, hp⟩ : ∃ r, p.reporters.lookup name = some r := by
          simpa [hreg, Option.isNone_iff_eq_none, Option.ne_none_iff_exists'] using hn
        obtain ⟨h1, h2, h3⟩ := start_refines_lawRun w hw rest (k + 1)
          ⟨p.reporters.erase name⟩ _ (lookup_erase_update hreg name)
        simp only [start, handleMsg_unregister_known hp (by rw [(hw k r).2]; rfl), lawRun, hn]
        exact ⟨by rw [h1]; rfl, h2, h3⟩

/-- The run over `xs ++ ys` goes through the run over `xs`: when the port would
have closed after `xs`, it carries on over `ys` from where that run stopped. -/
theorem start_append (w : Nat → World R) : ∀ (xs ys : List (MemoryProfilerMsg R)) (k : Nat)
    (p : MemoryProfiler R), start w k p (xs ++ ys) =
      if (start w k p xs).ending = .closed then
        ⟨(start w (k + xs.length) (start w k p xs).profiler ys).profiler,
          (start w k p xs).handled + (start w (k + xs.length) (start w k p xs).profiler ys).handled,
          (start w k p xs).printed ++ (start w (k + xs.length) (start w k p xs).profiler ys).printed,
          (start w (k + xs.length) (start w k p xs).profiler ys).ending⟩
      else start w k p xs
  | [], ys, k, p => by simp [start]
  | msg :: xs, ys, k, p => by
      rw [List.cons_append, start, start]
      rcases h : (handleMsg (w k) p msg).result with s | ⟨_ | _, p'⟩
      · simp
      · simp
      · have hk : k + 1 + xs.length = k + (xs.length + 1) := by omega
        simp only [start_append w xs ys (k + 1) p', List.length_cons, hk]
        split <;> simp_all [Nat.add_right_comm]

theorem start_registry_law (w : Nat → World R) (hw : ∀ k, (w k).Honest)
    (msgs : List (MemoryProfilerMsg R)) :
    ((start w 0 (MemoryProfiler.new R) msgs).handled = (lawRun (fun _ => none) msgs).1 ∧
      (start w 0 (MemoryProfiler.new R) msgs).ending = (lawRun (fun _ => none) msgs).2.1 ∧
      ∀ n, (start w 0 (MemoryProfiler.new R) msgs).profiler.reporters.lookup n =
        (lawRun (fun _ => none) msgs).2.2 n) ∧
    ∀ j, (start w 0 (MemoryProfiler.new R) (msgs.take j)).ending = .closed →
      ∀ n, (start w 0 (MemoryProfiler.new R) (msgs.take j)).profiler.reporters.lookup n =
        expected (msgs.take j) n := by
  refine ⟨start_refines_lawRun w hw msgs 0 _ _ fun _ => rfl, fun j hj n => ?_⟩
  obtain ⟨-, h2, h3⟩ :=
    start_refines_lawRun w hw (msgs.take j) 0 (MemoryProfiler.new R) (fun _ => none) fun _ => rfl
  rw [h3, lawRun_closed (h2 ▸ hj), expected]

/-- Reporters that succeed and send nothing, and go quietly. -/
def quietReporters : World Unit :=
  ⟨IterOrder.asListed _, fun _ => .returns true .closed, fun _ => .returns⟩

theorem start_registry_law_quiet :
    (start (fun _ => quietReporters) 0 (MemoryProfiler.new Unit)
        [.registerMemoryReporter "a" (), .print, .unregisterMemoryReporter "a"]).ending =
      (lawRun (fun _ => none)
        [MemoryProfilerMsg.registerMemoryReporter "a" (), .print, .unregisterMemoryReporter "a"]).2.1 :=
  (start_registry_law (fun _ => quietReporters) (fun _ _ => ⟨trivial, rfl⟩) _).1.2.1

theorem values_insert_empty (o : IterOrder (String × R)) (name : String) (r : R) :
    MemoryProfiler.values ⟨AList.insert name r ∅⟩ o = [r] := by
  show (o.arrange [(name, r)]).map Prod.snd = [r]
  rw [List.perm_singleton.mp (o.perm _)]
  rfl

/-- Runs that break no registry precondition, which the law runs to the closing
of the port, and which still stop the thread: a reporter that panics when asked
stops it at the first print, one that reports success and never answers blocks
it there, and one whose destructor panics stops it at its unregister. -/
theorem start_stops_on_panicking_reporter (order : Nat → IterOrder (String × R))
    (collect : Nat → R → Collect) (drop : Nat → R → Dropped) (name text : String) (r : R) :
    (start (fun k => ⟨order k, fun _ => .panics text, drop k⟩) 0 (MemoryProfiler.new R)
        [.registerMemoryReporter name r, .print]).ending = .stopped (.panicked text) ∧
      (start (fun k => ⟨order k, fun _ => .returns true .never, drop k⟩) 0 (MemoryProfiler.new R)
        [.registerMemoryReporter name r, .print]).ending = .stopped .blocked ∧
      (start (fun k => ⟨order k, collect k, fun _ => .panics text⟩) 0 (MemoryProfiler.new R)
        [.registerMemoryReporter name r, .unregisterMemoryReporter name]).ending =
          .stopped (.panicked text) ∧
      (lawRun (fun _ => none) [.registerMemoryReporter name r, .print]).2.1 = .closed ∧
      (lawRun (fun _ => none) [.registerMemoryReporter name r, .unregisterMemoryReporter name]).2.1 =
        .closed := by
  simp [start, handleMsg, HashMap.insert, HashMap.remove, MemoryProfiler.new, handlePrintMsg,
    -AList.insert_empty, values_insert_empty, AList.lookup_insert, collectEach, visit, Dropped.stop,
    lawRun]

end Memprof.Profiler
