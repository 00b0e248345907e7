import Memprof.Model.Create
import Memprof.Proofs.RegistryLaw

/-!
# The system reporter is registered before any caller speaks

`create` sends the registration on the channel before it returns the handle, and
the channel is one queue, so in the order of sending the registration precedes
every caller message. The timer is the only other sender, and it sends nothing
but `Print`, which leaves the registry alone; it may get in before the
registration, since `create` spawns it first. Hence, whenever the profiler thread
is about to handle a caller message, it has already handled the registration,
and `"system"` is still registered unless a caller took it out.

`CreateInv` is that argument as an invariant of every interleaving: what each
thread sends, that only timer messages precede the registration, that the
registry is empty until the registration is handled and holds `"system"` after
it. Every step keeps it (`CreateInv.step`); what one handled message can do to a
running profiler is said once, by `after_running`.
-/

namespace Memprof.Profiler

open Memprof

variable {R : Type} {system : R} {timed : Bool}

/-- What each thread puts on the channel: the timer only `Print`, `create` only
the registration. -/
def WellSent (system : R) (e : Origin × MemoryProfilerMsg R) : Prop :=
  (e.1 = .timer → e.2 = .print) ∧ (e.1 = .creator → e = systemRegistration system)

/-- The invariant of the threads around the port. -/
structure CreateInv (system : R) (s : Sys R) : Prop where
  wellSent : ∀ e ∈ s.log ++ s.port, WellSent system e
  beforeReturn : s.pc ≠ .returned → ∀ e ∈ s.log ++ s.port, e.1 = .timer
  registeredFirst : s.pc = .returned → ∃ pre post,
    s.log ++ s.port = pre ++ systemRegistration system :: post ∧
      (∀ e ∈ pre, e.1 = .timer) ∧ ∀ e ∈ post, e.1 ≠ .creator
  empty : ∀ p, s.profiler = .running p → systemRegistration system ∉ s.log →
    ∀ n, p.reporters.lookup n = none
  hasSystem : ∀ p, s.profiler = .running p → systemRegistration system ∈ s.log →
    (.caller, .unregisterMemoryReporter "system") ∉ s.log → "system" ∈ p.reporters

/-- A handled message that leaves the thread running was a print, a fresh
register or a known unregister, with the registry changed accordingly. -/
theorem after_running {w : World R} {p p' : MemoryProfiler R} {msg : MemoryProfilerMsg R}
    (h : ProfilerThread.after (handleMsg w p msg) = .running p') :
    (msg = .print ∧ p' = p) ∨
      (∃ n r, msg = .registerMemoryReporter n r ∧ p.reporters.lookup n = none ∧
        p' = ⟨AList.insert n r p.reporters⟩) ∨
      (∃ n, msg = .unregisterMemoryReporter n ∧ p.reporters.lookup n ≠ none ∧
        p' = ⟨p.reporters.erase n⟩) := by
  unfold ProfilerThread.after at h
  cases msg with
  | registerMemoryReporter n r =>
      by_cases hn : p.reporters.lookup n = none
      · rw [handleMsg_register_fresh hn] at h
        cases h
        exact .inr (.inl ⟨n, r, rfl, hn, rfl⟩)
      · rw [handleMsg_register_taken hn] at h
        cases h
  | unregisterMemoryReporter n =>
      cases hn : p.reporters.lookup n with
      | none =>
          rw [handleMsg_unregister_unknown hn] at h
          cases h
      | some r =>
          cases hd : (w.drop r).stop with
          | some s =>
              rw [handleMsg_unregister_dropped hn hd] at h
              cases h
          | none =>
              rw [handleMsg_unregister_known hn hd] at h
              cases h
              exact .inr (.inr ⟨n, rfl, hn ▸ Option.some_ne_none r, rfl⟩)
  | print =>
      cases hs : (handlePrintMsg w p).stop <;> simp [handleMsg, hs] at h
      exact .inl ⟨rfl, h.symm⟩
  | exit => cases h

/-- Until the registration is received, the head of the port is a timer message
or the registration itself. -/
theorem CreateInv.head {s : Sys R} (hi : CreateInv system s) {o : Origin}
    {msg : MemoryProfilerMsg R} {rest : List (Origin × MemoryProfilerMsg R)}
    (hport : s.port = (o, msg) :: rest) (hlog : systemRegistration system ∉ s.log) :
    o = .timer ∨ (o, msg) = systemRegistration system := by
  by_cases hpc : s.pc = .returned
  · obtain ⟨pre, post, heq, hpre, -⟩ := hi.registeredFirst hpc
    rw [hport] at heq
    rcases List.append_eq_append_iff.mp heq with ⟨a, rfl, ha⟩ | ⟨c, hl, hc⟩
    · cases a with
      | nil => exact .inr (List.cons.inj ha).1
      | cons x a =>
          obtain ⟨rfl, -⟩ := List.cons.inj ha
          exact .inl (hpre (o, msg) (by simp))
    · cases c with
      | nil => exact .inr (List.cons.inj (by simpa using hc)).1.symm
      | cons x c =>
          obtain ⟨rfl, -⟩ := List.cons.inj hc
          exact absurd (by simp [hl]) hlog
  · exact .inl (hi.beforeReturn hpc (o, msg) (by simp [hport]))

theorem CreateInv.init : CreateInv system (Sys.init : Sys R) where
  wellSent := by simp [Sys.init]
  beforeReturn := by simp [Sys.init]
  registeredFirst := nofun
  empty := by simp [Sys.init]
  hasSystem := by simp [Sys.init]

theorem mem_append_snoc {α : Type} {x e : α} {l m : List α} :
    x ∈ l ++ (m ++ [e]) ↔ x ∈ l ++ m ∨ x = e := by
  simp [or_assoc]

/-- A message `create`'s threads may send, appended after the registration. -/
theorem CreateInv.append {s : Sys R} (hi : CreateInv system s) {e : Origin × MemoryProfilerMsg R}
    (he : WellSent system e) (hc : e.1 ≠ .creator) (ht : s.pc ≠ .returned → e.1 = .timer) :
    CreateInv system { s with port := s.port ++ [e] } where
  wellSent x hx := by
    rcases mem_append_snoc.mp hx with hx | rfl
    exacts [hi.wellSent x hx, he]
  beforeReturn hpc x hx := by
    rcases mem_append_snoc.mp hx with hx | rfl
    exacts [hi.beforeReturn hpc x hx, ht hpc]
  registeredFirst hpc := by
    obtain ⟨pre, post, heq, hpre, hpost⟩ := hi.registeredFirst hpc
    refine ⟨pre, post ++ [e], ?_, hpre, ?_⟩
    · simp only [← List.append_assoc] at heq ⊢
      rw [heq]
      simp
    · simp only [List.mem_append, List.mem_singleton]
      rintro x (hx | rfl)
      exacts [hpost x hx, hc]
  empty := hi.empty
  hasSystem := hi.hasSystem

section Recv

variable {s : Sys R} {p p' : MemoryProfiler R} {o : Origin} {msg : MemoryProfilerMsg R}
  {rest : List (Origin × MemoryProfilerMsg R)} {w : World R}

/-- A message received before the registration is a timer's print, which
leaves the registry empty. -/
theorem CreateInv.recv_empty (hi : CreateInv system s) (hp : s.profiler = .running p)
    (hport : s.port = (o, msg) :: rest) (hp' : ProfilerThread.after (handleMsg w p msg) = .running p')
    (hreg' : systemRegistration system ∉ s.log ++ [(o, msg)]) : ∀ n, p'.reporters.lookup n = none := by
  have hreg : systemRegistration system ∉ s.log := fun h => hreg' (List.mem_append_left _ h)
  have hne : (o, msg) ≠ systemRegistration system := fun h => hreg' (by simp [h])
  have hm : msg = .print :=
    (hi.wellSent (o, msg) (by simp [hport])).1 ((hi.head hport hreg).resolve_right hne)
  rcases after_running hp' with ⟨-, rfl⟩ | ⟨n, r, rfl, -⟩ | ⟨n, rfl, -⟩
  · exact hi.empty p' hp hreg
  · cases hm
  · cases hm

/-- Once received, the registration stays in the registry until a caller
unregisters `"system"`: a register of another name adds to it, and no other
thread sends an unregister. -/
theorem CreateInv.recv_hasSystem (hi : CreateInv system s) (hp : s.profiler = .running p)
    (hport : s.port = (o, msg) :: rest) (hp' : ProfilerThread.after (handleMsg w p msg) = .running p')
    (hreg' : systemRegistration system ∈ s.log ++ [(o, msg)])
    (hun' : (.caller, .unregisterMemoryReporter "system") ∉ s.log ++ [(o, msg)]) :
    "system" ∈ p'.reporters := by
  have hsent := hi.wellSent (o, msg) (by simp [hport])
  by_cases hreg : systemRegistration system ∈ s.log
  · have hsys := hi.hasSystem p hp hreg fun h => hun' (List.mem_append_left _ h)
    rcases after_running hp' with ⟨-, rfl⟩ | ⟨n, r, -, -, rfl⟩ | ⟨n, rfl, -, rfl⟩
    · exact hsys
    · exact (AList.mem_insert _).mpr (.inr hsys)
    · refine AList.mem_erase.mpr ⟨?_, hsys⟩
      rintro rfl
      cases o with
      | creator => simp [WellSent, systemRegistration] at hsent
      | timer => simp [WellSent] at hsent
      | caller => exact hun' (by simp)
  · have hreg'' : systemRegistration system = (o, msg) := by simpa [hreg] using hreg'
    rcases after_running hp' with ⟨rfl, -⟩ | ⟨n, r, rfl, -, rfl⟩ | ⟨n, rfl, -⟩
    · simp [systemRegistration] at hreg''
    · simp only [systemRegistration, Prod.mk.injEq, MemoryProfilerMsg.registerMemoryReporter.injEq]
        at hreg''
      exact (AList.mem_insert _).mpr (.inl hreg''.2.1)
    · simp [systemRegistration] at hreg''

end Recv

theorem CreateInv.step {s s' : Sys R} (hi : CreateInv system s) (hs : Step system timed s s') :
    CreateInv system s' := by
  cases hs with
  | spawnTimer hpc =>
      exact ⟨hi.wellSent, fun _ => hi.beforeReturn (by simp [hpc]), fun h => by simp at h,
        hi.empty, hi.hasSystem⟩
  | spawnProfiler hpc =>
      have hall := hi.beforeReturn (by simp [hpc])
      refine ⟨hi.wellSent, fun _ => hall, fun h => by simp at h, ?_, ?_⟩
      · rintro p ⟨⟩ - n
        exact AList.lookup_empty n
      · intro p _ hreg
        simpa [systemRegistration] using hall _ (List.mem_append_left _ hreg)
  | register hpc =>
      have hall := hi.beforeReturn (by simp [hpc])
      refine ⟨fun x hx => ?_, fun h => by simp at h,
        fun _ => ⟨s.log ++ s.port, [], by simp, hall, by simp⟩, hi.empty, hi.hasSystem⟩
      rcases mem_append_snoc.mp hx with hx | rfl
      exacts [hi.wellSent x hx, ⟨by simp [systemRegistration], fun _ => rfl⟩]
  | tick _ _ => exact hi.append ⟨fun _ => rfl, by simp⟩ (by simp) fun _ => rfl
  | timerStops _ _ => exact ⟨hi.wellSent, hi.beforeReturn, hi.registeredFirst, hi.empty, hi.hasSystem⟩
  | send msg hpc _ => exact hi.append ⟨by simp, by simp⟩ (by simp) fun h => absurd hpc h
  | @recv p o msg rest w hp hport =>
      have hl : s.log ++ [(o, msg)] ++ rest = s.log ++ s.port := by simp [hport]
      exact ⟨hl ▸ hi.wellSent, hl ▸ hi.beforeReturn, hl ▸ hi.registeredFirst,
        fun _ hp' hreg' => hi.recv_empty hp hport hp' hreg',
        fun _ hp' hreg' hun' => hi.recv_hasSystem hp hport hp' hreg' hun'⟩
  | hangUp _ _ =>
      exact ⟨hi.wellSent, hi.beforeReturn, hi.registeredFirst, (fun _ h => by cases h),
        (fun _ h => by cases h)⟩

theorem CreateInv.reachable {s : Sys R} (hs : Reachable system timed s) : CreateInv system s := by
  induction hs with
  | init => exact CreateInv.init
  | step _ hstep ih => exact ih.step hstep

theorem create_registers_system_first {s : Sys R} (hs : Reachable system timed s)
    {p : MemoryProfiler R} {msg : MemoryProfilerMsg R} {rest : List (Origin × MemoryProfilerMsg R)}
    (hp : s.profiler = .running p) (hport : s.port = (.caller, msg) :: rest) :
    systemRegistration system ∈ s.log ∧
      ((.caller, .unregisterMemoryReporter "system") ∉ s.log → "system" ∈ p.reporters) := by
  have hi := CreateInv.reachable hs
  have hreg : systemRegistration system ∈ s.log := by
    by_contra h
    rcases hi.head hport h with h | h
    · cases h
    · simp [systemRegistration] at h
  exact ⟨hreg, hi.hasSystem p hp hreg⟩

/-- `create` without a timer, its registration handled, a caller's `Print` next. -/
def createdThenPrint : Sys Unit :=
  ⟨.returned, false, [(.caller, .print)], [systemRegistration ()],
    .running ⟨AList.insert "system" () ∅⟩⟩

theorem createdThenPrint_reachable : Reachable () false createdThenPrint :=
  .step (.step (.step (.step (.step .init (.spawnTimer rfl)) (.spawnProfiler rfl)) (.register rfl))
    (.recv ⟨IterOrder.asListed _, fun _ => .returns true .closed, fun _ => .returns⟩ rfl rfl))
    (.send .print rfl (by simp [ProfilerThread.after, handleMsg, HashMap.insert, MemoryProfiler.new]))

theorem createdThenPrint_has_system :
    systemRegistration () ∈ createdThenPrint.log ∧
      ((Origin.caller, MemoryProfilerMsg.unregisterMemoryReporter "system") ∉ createdThenPrint.log →
        "system" ∈ (⟨AList.insert "system" () ∅⟩ : MemoryProfiler Unit).reporters) :=
  create_registers_system_first createdThenPrint_reachable rfl rfl

end Memprof.Profiler
