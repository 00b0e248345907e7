import Memprof.Model.Profiler

/-!
# `MemoryProfiler::create` and the threads around the port

`create` opens the channel, spawns the timer thread if a period was given,
spawns the profiler thread, sends the registration of the system reporter, and
only then returns the handle. From then on any number of callers hold clones
of it. The timer sleeps and sends `Print`, as often as it likes, from the moment
it exists; it stops the first time a send fails, which is once the profiler
thread has gone.

`Sys` is every thread at once: how far `create` has got, whether the timer
still runs, what is in the channel, what the profiler thread has taken out of
it, and the profiler thread itself. `Step` is one action of one thread, in any
interleaving. The channel is one queue: each send appends, the profiler thread
takes the head. Each message carries the thread that sent it, which the code
does not see but the statements about it need.

The period only decides whether a timer exists; how long it sleeps is real time,
which the model does not keep, so a timer may fire at any point. A print cycle
may meet any reporters at all: the profiler's step takes any `World`. Dropping
every handle is one more step: it closes the channel once it is empty, and the
profiler thread's `recv` fails.
-/

namespace Memprof.Profiler

open Memprof

/-- The thread a message came from. -/
inductive Origin where
  /-- The thread that called `create`. -/
  | creator
  | timer
  /-- A holder of the returned `MemoryProfilerChan` or of a clone of it. -/
  | caller
  deriving DecidableEq, Repr

/-- How far `create` has got. -/
inductive CreatePc where
  | start
  | timerSpawned
  | profilerSpawned
  /-- The registration is sent and the handle returned. -/
  | returned
  deriving DecidableEq, Repr

/-- The profiler thread. -/
inductive ProfilerThread (R : Type) where
  | notSpawned
  | running (p : MemoryProfiler R)
  | ended

/-- Every thread's state. -/
structure Sys (R : Type) where
  pc : CreatePc
  /-- The timer thread is alive. -/
  timer : Bool
  /-- Sent and not yet received, oldest first. -/
  port : List (Origin × MemoryProfilerMsg R)
  /-- Received by the profiler thread, in order. -/
  log : List (Origin × MemoryProfilerMsg R)
  profiler : ProfilerThread R

/-- Before `create` runs. -/
def Sys.init : Sys R := ⟨.start, false, [], [], .notSpawned⟩

/-- The profiler thread after one `handle_msg`. -/
def ProfilerThread.after (h : Handled R) : ProfilerThread R :=
  match h.result with
  | .ok (true, p) => .running p
  | _ => .ended

/-- `create`'s registration of the system reporter. -/
def systemRegistration (system : R) : Origin × MemoryProfilerMsg R :=
  (.creator, .registerMemoryReporter "system" system)

/-- One action of one thread. `system` is the `SystemMemoryReporter` value and
`timed` says whether `create` was given a period. -/
inductive Step (system : R) (timed : Bool) : Sys R → Sys R → Prop where
  | spawnTimer {s : Sys R} : s.pc = .start → Step system timed s { s with pc := .timerSpawned, timer := timed }
  | spawnProfiler {s : Sys R} : s.pc = .timerSpawned →
      Step system timed s { s with pc := .profilerSpawned, profiler := .running (MemoryProfiler.new R) }
  | register {s : Sys R} : s.pc = .profilerSpawned →
      Step system timed s { s with pc := .returned, port := s.port ++ [systemRegistration system] }
  | tick {s : Sys R} : s.timer = true → s.profiler ≠ .ended →
      Step system timed s { s with port := s.port ++ [(.timer, .print)] }
  | timerStops {s : Sys R} : s.timer = true → s.profiler = .ended →
      Step system timed s { s with timer := false }
  | send {s : Sys R} (msg : MemoryProfilerMsg R) : s.pc = .returned → s.profiler ≠ .ended →
      Step system timed s { s with port := s.port ++ [(.caller, msg)] }
  | recv {s : Sys R} {p : MemoryProfiler R} {o : Origin} {msg : MemoryProfilerMsg R}
      {rest : List (Origin × MemoryProfilerMsg R)} (w : World R) :
      s.profiler = .running p → s.port = (o, msg) :: rest →
      Step system timed s
        { s with
          port := rest
          log := s.log ++ [(o, msg)]
          profiler := ProfilerThread.after (handleMsg w p msg) }
  | hangUp {s : Sys R} {p : MemoryProfiler R} : s.profiler = .running p → s.port = [] →
      Step system timed s { s with profiler := .ended }

/-- The states some interleaving reaches. -/
inductive Reachable (system : R) (timed : Bool) : Sys R → Prop where
  | init : Reachable system timed Sys.init
  | step {s s' : Sys R} : Reachable system timed s → Step system timed s s' → Reachable system timed s'

end Memprof.Profiler
