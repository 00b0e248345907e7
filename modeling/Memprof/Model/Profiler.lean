import Memprof.Model.Rust

/-!
# The memory profiler thread

`MemoryProfiler` owns the registry of reporters and nothing else; its thread
takes messages off the port one at a time and hands each to `handle_msg`. The
model follows that shape: `handleMsg` is one call of `handle_msg`, `start` is the
loop around it over the messages the port will deliver, the channel closing after
the last of them.

Reporters are code the profiler calls but does not own, so a reporter is a value
of an arbitrary type `R`, and what its `collect_reports` does is data. From
`handle_print_msg`'s side a call can do five things: return `false`; return
`true` and later reply on the channel or drop its end of it, in which case
`port.recv()` returns; return `true` and keep the sender without ever replying,
in which case `recv` waits forever; panic; or never return at all. The trait's
documentation asks only for the boolean, so the model allows every one of them,
and `Collect.Honest` names the calls that return and answer.

A reporter is a `Box<dyn MemoryReporter>`, so its destructor is foreign code
too: `handle_msg` drops the box an unregister removed before it returns, on the
profiler's thread. `Dropped` is what that destructor does.

Which reporter `handle_print_msg` asks first is the `HashMap`'s business. A
`World` fixes that order together with the reporters' behaviour, and `start`
takes one per message, so a reporter may answer differently from one cycle to
the next.

Printing is kept as the list of lines printed. The size in a report line is
formatted from an `f64`, which the model does not render: a report line is the
report it prints.
-/

namespace Memprof.Profiler

open Memprof

/-- `MemoryReport`. -/
structure MemoryReport where
  name : String
  /-- The size in bytes, a `u64`. -/
  size : Nat
  deriving DecidableEq, Repr

/-- What `port.recv()` gets after a reporter returned `true`. -/
inductive Reply where
  /-- The first batch the reporter sent. -/
  | batch (reports : List MemoryReport)
  /-- Nothing was sent and every sender was dropped: `recv` fails. -/
  | closed
  /-- Nothing is ever sent and a sender stays alive: `recv` never returns. -/
  | never
  deriving DecidableEq, Repr

/-- One call of a reporter's `collect_reports`, as `handle_print_msg` sees it. -/
inductive Collect where
  /-- The call returned `ok`; `reply` is what waits on the channel. -/
  | returns (ok : Bool) (reply : Reply)
  /-- The call panicked with `text`. -/
  | panics (text : String)
  /-- The call never returned. -/
  | diverges
  deriving DecidableEq, Repr

/-- A call that honours the trait's contract: it returns, and when it reports
success a reply or the end of the channel follows. -/
def Collect.Honest : Collect → Prop
  | .returns true .never => False
  | .returns _ _ => True
  | _ => False

/-- `MemoryProfilerMsg`, over the reporters' type. -/
inductive MemoryProfilerMsg (R : Type) where
  | registerMemoryReporter (name : String) (reporter : R)
  | unregisterMemoryReporter (name : String)
  | print
  | exit

/-- `MemoryProfiler`: the registered reporters. The port is the message list
`start` is given. -/
structure MemoryProfiler (R : Type) where
  reporters : HashMap String R

/-- `MemoryProfiler::new`. -/
def MemoryProfiler.new (R : Type) : MemoryProfiler R := ⟨∅⟩

/-- A line `handle_print_msg` prints. -/
inductive Line where
  /-- `"_size (MiB)_: _category_"`. -/
  | header
  /-- `"{:12.2}: {}"` of the size in MiB and the name. -/
  | report (r : MemoryReport)
  /-- The empty line that closes a cycle. -/
  | blank
  deriving DecidableEq, Repr

/-- Why the profiler thread stopped inside a message. -/
inductive Stop where
  | panicked (text : String)
  | blocked
  deriving DecidableEq, Repr

/-- One run of a reporter's destructor, when the profiler drops its box. -/
inductive Dropped where
  | returns
  | panics (text : String)
  | diverges
  deriving DecidableEq, Repr

/-- Where a destructor leaves the profiler's thread: running on, or stopped. -/
def Dropped.stop : Dropped → Option Stop
  | .returns => none
  | .panics text => some (.panicked text)
  | .diverges => some .blocked

/-- How the reporters behave while one message is handled. -/
structure World (R : Type) where
  /-- The order `self.reporters.values()` visits the entries in. -/
  order : IterOrder (String × R)
  collect : R → Collect
  drop : R → Dropped

/-- The reporters `values()` yields, in its order. -/
def MemoryProfiler.values (p : MemoryProfiler R) (o : IterOrder (String × R)) : List R :=
  (o.arrange (HashMap.pairs p.reporters)).map Prod.snd

/-! ## `handle_print_msg` -/

/-- What a print cycle did: the reporters it asked, the lines it printed, and
why it stopped if it did not finish. -/
structure PrintCycle (R : Type) where
  asked : List R
  printed : List Line
  stop : Option Stop

/-- One reporter's turn: the lines printed for it, and whether the cycle stops. -/
def visit : Collect → List Line × Option Stop
  | .returns true (.batch reports) => (reports.map .report, none)
  | .returns true .closed => ([], none)
  | .returns true .never => ([], some .blocked)
  | .returns false _ => ([], none)
  | .panics text => ([], some (.panicked text))
  | .diverges => ([], some .blocked)

/-- The `for reporter in self.reporters.values()` loop. -/
def collectEach (collect : R → Collect) : List R → PrintCycle R
  | [] => ⟨[], [], none⟩
  | r :: rest =>
      match visit (collect r) with
      | (lines, some s) => ⟨[r], lines, some s⟩
      | (lines, none) =>
          let c := collectEach collect rest
          ⟨r :: c.asked, lines ++ c.printed, c.stop⟩

/-- `handle_print_msg`: the header, each reporter's turn, and the blank line
once every reporter has had one. -/
def handlePrintMsg (w : World R) (p : MemoryProfiler R) : PrintCycle R :=
  let c := collectEach w.collect (p.values w.order)
  ⟨c.asked, .header :: c.printed ++ (if c.stop.isNone then [.blank] else []), c.stop⟩

/-! ## `handle_msg` and `start` -/

/-- The text of the panic on a second `RegisterMemoryReporter` of a name. -/
def registerInUse (name : String) : String :=
  "RegisterMemoryReporter: '" ++ name ++ "' name is already in use"

/-- The text of the panic on an `UnregisterMemoryReporter` of an unknown name. -/
def unregisterUnknown (name : String) : String :=
  "UnregisterMemoryReporter: '" ++ name ++ "' name is unknown"

/-- One call of `handle_msg`: the lines it printed, and either its result with
the profiler after it, or why the thread stopped in it. -/
structure Handled (R : Type) where
  printed : List Line
  result : Except Stop (Bool × MemoryProfiler R)

/-- `handle_msg`. A register inserts first and panics if the insert displaced
a reporter; an unregister removes, panics if nothing was there, and otherwise
drops the reporter it removed at the end of the `match`. -/
def handleMsg (w : World R) (p : MemoryProfiler R) : MemoryProfilerMsg R → Handled R
  | .registerMemoryReporter name reporter =>
      match HashMap.insert p.reporters name reporter with
      | (none, reporters) => ⟨[], .ok (true, ⟨reporters⟩)⟩
      | (some _, _) => ⟨[], .error (.panicked (registerInUse name))⟩
  | .unregisterMemoryReporter name =>
      match HashMap.remove p.reporters name with
      | (some removed, reporters) => ⟨[], match (w.drop removed).stop with
        | none => .ok (true, ⟨reporters⟩)
        | some s => .error s⟩
      | (none, _) => ⟨[], .error (.panicked (unregisterUnknown name))⟩
  | .print =>
      let c := handlePrintMsg w p
      ⟨c.printed, match c.stop with
        | none => .ok (true, p)
        | some s => .error s⟩
  | .exit => ⟨[], .ok (false, p)⟩

/-- How `start` ended. -/
inductive Ending where
  /-- `recv` failed: the channel closed after the last message. -/
  | closed
  /-- `handle_msg` returned `false`, on `Exit`. -/
  | exited
  /-- The thread stopped inside a message. -/
  | stopped (s : Stop)
  deriving DecidableEq, Repr

/-- A whole run of `start`: the profiler it last held, how many messages it
took from the port, what it printed, and how it ended. -/
structure Run (R : Type) where
  profiler : MemoryProfiler R
  handled : Nat
  printed : List Line
  ending : Ending

/-- `start`, over the messages the port delivers; `k` counts the messages taken
so far and picks the world for the next one. -/
def start (w : Nat → World R) (k : Nat) (p : MemoryProfiler R) :
    List (MemoryProfilerMsg R) → Run R
  | [] => ⟨p, 0, [], .closed⟩
  | msg :: rest =>
      let h := handleMsg (w k) p msg
      match h.result with
      | .error s => ⟨p, 1, h.printed, .stopped s⟩
      | .ok (false, p') => ⟨p', 1, h.printed, .exited⟩
      | .ok (true, p') =>
          let r := start w (k + 1) p' rest
          ⟨r.profiler, r.handled + 1, h.printed ++ r.printed, r.ending⟩

end Memprof.Profiler
