import Memprof.Model.Profiler

/-!
# One print cycle

`handle_print_msg` asks every registered reporter in turn and prints what the
ones that succeeded sent. Two things could go wrong with that sentence, and
neither does: a reporter could be asked twice or a stranger asked, and a
reporter that fails or stays silent could take later reporters' lines down with
it. `handlePrintMsg_spec` rules out both for every registry and every pattern of
success, failure and silence, in the order the map's iteration fixes.

The reporters it speaks of are the ones the trait's documentation describes:
each call returns a boolean after sending some batches and dropping its sender.
What `recv` then sees is fixed by the batches, which `Collect.ofSent` records:
the first batch if there was one, the closed channel otherwise. Only the first
batch is ever read; the rest stay in the channel and go with it.
-/

namespace Memprof.Profiler

open Memprof

variable {R : Type}

/-- A call that returns `ok` after sending `batches` and dropping its sender. -/
def Collect.ofSent (sent : Bool × List (List MemoryReport)) : Collect :=
  .returns sent.1 (match sent.2 with
    | [] => .closed
    | b :: _ => .batch b)

/-- The lines one reporter contributes, read off what it sent. -/
def linesOf (sent : Bool × List (List MemoryReport)) : List Line :=
  if sent.1 then (sent.2.head?.getD []).map .report else []

theorem visit_ofSent (sent : Bool × List (List MemoryReport)) :
    visit (Collect.ofSent sent) = (linesOf sent, none) := by
  obtain ⟨ok, batches⟩ := sent
  cases ok <;> cases batches <;> rfl

theorem visit_honest {c : Collect} (h : c.Honest) : (visit c).2 = none := by
  match c, h with
  | .returns true (.batch _), _ => rfl
  | .returns true .closed, _ => rfl
  | .returns false _, _ => rfl

theorem collectEach_ofSent (sent : R → Bool × List (List MemoryReport)) (rs : List R) :
    collectEach (fun r => Collect.ofSent (sent r)) rs = ⟨rs, rs.flatMap (linesOf ∘ sent), none⟩ := by
  induction rs with
  | nil => rfl
  | cons r rs ih => simp [collectEach, visit_ofSent, ih]

/-- A cycle over honest reporters asks each of them and runs to its end. -/
theorem collectEach_honest {collect : R → Collect} {rs : List R}
    (h : ∀ r ∈ rs, (collect r).Honest) :
    (collectEach collect rs).asked = rs ∧ (collectEach collect rs).stop = none := by
  induction rs with
  | nil => exact ⟨rfl, rfl⟩
  | cons r rs ih =>
      obtain ⟨hasked, hstop⟩ := ih fun r' hr' => h r' (List.mem_cons_of_mem r hr')
      rcases hv : visit (collect r) with ⟨lines, stop⟩
      have : stop = none := by simpa [hv] using visit_honest (h r (List.mem_cons_self r rs))
      subst this
      simp [collectEach, hv, hasked, hstop]

theorem values_perm (p : MemoryProfiler R) (o : IterOrder (String × R)) :
    (p.values o).Perm ((HashMap.pairs p.reporters).map Prod.snd) :=
  (o.perm _).map Prod.snd

theorem handlePrintMsg_spec (o : IterOrder (String × R)) (sent : R → Bool × List (List MemoryReport))
    (drop : R → Dropped) (p : MemoryProfiler R) :
    (handlePrintMsg ⟨o, fun r => Collect.ofSent (sent r), drop⟩ p).asked.Perm
        ((HashMap.pairs p.reporters).map Prod.snd) ∧
      (handlePrintMsg ⟨o, fun r => Collect.ofSent (sent r), drop⟩ p).asked = p.values o ∧
      (handlePrintMsg ⟨o, fun r => Collect.ofSent (sent r), drop⟩ p).printed =
        .header :: (p.values o).flatMap (linesOf ∘ sent) ++ [.blank] ∧
      (handlePrintMsg ⟨o, fun r => Collect.ofSent (sent r), drop⟩ p).stop = none := by
  simp only [handlePrintMsg, collectEach_ofSent, Option.isNone_none, if_true, and_true]
  exact values_perm p o

/-- Over honest reporters a print cycle never stops the thread. -/
theorem handlePrintMsg_honest {w : World R} (p : MemoryProfiler R)
    (h : ∀ r, (w.collect r).Honest) : (handlePrintMsg w p).stop = none :=
  (collectEach_honest fun r _ => h r).2

/-! ## Any reporters

Whatever the reporters do, the loop asks them in the map's order up to the
first whose turn stops it, and no one after; the lines are those of the turns
taken. -/

theorem collectEach_eq (collect : R → Collect) :
    ∀ rs : List R, collectEach collect rs =
      ⟨rs.take (rs.findIdx (fun r => (visit (collect r)).2.isSome) + 1),
        (rs.take (rs.findIdx (fun r => (visit (collect r)).2.isSome) + 1)).flatMap
          (fun r => (visit (collect r)).1),
        rs.findSome? fun r => (visit (collect r)).2⟩
  | [] => rfl
  | r :: rest => by
      rcases hv : visit (collect r) with ⟨lines, _ | s⟩
      · simp [collectEach, hv, collectEach_eq collect rest, List.findIdx_cons, List.findSome?_cons]
      · simp [collectEach, hv, List.findIdx_cons, List.findSome?_cons]

end Memprof.Profiler
