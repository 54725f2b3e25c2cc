/-
# Jobs that run alone

A schedule with a single job: the job is resumed, and while it waits the clock jumps to its next
alarm, where it is resumed again. There is nobody else to wake it or to be served before it.

* `Schedule.run_alone_waiting`: a wait is over when the next alarm goes off;
* `Schedule.result?_alone_ended`: the result of a job that ends, and the time at which it does;
* `Schedule.run_alone_alarm`: what becomes of a job that ends when its next alarm goes off.
-/
import Mathlib.Data.List.MinMax
import MuxBridge.Schedule

namespace MuxBridge

namespace Schedule

variable {σ τ ρ : Type} (w : Workshop σ τ ρ)

/-- A schedule in which one job can go on, and nothing else is going on. -/
def alone (s : σ) (path : JobPath) (t : τ) : Schedule σ τ ρ := ⟨s, [(path, t)], [], []⟩

theorem start_singleton (s : σ) (t : τ) : (start s [t] : Schedule σ τ ρ) = alone s [0] t := rfl

/-- Nothing happens any more once no step can be taken. -/
theorem run_of_step_none {s : Schedule σ τ ρ} (h : s.step w = none) (fuel : Nat) :
    s.run w fuel = s := by
  cases fuel with
  | zero => rfl
  | succ fuel => simp only [run, h]

variable {w} {s s' : σ} {t t' : τ} {r : ρ} {path : JobPath}

/-- A schedule whose only job has ended. -/
def finished (w : Workshop σ τ ρ) (s : σ) (path : JobPath) (r : ρ) : Schedule σ τ ρ :=
  ⟨s, [], [], [(path, some r, w.now s)]⟩

@[simp] theorem result?_finished : (finished w s path r).result? path = some (some r, w.now s) := by
  simp [finished, result?]

/-- A schedule is over once its only job ends. -/
theorem run_alone_ended (h : w.resume s t = (s', .ended r)) {fuel : Nat} (hfuel : 1 ≤ fuel) :
    (alone s path t).run w fuel = finished w s' path r := by
  obtain ⟨fuel, rfl⟩ := Nat.exists_eq_add_of_le' hfuel
  have hstep : (alone s path t).step w = some (finished w s' path r) := by
    simp [step, alone, resumeJob, h, close, wake, finished]
  have hfinished : (finished w s' path r).step w = none := by
    simp [step, nextAlarm?, finished]
  simp only [run, hstep, run_of_step_none w hfinished]

/-- A job that ends has its result, and the schedule is over. -/
theorem result?_alone_ended (h : w.resume s t = (s', .ended r)) {fuel : Nat} (hfuel : 1 ≤ fuel) :
    ((alone s path t).run w fuel).result? path = some (some r, w.now s') := by
  rw [run_alone_ended h hfuel, result?_finished]

/-- A job that waits is resumed when its next alarm goes off. -/
theorem run_alone_waiting {time : Nat} (h : w.resume s t = (s', .waiting t'))
    (hready : w.isReady s' t' = false) (htime : (w.alarms t').min? = some time)
    (hnow : w.now (w.moveTo s' (max time (w.now s'))) = max time (w.now s')) (fuel : Nat) :
    (alone s path t).run w (fuel + 2)
      = (alone (w.moveTo s' (max time (w.now s'))) path t').run w fuel := by
  have hwait : (alone s path t).step w = some (⟨s', [], [(path, t')], []⟩ : Schedule σ τ ρ) := by
    simp [step, alone, resumeJob, h, wake, hready]
  have halarm : (w.alarms t').any (· ≤ max time (w.now s')) = true := by
    rw [List.any_eq_true]
    exact ⟨time, List.min?_mem htime, by simp⟩
  have hwake : (⟨s', [], [(path, t')], []⟩ : Schedule σ τ ρ).step w
      = some (alone (w.moveTo s' (max time (w.now s'))) path t') := by
    simp only [step, nextAlarm?, List.flatMap_cons, List.flatMap_nil, List.append_nil, htime, wake,
      hnow, List.filter_cons, List.filter_nil, halarm, Bool.not_true, if_true, alone]
    rfl
  simp only [run, hwait, hwake]

/-- A job that does nothing before its next alarm ends as it does then. -/
theorem run_alone_alarm {time : Nat} (htime : (w.alarms t).min? = some time)
    (hnow : w.now s ≤ time) (hready : w.isReady s t = false)
    (hmove : w.now (w.moveTo s time) = time) (hstay : w.moveTo s (w.now s) = s)
    (hearly : w.now s < time → w.resume s t = (s, .waiting t))
    (hlate : w.resume (w.moveTo s time) t = (s', .ended r)) {fuel : Nat} (hfuel : 3 ≤ fuel) :
    (alone s path t).run w fuel = finished w s' path r := by
  rcases Nat.eq_or_lt_of_le hnow with heq | hlt
  · -- the alarm goes off at once
    rw [← heq, hstay] at hlate
    exact run_alone_ended hlate (by omega)
  · have hmax : max time (w.now s) = time := max_eq_left hlt.le
    obtain ⟨fuel, rfl⟩ := Nat.exists_eq_add_of_le' (show 2 ≤ fuel by omega)
    rw [run_alone_waiting (hearly hlt) hready htime (by rw [hmax, hmove]), hmax]
    exact run_alone_ended hlate (by omega)

end Schedule

end MuxBridge
