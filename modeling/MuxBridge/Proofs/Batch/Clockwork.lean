/-
# Jobs that mind only the clock

Jobs that share a schedule may still have nothing to do with each other: if a job does nothing
before its first alarm, and then what it would do at that time in any state, it makes no difference
to it who else is there. `Clockwork` says so of all jobs of a workshop; then each of them comes to
its end at its time, in a schedule with any others.

* `Clockwork.orderly_step`: every step of a schedule keeps its jobs in time, and leaves less to do;
* `Clockwork.run_start`: all jobs that start together come to their ends.
-/
import Mathlib
import MuxBridge.Schedule

namespace MuxBridge

variable {σ τ ρ : Type}

/-- The time of the first alarm of a job. -/
def Workshop.due (w : Workshop σ τ ρ) (t : τ) : Nat := (w.alarms t).min?.getD 0

/-- What comes of a job whose first alarm goes off: it ends, or it waits for a later alarm and has
less left to do. -/
inductive Fulfils (w : Workshop σ τ ρ) (Sound : JobPath → τ → Prop) (left : τ → Nat)
    (Ends : JobPath → ρ → Nat → Prop) (p : JobPath) (t : τ) : Advance τ ρ → Prop where
  | ended {r : ρ} (hends : Ends p r (w.due t)) : Fulfils w Sound left Ends p t (.ended r)
  | waiting {t' : τ} (hsound : Sound p t') (hdue : w.due t < w.due t') (hleft : left t' < left t) :
      Fulfils w Sound left Ends p t (.waiting t')

/-- Jobs that mind only the clock, on states that fit: the sound jobs under each path, how many
alarms they have left, and what each path may end in and when. -/
structure Clockwork (w : Workshop σ τ ρ) (Fits : σ → Prop) (Sound : JobPath → τ → Prop)
    (left : τ → Nat) (Ends : JobPath → ρ → Nat → Prop) : Prop where
  now_moveTo : ∀ s time, w.now (w.moveTo s time) = time
  fits_moveTo : ∀ s time, Fits s → Fits (w.moveTo s time)
  alarms : ∀ p t, Sound p t → w.alarms t ≠ []
  /-- Nobody is woken but by the clock. -/
  asleep : ∀ s p t, Sound p t → w.isReady s t = false
  early : ∀ s p t, Fits s → Sound p t → w.now s < w.due t → w.resume s t = (s, .waiting t)
  fits : ∀ s p t, Fits s → Sound p t → w.now s = w.due t →
    Fits (w.resume s t).1 ∧ w.now (w.resume s t).1 = w.now s
  fulfils : ∀ s p t, Fits s → Sound p t → w.now s = w.due t →
    Fulfils w Sound left Ends p t (w.resume s t).2

namespace Clockwork

variable {w : Workshop σ τ ρ} {Fits : σ → Prop} {Sound : JobPath → τ → Prop} {left : τ → Nat}
  {Ends : JobPath → ρ → Nat → Prop} {s s' : Schedule σ τ ρ} {paths : List JobPath}

/-! ## Schedules in order -/

/-- A schedule in which no job has missed its alarm, and none of the jobs under some paths is
missing. -/
structure Orderly (w : Workshop σ τ ρ) (Fits : σ → Prop) (Sound : JobPath → τ → Prop)
    (Ends : JobPath → ρ → Nat → Prop) (paths : List JobPath) (s : Schedule σ τ ρ) : Prop where
  fits : Fits s.state
  runnable : ∀ j ∈ s.runnable, Sound j.1 j.2 ∧ w.now s.state ≤ w.due j.2
  waiting : ∀ j ∈ s.waiting, Sound j.1 j.2 ∧ w.now s.state < w.due j.2
  ended : ∀ j ∈ s.ended, ∃ r, j.2.1 = some r ∧ Ends j.1 r j.2.2
  present : ∀ p ∈ paths,
    p ∈ s.runnable.map Prod.fst ∨ p ∈ s.waiting.map Prod.fst ∨ p ∈ s.ended.map Prod.fst

/-- What is left to do for a job that can go on: if it does so before its alarm, it is only to wait
for it. -/
def workOf (w : Workshop σ τ ρ) (left : τ → Nat) (now : Nat) (t : τ) : Nat :=
  if w.due t ≤ now then 2 * left t + 1 else 2 * left t + 3

/-- What is left to do. -/
def work (w : Workshop σ τ ρ) (left : τ → Nat) (s : Schedule σ τ ρ) : Nat :=
  (s.runnable.map fun j => workOf w left (w.now s.state) j.2).sum +
    (s.waiting.map fun j => 2 * left j.2 + 2).sum

/-- Whoever is woken has less to do than while it waited. -/
theorem sum_wake_add_length_le (left : τ → Nat) (p : τ → Bool) (l : List (JobPath × τ)) :
    ((l.filter fun j => p j.2).map fun j => 2 * left j.2 + 1).sum +
      ((l.filter fun j => !p j.2).map fun j => 2 * left j.2 + 2).sum +
      (l.filter fun j => p j.2).length ≤ (l.map fun j => 2 * left j.2 + 2).sum := by
  induction l with
  | nil => simp
  | cons j l ih =>
    cases hp : p j.2 <;>
    · simp only [List.filter_cons, hp, Bool.not_true, Bool.not_false, if_true,
        Bool.false_eq_true, if_false, List.map_cons, List.sum_cons, List.length_cons]
      omega

/-! ## Jobs that start together -/

/-- Jobs that start together have at most this much to do. -/
theorem work_start_le (g : σ) (jobs : List τ) :
    work w left (Schedule.start g jobs) ≤ (jobs.map fun t => 2 * left t + 3).sum := by
  have hjobs : ((Schedule.branches [] jobs).map fun j => workOf w left (w.now g) j.2)
      = jobs.map (workOf w left (w.now g)) := by
    rw [Schedule.branches, List.map_map]
    conv_rhs => rw [← List.zipIdx_map_fst 0 jobs, List.map_map]
    rfl
  show ((Schedule.branches [] jobs).map fun j => workOf w left (w.now g) j.2).sum + 0 ≤ _
  rw [hjobs, Nat.add_zero]
  clear hjobs
  induction jobs with
  | nil => exact le_rfl
  | cons t jobs ih =>
    have hwork : workOf w left (w.now g) t ≤ 2 * left t + 3 := by
      rw [workOf]
      split <;> omega
    simp only [List.map_cons, List.sum_cons]
    omega

theorem mem_branches_iff {jobs : List τ} {j : JobPath × τ} :
    j ∈ Schedule.branches [] jobs ↔ ∃ k, jobs[k]? = some j.2 ∧ [k] = j.1 := by
  simp only [Schedule.branches, List.mem_map, Prod.exists, List.mem_zipIdx_iff_getElem?,
    List.nil_append, Prod.ext_iff]
  constructor
  · rintro ⟨t, k, hk, hpath, rfl⟩
    exact ⟨k, hk, hpath⟩
  · rintro ⟨k, hk, hpath⟩
    exact ⟨j.2, k, hk, hpath, rfl⟩

/-! ## Single steps -/

section

variable (h : Clockwork w Fits Sound left Ends)
include h

theorem min?_alarms {p : JobPath} {t : τ} (ht : Sound p t) :
    (w.alarms t).min? = some (w.due t) := by
  cases hmin : (w.alarms t).min? with
  | none => exact absurd (List.min?_eq_none_iff.mp hmin) (h.alarms p t ht)
  | some a => rw [Workshop.due, hmin]; rfl

/-- Nobody is woken when a job has gone on. -/
theorem wake_isReady (g : σ) (hsound : ∀ j ∈ s.waiting, Sound j.1 j.2) :
    s.wake (w.isReady g) = s := by
  have hasleep : ∀ j ∈ s.waiting, w.isReady g j.2 = false :=
    fun j hj => h.asleep g j.1 j.2 (hsound j hj)
  have hnone : s.waiting.filter (fun j => w.isReady g j.2) = [] := by
    rw [List.filter_eq_nil_iff]
    intro j hj
    rw [hasleep j hj]
    decide
  have hall : s.waiting.filter (fun j => !w.isReady g j.2) = s.waiting := by
    rw [List.filter_eq_self]
    intro j hj
    rw [hasleep j hj]
    rfl
  rw [Schedule.wake, hnone, hall, List.append_nil]

end

/-- A job that has gone on is gone, or waits behind all others. -/
theorem Orderly.settle {g : σ} {p : JobPath} {t : τ} {rest extra : List (JobPath × τ)}
    {gone : List (JobPath × Option ρ × Nat)} (hs : Orderly w Fits Sound Ends paths s)
    (hr : s.runnable = (p, t) :: rest) (hfits : Fits g) (hnow : w.now g = w.now s.state)
    (hextra : ∀ j ∈ extra, Sound j.1 j.2 ∧ w.now s.state < w.due j.2)
    (hover : ∀ j ∈ gone, ∃ r, j.2.1 = some r ∧ Ends j.1 r j.2.2)
    (hp : p ∈ extra.map Prod.fst ∨ p ∈ gone.map Prod.fst) :
    Orderly w Fits Sound Ends paths ⟨g, rest, s.waiting ++ extra, s.ended ++ gone⟩ where
  fits := hfits
  runnable := by
    intro j hj
    rw [hnow]
    exact hs.runnable j (hr ▸ List.mem_cons_of_mem _ hj)
  waiting := by
    intro j hj
    rw [hnow]
    rcases List.mem_append.mp hj with hj | hj
    · exact hs.waiting j hj
    · exact hextra j hj
  ended := by
    intro j hj
    rcases List.mem_append.mp hj with hj | hj
    · exact hs.ended j hj
    · exact hover j hj
  present := by
    intro q hq
    simp only [List.map_append, List.mem_append]
    rcases hs.present q hq with hrun | hwait | hend
    · rw [hr, List.map_cons] at hrun
      rcases List.mem_cons.mp hrun with rfl | hrest
      · rcases hp with hp | hp
        · exact .inr (.inl (.inr hp))
        · exact .inr (.inr (.inr hp))
      · exact .inl hrest
    · exact .inr (.inl (.inl hwait))
    · exact .inr (.inr (.inl hend))

theorem work_settle {g : σ} {p : JobPath} {t : τ} {rest extra : List (JobPath × τ)}
    {gone : List (JobPath × Option ρ × Nat)} (hr : s.runnable = (p, t) :: rest)
    (hnow : w.now g = w.now s.state)
    (hless : (extra.map fun j => 2 * left j.2 + 2).sum < workOf w left (w.now s.state) t) :
    work w left ⟨g, rest, s.waiting ++ extra, s.ended ++ gone⟩ < work w left s := by
  simp only [work, hr, hnow, List.map_append, List.sum_append, List.map_cons, List.sum_cons]
  omega

/-- A job that waits again has less to do than before. -/
theorem Orderly.settle_waiting {g : σ} {p : JobPath} {t t' : τ} {rest : List (JobPath × τ)}
    (hs : Orderly w Fits Sound Ends paths s) (hr : s.runnable = (p, t) :: rest) (hfits : Fits g)
    (hnow : w.now g = w.now s.state) (hsound : Sound p t') (hdue : w.now s.state < w.due t')
    (hless : 2 * left t' + 2 < workOf w left (w.now s.state) t) :
    Orderly w Fits Sound Ends paths ⟨g, rest, s.waiting ++ [(p, t')], s.ended⟩ ∧
      work w left ⟨g, rest, s.waiting ++ [(p, t')], s.ended⟩ < work w left s := by
  have hextra : ∀ j ∈ [(p, t')], Sound j.1 j.2 ∧ w.now s.state < w.due j.2 := by
    intro j hj
    rw [List.mem_singleton.mp hj]
    exact ⟨hsound, hdue⟩
  have hgone : ∀ j ∈ ([] : List (JobPath × Option ρ × Nat)),
      ∃ r, j.2.1 = some r ∧ Ends j.1 r j.2.2 := by simp
  have hsettled := hs.settle hr hfits hnow hextra hgone (.inl List.mem_cons_self)
  have hwork : work w left ⟨g, rest, s.waiting ++ [(p, t')], s.ended ++ []⟩ < work w left s :=
    work_settle hr hnow (by simpa using hless)
  rw [List.append_nil] at hsettled hwork
  exact ⟨hsettled, hwork⟩

/-- A job that has come to its end has nothing more to do. -/
theorem Orderly.settle_ended {g : σ} {p : JobPath} {t : τ} {rest : List (JobPath × τ)} {r : ρ}
    (hs : Orderly w Fits Sound Ends paths s) (hr : s.runnable = (p, t) :: rest) (hfits : Fits g)
    (hnow : w.now g = w.now s.state) (hends : Ends p r (w.now g))
    (hpos : 0 < workOf w left (w.now s.state) t) :
    Orderly w Fits Sound Ends paths ⟨g, rest, s.waiting, s.ended ++ [(p, some r, w.now g)]⟩ ∧
      work w left ⟨g, rest, s.waiting, s.ended ++ [(p, some r, w.now g)]⟩ < work w left s := by
  have hextra : ∀ j ∈ ([] : List (JobPath × τ)), Sound j.1 j.2 ∧ w.now s.state < w.due j.2 := by
    simp
  have hgone : ∀ j ∈ [(p, some r, w.now g)], ∃ r, j.2.1 = some r ∧ Ends j.1 r j.2.2 := by
    intro j hj
    rw [List.mem_singleton.mp hj]
    exact ⟨r, rfl, hends⟩
  have hsettled := hs.settle hr hfits hnow hextra hgone (.inr List.mem_cons_self)
  have hwork : work w left ⟨g, rest, s.waiting ++ [], s.ended ++ [(p, some r, w.now g)]⟩
      < work w left s := work_settle hr hnow (by simpa using hpos)
  rw [List.append_nil] at hsettled hwork
  exact ⟨hsettled, hwork⟩

section Steps

variable (h : Clockwork w Fits Sound left Ends)
include h

/-- A job that goes on keeps the schedule in order, and has less to do afterwards. -/
theorem orderly_resumeJob {p : JobPath} {t : τ} {rest : List (JobPath × τ)}
    (hs : Orderly w Fits Sound Ends paths s) (hr : s.runnable = (p, t) :: rest) :
    Orderly w Fits Sound Ends paths (Schedule.resumeJob w { s with runnable := rest } p t) ∧
      work w left (Schedule.resumeJob w { s with runnable := rest } p t) < work w left s := by
  obtain ⟨hsound, hdue⟩ : Sound p t ∧ w.now s.state ≤ w.due t :=
    hs.runnable (p, t) (hr ▸ List.mem_cons_self)
  rcases Nat.eq_or_lt_of_le hdue with heq | hlt
  · obtain ⟨hfits, hnow⟩ := h.fits s.state p t hs.fits hsound heq
    have hfulfils := h.fulfils s.state p t hs.fits hsound heq
    rcases hres : w.resume s.state t with ⟨g, a⟩
    rw [hres] at hfits hnow hfulfils
    have hwork : workOf w left (w.now s.state) t = 2 * left t + 1 := if_pos heq.ge
    cases hfulfils with
    | @ended r hends =>
      have hjob : Schedule.resumeJob w { s with runnable := rest } p t
          = ⟨g, rest, s.waiting, s.ended ++ [(p, some r, w.now g)]⟩ := by
        simp only [Schedule.resumeJob, hres, Schedule.close]
      have hends' : Ends p r (w.now g) := by
        rw [hnow, heq]
        exact hends
      rw [hjob]
      exact hs.settle_ended hr hfits hnow hends' (by omega)
    | @waiting t' hsound' hdue' hleft =>
      have hjob : Schedule.resumeJob w { s with runnable := rest } p t
          = ⟨g, rest, s.waiting ++ [(p, t')], s.ended⟩ := by
        simp only [Schedule.resumeJob, hres]
      rw [hjob]
      exact hs.settle_waiting hr hfits hnow hsound' (heq ▸ hdue') (by omega)
  · have hjob : Schedule.resumeJob w { s with runnable := rest } p t
        = ⟨s.state, rest, s.waiting ++ [(p, t)], s.ended⟩ := by
      simp only [Schedule.resumeJob, h.early s.state p t hs.fits hsound hlt]
    have hwork : workOf w left (w.now s.state) t = 2 * left t + 3 := if_neg (by omega)
    rw [hjob]
    exact hs.settle_waiting hr hs.fits rfl hsound hlt (by omega)

/-- The next alarm is the first one of some job that waits, and no other job has an earlier one. -/
theorem nextAlarm?_eq {time : Nat} (hs : Orderly w Fits Sound Ends paths s)
    (htime : s.nextAlarm? w = some time) :
    (∃ j ∈ s.waiting, w.due j.2 = time) ∧ ∀ j ∈ s.waiting, time ≤ w.due j.2 := by
  obtain ⟨hmem, hle⟩ := List.min?_eq_some_iff.mp htime
  have hfirst : ∀ j ∈ s.waiting, time ≤ w.due j.2 := by
    intro j hj
    apply hle
    exact List.mem_flatMap.mpr ⟨j, hj, List.min?_mem (h.min?_alarms (hs.waiting j hj).1)⟩
  obtain ⟨j, hj, halarm⟩ := List.mem_flatMap.mp hmem
  have hdue : w.due j.2 ≤ time :=
    (List.min?_eq_some_iff.mp (h.min?_alarms (hs.waiting j hj).1)).2 time halarm
  exact ⟨⟨j, hj, le_antisymm hdue (hfirst j hj)⟩, hfirst⟩

/-- The jobs that an alarm wakes are those whose first alarm it is. -/
theorem any_alarms_iff {p : JobPath} {t : τ} {time : Nat} (ht : Sound p t) :
    (w.alarms t).any (· ≤ time) = decide (w.due t ≤ time) := by
  obtain ⟨hmem, hle⟩ := List.min?_eq_some_iff.mp (h.min?_alarms ht)
  rw [Bool.eq_iff_iff, List.any_eq_true, decide_eq_true_iff]
  constructor
  · rintro ⟨a, ha, hatime⟩
    exact (hle a ha).trans (of_decide_eq_true hatime)
  · intro hdue
    exact ⟨w.due t, hmem, decide_eq_true hdue⟩

/-- A schedule whose clock has jumped to a time and has woken the jobs with an alarm until then. -/
def atAlarm (w : Workshop σ τ ρ) (s : Schedule σ τ ρ) (time : Nat) : Schedule σ τ ρ :=
  ⟨w.moveTo s.state time, s.waiting.filter fun j => decide (w.due j.2 ≤ time),
    s.waiting.filter fun j => !decide (w.due j.2 ≤ time), s.ended⟩

/-- If no alarm is passed over, those that are woken are in time. -/
theorem orderly_atAlarm {time : Nat} (hs : Orderly w Fits Sound Ends paths s)
    (hr : s.runnable = []) (hle : ∀ j ∈ s.waiting, time ≤ w.due j.2) :
    Orderly w Fits Sound Ends paths (atAlarm w s time) where
  fits := h.fits_moveTo _ _ hs.fits
  runnable := by
    intro j hj
    have hj := List.mem_of_mem_filter hj
    show Sound j.1 j.2 ∧ w.now (w.moveTo s.state time) ≤ w.due j.2
    rw [h.now_moveTo]
    exact ⟨(hs.waiting j hj).1, hle j hj⟩
  waiting := by
    intro j hj
    obtain ⟨hj, hlate⟩ := List.mem_filter.mp hj
    show Sound j.1 j.2 ∧ w.now (w.moveTo s.state time) < w.due j.2
    rw [h.now_moveTo]
    refine ⟨(hs.waiting j hj).1, ?_⟩
    simpa using hlate
  ended := hs.ended
  present := by
    intro p hp
    rcases hs.present p hp with hrun | hwait | hend
    · rw [hr] at hrun
      cases hrun
    · obtain ⟨j, hj, rfl⟩ := List.mem_map.mp hwait
      by_cases hdue : w.due j.2 ≤ time
      · left
        exact List.mem_map_of_mem (List.mem_filter.mpr ⟨hj, decide_eq_true hdue⟩)
      · right; left
        exact List.mem_map_of_mem (List.mem_filter.mpr ⟨hj, by simpa using hdue⟩)
    · exact .inr (.inr hend)

/-- If somebody is woken, there is less to do. -/
theorem work_atAlarm {time : Nat} (hr : s.runnable = []) {j₀ : JobPath × τ} (hj₀ : j₀ ∈ s.waiting)
    (hfirst : w.due j₀.2 ≤ time) : work w left (atAlarm w s time) < work w left s := by
  have hwork : ((s.waiting.filter fun j => decide (w.due j.2 ≤ time)).map fun j =>
        workOf w left time j.2)
      = (s.waiting.filter fun j => decide (w.due j.2 ≤ time)).map fun j => 2 * left j.2 + 1 := by
    apply List.map_congr_left
    intro j hj
    exact if_pos (of_decide_eq_true (List.mem_filter.mp hj).2)
  have hone : 0 < (s.waiting.filter fun j => decide (w.due j.2 ≤ time)).length :=
    List.length_pos_of_mem (List.mem_filter.mpr ⟨hj₀, decide_eq_true hfirst⟩)
  have hsum := sum_wake_add_length_le left (fun t => decide (w.due t ≤ time)) s.waiting
  simp only [work, atAlarm, h.now_moveTo, hwork, hr, List.map_nil, List.sum_nil]
  omega

/-- The clock jumps to the next alarm and wakes the jobs that it is set for. -/
theorem orderly_alarm {time : Nat} (hs : Orderly w Fits Sound Ends paths s)
    (hr : s.runnable = []) (htime : s.nextAlarm? w = some time) :
    ∃ s', s.step w = some s' ∧ Orderly w Fits Sound Ends paths s' ∧
      work w left s' < work w left s := by
  obtain ⟨⟨j₀, hj₀, hfirst⟩, hle⟩ := h.nextAlarm?_eq hs htime
  have hmax : max time (w.now s.state) = time :=
    max_eq_left (hfirst ▸ (hs.waiting j₀ hj₀).2.le)
  have hwoken : (s.waiting.filter fun j => (w.alarms j.2).any (· ≤ time))
      = s.waiting.filter fun j => decide (w.due j.2 ≤ time) :=
    List.filter_congr fun j hj => h.any_alarms_iff (hs.waiting j hj).1
  have hasleep : (s.waiting.filter fun j => !(w.alarms j.2).any (· ≤ time))
      = s.waiting.filter fun j => !decide (w.due j.2 ≤ time) :=
    List.filter_congr fun j hj => by rw [h.any_alarms_iff (hs.waiting j hj).1]
  refine ⟨atAlarm w s time, ?_, h.orderly_atAlarm hs hr hle, h.work_atAlarm hr hj₀ hfirst.le⟩
  simp only [Schedule.step, hr, htime, hmax, Schedule.wake, h.now_moveTo, List.nil_append, hwoken,
    hasleep, atAlarm]

/-- Every step keeps the schedule in order, and leaves less to do. -/
theorem orderly_step (hs : Orderly w Fits Sound Ends paths s) (hstep : s.step w = some s') :
    Orderly w Fits Sound Ends paths s' ∧ work w left s' < work w left s := by
  cases hr : s.runnable with
  | nil =>
    cases htime : s.nextAlarm? w with
    | none => simp [Schedule.step, hr, htime] at hstep
    | some time =>
      obtain ⟨s'', hstep', horderly⟩ := h.orderly_alarm hs hr htime
      rw [Option.some.inj (hstep.symm.trans hstep')]
      exact horderly
  | cons j rest =>
    obtain ⟨p, t⟩ := j
    obtain ⟨horderly, hwork⟩ := h.orderly_resumeJob hs hr
    have hwake := h.wake_isReady
      (Schedule.resumeJob w { s with runnable := rest } p t).state fun j hj =>
        (horderly.waiting j hj).1
    simp only [Schedule.step, hr, hwake, Option.some.injEq] at hstep
    subst hstep
    exact ⟨horderly, hwork⟩

/-- No step is left only when all jobs have come to their ends. -/
theorem ended_of_step_none (hs : Orderly w Fits Sound Ends paths s) (hstep : s.step w = none)
    {p : JobPath} (hp : p ∈ paths) :
    ∃ r time, s.result? p = some (some r, time) ∧ Ends p r time := by
  obtain ⟨hrunnable, hwaiting⟩ : s.runnable = [] ∧ s.waiting = [] := by
    cases hr : s.runnable with
    | cons j rest => simp [Schedule.step, hr] at hstep
    | nil =>
      refine ⟨rfl, ?_⟩
      cases htime : s.nextAlarm? w with
      | some time => simp [Schedule.step, hr, htime] at hstep
      | none =>
        rw [Schedule.nextAlarm?, List.min?_eq_none_iff, List.flatMap_eq_nil_iff] at htime
        rw [List.eq_nil_iff_forall_not_mem]
        intro j hj
        exact h.alarms j.1 j.2 (hs.waiting j hj).1 (htime j hj)
  have hended : p ∈ s.ended.map Prod.fst := by
    have hpresent := hs.present p hp
    rw [hrunnable, hwaiting] at hpresent
    simpa using hpresent
  cases hresult : s.result? p with
  | none =>
    obtain ⟨j, hj, rfl⟩ := List.mem_map.mp hended
    have hnone := List.lookup_eq_none_iff.mp hresult j hj
    simp at hnone
  | some o =>
    obtain ⟨l₁, l₂, hsplit, -⟩ := List.lookup_eq_some_iff.mp hresult
    obtain ⟨r, hr, hends⟩ := hs.ended (p, o) (hsplit ▸ List.mem_append_right _ List.mem_cons_self)
    obtain ⟨o, time⟩ := o
    obtain rfl : o = some r := hr
    exact ⟨r, time, rfl, hends⟩

/-- A schedule in order is over after as many steps as there is work left. -/
theorem orderly_run (hs : Orderly w Fits Sound Ends paths s) {fuel : Nat}
    (hfuel : work w left s ≤ fuel) :
    Orderly w Fits Sound Ends paths (s.run w fuel) ∧ (s.run w fuel).step w = none := by
  induction fuel generalizing s with
  | zero =>
    refine ⟨hs, ?_⟩
    cases hstep : s.step w with
    | none => exact hstep
    | some s' =>
      have hless := (h.orderly_step hs hstep).2
      omega
  | succ fuel ih =>
    rw [Schedule.run]
    cases hstep : s.step w with
    | none => exact ⟨hs, hstep⟩
    | some s' =>
      obtain ⟨hs', hless⟩ := h.orderly_step hs hstep
      exact ih hs' (by omega)

/-- **Jobs that mind only the clock come to their ends** in whatever company they start. -/
theorem run_start {g : σ} {jobs : List τ} (hfits : Fits g)
    (hjobs : ∀ k t, jobs[k]? = some t → Sound [k] t ∧ w.now g ≤ w.due t) {fuel : Nat}
    (hfuel : (jobs.map fun t => 2 * left t + 3).sum ≤ fuel) :
    Fits ((Schedule.start g jobs).run w fuel).state ∧
      ((Schedule.start g jobs).run w fuel).step w = none ∧
      ∀ k < jobs.length, ∃ r time,
        ((Schedule.start g jobs).run w fuel).result? [k] = some (some r, time) ∧
          Ends [k] r time := by
  have hstart : Orderly w Fits Sound Ends ((List.range jobs.length).map fun k => [k])
      (Schedule.start g jobs) := by
    constructor
    · exact hfits
    · intro j hj
      obtain ⟨k, hk, hpath⟩ := mem_branches_iff.mp hj
      rw [← hpath]
      exact hjobs k j.2 hk
    · intro j hj
      cases hj
    · intro j hj
      cases hj
    · intro p hp
      obtain ⟨k, hk, rfl⟩ := List.mem_map.mp hp
      have hget := List.getElem?_eq_getElem (List.mem_range.mp hk)
      exact .inl (List.mem_map_of_mem (mem_branches_iff (j := ([k], _)).mpr ⟨k, hget, rfl⟩))
  obtain ⟨horderly, hover⟩ := h.orderly_run hstart ((work_start_le g jobs).trans hfuel)
  refine ⟨horderly.fits, hover, ?_⟩
  intro k hk
  apply h.ended_of_step_none horderly hover
  exact List.mem_map_of_mem (List.mem_range.mpr hk)

end Steps

end Clockwork

end MuxBridge
