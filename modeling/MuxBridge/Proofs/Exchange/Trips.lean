/-
# Single round trips

A round trip that is resumed takes its reply, is cut off, or waits on: which of the three depends on
nothing but the clock. Reply and deadlines are timed from the start, so that a deadline can only
pass before the reply is there if it is shorter than the delay of the host, or if the host never
answers.

* `RoundTrip.resume_of_due`, `RoundTrip.resume_of_passed`, `RoundTrip.resume_of_early`: the three
  ways in which a round trip goes on;
* `RoundTrip.resume_of_no_alarm`: a round trip waits for its alarms;
* `RoundTrip.Since`: when a round trip over a transport has started;
* `RoundTrip.resume_of_before`, `RoundTrip.resume_at_end`: a round trip waits for its time, and then
  ends in `Transport.outcome`.
-/
import Mathlib.Data.List.ReduceOption
import MuxBridge.Gateway.RoundTrip

namespace MuxBridge

namespace RoundTrip

variable {g : Gateway} (span : Span) {r : RoundTrip}

/-- A reply that is there is taken, whatever has become of the deadlines. -/
theorem resume_of_due (h : r.isAnswered g = true) :
    r.resume g span = (g.setHost r.host ((g.hosts r.host).answer r.request).2,
      .ended ((g.hosts r.host).answer r.request).1) := by
  rw [resume, if_pos h]

/-- The innermost deadline that has passed cuts the round trip off. -/
theorem resume_of_passed {l : Limit} (h : r.isAnswered g = false)
    (hl : r.limits.find? (Limit.hasPassed g) = some l) :
    r.resume g span = (g.report span (.requestTimedOut r.request.kind l.duration),
      .ended (.error (.timeout l.duration.millis))) := by
  rw [resume, if_neg (Bool.not_eq_true _ ▸ h), hl]

theorem resume_of_early (h : r.isAnswered g = false)
    (hl : r.limits.find? (Limit.hasPassed g) = none) :
    r.resume g span = (g, .waiting r) := by
  rw [resume, if_neg (Bool.not_eq_true _ ▸ h), hl]

/-- Sending a request changes the delay of no host. -/
theorem delay_start (g : Gateway) (t : Transport) (q : Request) (j : Nat) :
    ((start g t q).1.hosts j).delay = (g.hosts j).delay :=
  g.delay_setHost (i := t.host) (h := (g.hosts t.host).receive q) rfl j

/-- Waiting for a reply and taking it changes the delay of no host. -/
theorem delay_resume (g : Gateway) (r : RoundTrip) (j : Nat) :
    ((r.resume g span).1.hosts j).delay = (g.hosts j).delay := by
  unfold resume
  split
  · refine g.delay_setHost ?_ j
    rfl
  · split <;> rfl

/-- A round trip waits as long as none of its alarms has gone off. -/
theorem resume_of_no_alarm (h : ∀ alarm ∈ r.alarms, g.now < alarm) :
    r.resume g span = (g, .waiting r) := by
  apply resume_of_early
  · rw [isAnswered, Option.any_eq_false]
    intro answer hanswer
    have hlt := h answer (List.mem_append_left _ (Option.mem_toList.mpr hanswer))
    exact decide_eq_false (Nat.not_le.mpr hlt)
  · rw [List.find?_eq_none]
    intro l hl
    have hlt := h _ (List.mem_append_right _ (List.mem_map_of_mem hl))
    simpa [Limit.hasPassed] using hlt

/-- A round trip over a transport has started at some time, with a host of some delay. -/
structure Since (t : Transport) (delay : Option Nat) (start : Nat) (r : RoundTrip) : Prop where
  answersAt : r.answersAt = delay.map (start + ·)
  limits : r.limits = t.deadlines.reduceOption.map fun d => ⟨d, start + d.ticks⟩

theorem since_start (g : Gateway) (t : Transport) (q : Request) :
    Since t (g.hosts t.host).delay g.now (start g t q).2 := by
  refine ⟨rfl, ?_⟩
  show t.deadlines.filterMap (fun d => d.map (Limit.start g)) = _
  rw [List.reduceOption, List.map_filterMap]
  apply List.filterMap_congr
  intro d _
  cases d <;> rfl

variable {t : Transport} {delay : Option Nat} {start : Nat}

/-- The reply is there once the delay of the host is over. -/
theorem Since.isAnswered_eq (hr : r.Since t delay start) :
    r.isAnswered g = delay.any fun wait => start + wait ≤ g.now := by
  rw [isAnswered, hr.answersAt, Option.any_map]

/-- A deadline that has passed before the reply is there is shorter than the delay of the host. -/
theorem Since.shorter_of_passed {l : Limit} (hr : r.Since t delay start)
    (h : r.isAnswered g = false) (hl : r.limits.find? (Limit.hasPassed g) = some l) :
    l.duration ∈ t.deadlines.reduceOption ∧ ∀ wait ∈ delay, l.duration.ticks < wait := by
  have hmem := List.mem_of_find?_eq_some hl
  have hpassed : l.expires ≤ g.now := by simpa [Limit.hasPassed] using List.find?_some hl
  rw [hr.limits] at hmem
  obtain ⟨d, hd, rfl⟩ := List.mem_map.mp hmem
  refine ⟨hd, ?_⟩
  intro wait hwait
  obtain rfl : delay = some wait := hwait
  rw [hr.isAnswered_eq, Option.any_some, decide_eq_false_iff_not] at h
  dsimp only at hpassed ⊢
  omega

end RoundTrip

/-! ## How long a round trip takes -/

namespace Transport

variable (t : Transport) (delay : Option Nat)

/-- What a round trip waits for at most: the reply, if it ever comes, and every deadline. -/
def waits : List Nat := delay.toList ++ t.deadlines.reduceOption.map Duration.ticks

/-- How long a round trip takes, unless it waits for nothing. -/
def tripTime? : Option Nat := (t.waits delay).min?

/-- What a round trip ends in after this time, if this is the reply of the host. -/
def outcome (time : Nat) (reply : Outcome Response) : Outcome Response :=
  if delay.any (· ≤ time) then reply
  else
    match t.deadlines.reduceOption.find? (·.ticks ≤ time) with
    | some d => .error (.timeout d.millis)
    | none => reply

variable {t delay} {time wait : Nat}

theorem exists_tripTime? (h : t.waits delay ≠ []) : ∃ time, t.tripTime? delay = some time := by
  rw [← Option.isSome_iff_exists, Option.isSome_iff_ne_none]
  exact mt List.min?_eq_none_iff.mp h

theorem mem_waits_of_tripTime? (h : t.tripTime? delay = some time) : time ∈ t.waits delay :=
  List.min?_mem h

theorem le_of_tripTime? (h : t.tripTime? delay = some time) (hwait : wait ∈ t.waits delay) :
    time ≤ wait :=
  (List.min?_eq_some_iff.mp h).2 wait hwait

end Transport

namespace RoundTrip

variable {g : Gateway} (span : Span) {r : RoundTrip} {t : Transport} {delay : Option Nat}
  {start time : Nat}

theorem Since.alarms (hr : r.Since t delay start) :
    r.alarms = (t.waits delay).map (start + ·) := by
  simp only [RoundTrip.alarms, hr.answersAt, hr.limits, Transport.waits, List.map_append,
    List.map_map, Option.toList_map, Function.comp_def]

/-- The first alarm of a round trip goes off when it ends. -/
theorem Since.min?_alarms (hr : r.Since t delay start) (htime : t.tripTime? delay = some time) :
    r.alarms.min? = some (start + time) := by
  rw [hr.alarms, List.min?_eq_some_iff]
  constructor
  · exact List.mem_map_of_mem (Transport.mem_waits_of_tripTime? htime)
  · intro alarm halarm
    obtain ⟨wait, hwait, rfl⟩ := List.mem_map.mp halarm
    exact Nat.add_le_add_left (Transport.le_of_tripTime? htime hwait) start

/-- The innermost deadline that has passed is found among those of the transport. -/
theorem Since.find?_limits (hr : r.Since t delay start) :
    r.limits.find? (Limit.hasPassed g)
      = (t.deadlines.reduceOption.find? fun d => start + d.ticks ≤ g.now).map fun d =>
          ⟨d, start + d.ticks⟩ := by
  rw [hr.limits, List.find?_map]
  rfl

/-- A round trip does nothing before its time. -/
theorem resume_of_before (hr : r.Since t delay start) (htime : t.tripTime? delay = some time)
    (h : g.now < start + time) : r.resume g span = (g, .waiting r) := by
  apply resume_of_no_alarm
  rw [hr.alarms]
  intro alarm halarm
  obtain ⟨wait, hwait, rfl⟩ := List.mem_map.mp halarm
  exact Nat.lt_of_lt_of_le h
    (Nat.add_le_add_left (Transport.le_of_tripTime? htime hwait) start)

/-- At its time a round trip ends: with the reply if it is there, and cut off otherwise. -/
theorem resume_at_end (hr : r.Since t delay start) (htime : t.tripTime? delay = some time)
    (h : g.now = start + time) :
    (r.resume g span).2
      = .ended (t.outcome delay time ((g.hosts r.host).answer r.request).1) := by
  have hpassed : ∀ wait, decide (start + wait ≤ g.now) = decide (wait ≤ time) := by
    intro wait
    rw [h, Bool.eq_iff_iff, decide_eq_true_iff, decide_eq_true_iff]
    omega
  have hanswered := hr.isAnswered_eq (g := g)
  have hfind := hr.find?_limits (g := g)
  simp only [hpassed] at hanswered hfind
  rw [Transport.outcome]
  rcases hreply : delay.any (· ≤ time) with _ | _
  · rw [hreply] at hanswered
    cases hd : t.deadlines.reduceOption.find? (·.ticks ≤ time) with
    | some d =>
      rw [hd] at hfind
      rw [resume_of_passed span hanswered hfind]
      rfl
    | none =>
      -- the time is that of some deadline, since it is not that of the reply
      rcases List.mem_append.mp (Transport.mem_waits_of_tripTime? htime) with hmem | hmem
      · rw [Option.mem_toList] at hmem
        simp [hmem] at hreply
      · obtain ⟨d, hmem, heq⟩ := List.mem_map.mp hmem
        exact absurd (decide_eq_true (Nat.le_of_eq heq)) (List.find?_eq_none.mp hd d hmem)
  · rw [hreply] at hanswered
    rw [resume_of_due span hanswered]
    rfl

end RoundTrip

end MuxBridge
