/-
# Punctual schedules

A deadline covers the time in the line as well as the run of the factory, so it must hold whoever
stands in front and whatever becomes of him. It does as long as the clock is punctual: time does not
pass an alarm of a call under way, so whoever's deadline passes goes on before the clock does.

* `Crowd.Punctual`: the schedules of such a clock;
* `Crowd.Timely`: nobody is under way, or has ended, behind his deadline;
* `deadlines_hold_in_line`: when and in what the calls end.
-/
import MuxBridge.Config.Basic
import MuxBridge.Proofs.Crowd.Fates
import MuxBridge.Proofs.Crowd.Progress

namespace MuxBridge

namespace Resolution

variable {g g' : Gateway} {span : Span} {r r' : Resolution} {l : Limit}

/-- Who goes on waiting is not behind his deadline. -/
theorem lt_expires_of_waiting (h : r.resume g span = (g', .waiting r')) (hl : r.limit = some l) :
    g'.now < l.expires := by
  unfold resume at h
  split at h
  · cases (Prod.mk.inj h).2
  · next g₁ r₁ hu =>
    have hlimit : r₁.limit = some l := by
      rw [eq_of_resumeUnlimited_waiting hu]
      exact hl
    split at h
    · next hnone =>
      obtain ⟨rfl, -⟩ := Prod.mk.inj h
      have hpassed := Option.filter_eq_none_iff.mp hnone l hlimit
      simpa [Limit.hasPassed] using hpassed
    · cases (Prod.mk.inj h).2

/-- A deadline is one of the alarms of its call. -/
theorem expires_mem_alarms (hl : r.limit = some l) : l.expires ∈ r.alarms := by
  simp [alarms, hl]

end Resolution

namespace Crowd

variable {i : Nat} {h : Happening} {c c' : Crowd} {front back : List Resolution}
  {q r : Resolution} {e : Ending} {l : Limit}

/-! ## Punctual clocks -/

/-- Time does not pass an alarm of a call under way. -/
def Permits (c : Crowd) : Happening → Prop
  | .elapse millis => ∀ r ∈ c.live, ∀ time ∈ r.alarms, c.gateway.now + millis ≤ time
  | _ => True

/-- Time never passes an alarm of a call under way. -/
def Punctual (i : Nat) (c : Crowd) : List Happening → Prop
  | [] => True
  | h :: hs => c.Permits h ∧ (c.step i h).Punctual i hs

instance (c : Crowd) : (h : Happening) → Decidable (c.Permits h)
  | .elapse millis =>
    inferInstanceAs (Decidable (∀ r ∈ c.live, ∀ time ∈ r.alarms, c.gateway.now + millis ≤ time))
  | .call .. | .resume .. | .abandon _ | .register _ | .reset | .meanwhile .. => .isTrue trivial

instance decidablePunctual (i : Nat) : (c : Crowd) → (hs : List Happening) →
    Decidable (c.Punctual i hs)
  | _, [] => .isTrue trivial
  | c, h :: hs =>
    have := decidablePunctual i (c.step i h) hs
    inferInstanceAs (Decidable (c.Permits h ∧ (c.step i h).Punctual i hs))

/-! ## Nobody is late -/

/-- Nobody is under way behind his deadline, and nobody has ended behind it. -/
structure Timely (c : Crowd) : Prop where
  live : ∀ r ∈ c.live, ∀ l, r.limit = some l → c.gateway.now ≤ l.expires
  ended : ∀ e ∈ c.ended, ∀ q, c.arrivals[e.caller]? = some q →
    ∀ l, q.limit = some l → e.time ≤ l.expires

/-- Who comes is not late. -/
theorem now_le_of_newcomer {t : Transport} {timeout : Option Duration}
    (hl : (c.newcomer i t timeout).limit = some l) : c.gateway.now ≤ l.expires := by
  obtain ⟨d, -, rfl⟩ := Option.map_eq_some_iff.mp hl
  exact Nat.le_add_right _ _

/-- Calls under way have gone on or have ended. -/
theorem Timely.keep (hc : c.Timely) (hr : c.Recalled) (hnow : c'.gateway.now = c.gateway.now)
    (harrivals : c'.arrivals = c.arrivals)
    (hlive : ∀ q ∈ c'.live, ∃ r ∈ c.live, q.limit = r.limit)
    (hended : ∀ e ∈ c'.ended, e ∈ c.ended ∨
      ∃ r ∈ c.live, e.caller = r.caller ∧ e.time = c.gateway.now) : c'.Timely where
  live := by
    intro q hq l hl
    obtain ⟨r, hr, hlimit⟩ := hlive q hq
    rw [hnow]
    exact hc.live r hr l (hlimit.symm.trans hl)
  ended := by
    intro e he q hq l hl
    rw [harrivals] at hq
    rcases hended e he with he | ⟨r, hr', hcaller, htime⟩
    · exact hc.ended e he q hq l hl
    · -- it ended now, and had the deadline that it came with
      obtain ⟨p, hp, hlimit⟩ := hr r hr'
      rw [← hcaller, hq] at hp
      rw [htime]
      exact hc.live r hr' l (by rw [← hlimit, ← Option.some.inj hp, hl])

/-- A call has come, and ends at once or is under way. -/
theorem Timely.come {t : Transport} {timeout : Option Duration} (hc : c.Timely)
    (ho : c.Orderly i) (hnow : c'.gateway.now = c.gateway.now)
    (harrivals : c'.arrivals = c.arrivals ++ [c.newcomer i t timeout])
    (hlive : ∀ q ∈ c'.live, q ∈ c.live ∨ q.limit = (c.newcomer i t timeout).limit)
    (hended : ∀ e ∈ c'.ended, e ∈ c.ended ∨
      e.caller = c.arrivals.length ∧ e.time = c.gateway.now) : c'.Timely where
  live := by
    intro q hq l hl
    rw [hnow]
    rcases hlive q hq with hq | hq
    · exact hc.live q hq l hl
    · exact now_le_of_newcomer (hq.symm.trans hl)
  ended := by
    intro e he q hq l hl
    rw [harrivals] at hq
    rcases hended e he with he | ⟨hcaller, htime⟩
    · rw [List.getElem?_append_left (ho.gone e he).1] at hq
      exact hc.ended e he q hq l hl
    · rw [hcaller, List.getElem?_concat_length] at hq
      rw [htime]
      exact now_le_of_newcomer (by rw [Option.some.inj hq, hl])

/-- No move but the passing of time makes anybody late. -/
theorem Move.timely (hm : Move i h c c') (hmillis : ∀ millis, h ≠ .elapse millis)
    (ho : c.Orderly i) (hr : c.Recalled) (hc : c.Timely) : c'.Timely := by
  have hnow := hm.now_eq hmillis
  cases hm with
  | greet | refuse =>
    refine hc.come ho hnow rfl (fun q hq => .inl hq) fun e he => ?_
    rcases List.mem_append.mp he with he | he
    · exact .inl he
    · rw [List.mem_singleton.mp he]
      exact .inr ⟨rfl, rfl⟩
  | enter =>
    refine hc.come ho hnow rfl (fun q hq => ?_) fun e he => .inl he
    rcases List.mem_append.mp hq with hq | hq
    · exact .inl hq
    · rw [List.mem_singleton.mp hq]
      exact .inr rfl
  | launch _ hl | work _ hl =>
    refine hc.keep hr hnow rfl (fun q hq => ?_) fun e he => .inl he
    rcases mem_of_replaced hl hq with hq | rfl
    · exact ⟨q, hq, rfl⟩
    · exact ⟨_, mem_of_live hl, rfl⟩
  | find hl | fail _ hl | install _ hl | expire _ hl =>
    refine hc.keep hr hnow rfl (fun q hq => ⟨q, mem_of_around hl hq, rfl⟩) fun e he => ?_
    rcases List.mem_append.mp he with he | he
    · exact .inl he
    · rw [List.mem_singleton.mp he]
      exact .inr ⟨_, mem_of_live hl, rfl, hnow⟩
  | abandon _ hl =>
    exact hc.keep hr hnow rfl (fun q hq => ⟨q, mem_of_around hl hq, rfl⟩) fun e he => .inl he
  | register | reject | reset | meanwhile =>
    exact hc.keep hr hnow rfl (fun q hq => ⟨q, hq, rfl⟩) fun e he => .inl he
  | elapse hh => exact absurd hh (hmillis _)

/-- Nothing that a punctual clock permits makes anybody late. -/
theorem Timely.step (hc : c.Timely) (he : c.Entered i) (ho : c.Orderly i) (hr : c.Recalled)
    (hpermits : c.Permits h) : (c.step i h).Timely := by
  have hmoves : (∀ millis, h ≠ .elapse millis) → (c.step i h).Timely := fun hmillis =>
    (moves_induction (P := fun c => c.Orderly i ∧ c.Recalled ∧ c.Timely)
      (fun _ _ he ⟨ho, hr, hc⟩ hm => ⟨hm.orderly he ho, hm.recalled hr, hm.timely hmillis ho hr hc⟩)
      (step_moves he h) he ⟨ho, hr, hc⟩).2.2.2
  cases h with
  | elapse millis =>
    exact {
      live := fun r hr l hl => hpermits r hr l.expires (Resolution.expires_mem_alarms hl)
      ended := hc.ended }
  | call | resume | abandon | register | reset | meanwhile =>
    exact hmoves fun _ heq => by cases heq

/-- **Nobody is late** in a punctual schedule. -/
theorem timely_run (hs : List Happening) (he : c.Entered i) (ho : c.Orderly i) (hr : c.Recalled)
    (hc : c.Timely) (hpunctual : c.Punctual i hs) : (c.run i hs).Timely := by
  induction hs generalizing c with
  | nil => exact hc
  | cons h hs ih =>
    obtain ⟨hpermits, hrest⟩ := hpunctual
    obtain ⟨he', ho', hr'⟩ := orderly_induction (P := Recalled) [h]
      (fun _ _ _ _ _ _ hr hm => hm.recalled hr) he ho hr
    exact ih he' ho' hr' (hc.step he ho hr hpermits) hrest

/-- Whoever goes on when his deadline has passed has ended. -/
theorem mem_ended_of_deadline (he : c.Entered i) (ho : c.Orderly i) (hr : r ∈ c.live)
    (hl : r.limit = some l) (hnow : l.expires ≤ c.gateway.now) (span : Span) :
    ∃ e ∈ (c.step i (.resume span r.caller)).ended,
      e.caller = r.caller ∧ e.time = c.gateway.now := by
  obtain ⟨front, back, hlive⟩ := List.append_of_mem hr
  have hstep : c.step i (.resume span r.caller) = c.advance span front r back := by
    simp only [step, ho.splitAt_caller hlive]
  have hclock := now_step he (.resume span r.caller)
  rw [hstep] at hclock ⊢
  unfold advance at hclock ⊢
  rcases hres : r.resume c.gateway span with ⟨g, r' | o⟩
  · have hlt := Resolution.lt_expires_of_waiting hres hl
    rw [hres, settle_waiting] at hclock
    simp only [Happening.millis] at hclock
    omega
  · rw [hres, settle_ended] at hclock
    refine ⟨⟨r.caller, g.now, o⟩, ?_, rfl, hclock⟩
    simp

/-! ## Nobody is lost -/

/-- A call that has come is under way or has ended, unless it is dropped. -/
def Accounted (a : Nat) (hs : List Happening) (c : Crowd) : Prop :=
  a < c.arrivals.length → a ∈ c.callers ∨ a ∈ c.ended.map (·.caller) ∨ .abandon a ∈ hs

theorem Accounted.keep {a : Nat} {hs : List Happening} (hc : c.Accounted a hs)
    (hended : c.ended <+: c'.ended)
    (harrivals : a < c'.arrivals.length → a < c.arrivals.length ∨ a ∈ c'.callers ∨
      a ∈ c'.ended.map (·.caller))
    (hcallers : a ∈ c.callers → a ∈ c'.callers ∨ a ∈ c'.ended.map (·.caller) ∨ .abandon a ∈ hs) :
    c'.Accounted a hs := by
  intro ha
  rcases harrivals ha with ha | ha | ha
  · rcases hc ha with ha | ha | ha
    · exact hcallers ha
    · exact .inr (.inl ((hended.map _).subset ha))
    · exact .inr (.inr ha)
  · exact .inl ha
  · exact .inr (.inl ha)

/-- No move loses a call, unless it drops it. -/
theorem Move.accounted {a : Nat} {hs : List Happening} (hm : Move i h c c') (hh : h ∈ hs)
    (hc : c.Accounted a hs) : c'.Accounted a hs := by
  have hg := hm.grows
  cases hm with
  | greet | refuse =>
    refine hc.keep hg.ended (fun ha => ?_) .inl
    rw [List.length_append, List.length_singleton] at ha
    rcases Nat.lt_succ_iff_lt_or_eq.mp ha with ha | rfl
    · exact .inl ha
    · exact .inr (.inr (by simp))
  | enter =>
    refine hc.keep hg.ended (fun ha => ?_) fun ha => .inl ?_
    · rw [List.length_append, List.length_singleton] at ha
      rcases Nat.lt_succ_iff_lt_or_eq.mp ha with ha | rfl
      · exact .inl ha
      · exact .inr (.inl (by simp [callers, newcomer, Resolution.start]))
    · simp only [callers, List.map_append]
      exact List.mem_append_left _ ha
  | launch _ hl | work _ hl =>
    refine hc.keep hg.ended .inl fun ha => .inl ?_
    rw [callers_of_live hl] at ha
    simpa [callers] using ha
  | find hl | fail _ hl | install _ hl | expire _ hl =>
    refine hc.keep hg.ended .inl fun ha => Or.imp_right .inl ?_
    exact callers_of_ended hl rfl rfl rfl ha
  | @abandon front r back heq hl =>
    refine hc.keep hg.ended .inl fun ha => ?_
    by_cases har : a = r.caller
    · rw [har, ← heq]
      exact .inr (.inr hh)
    · rw [callers_of_live hl] at ha
      left
      simpa [callers, har] using ha
  | register | reject | reset | elapse | meanwhile => exact hc.keep hg.ended .inl .inl

/-- Who comes in a run is under way or has ended after it, unless he is dropped. -/
theorem accounted_run (he : c.Entered i) (hs : List Happening) :
    (c.run i hs).Accounted c.arrivals.length hs :=
  (run_induction hs (fun _ hh _ _ _ hc hm => hm.accounted hh hc) he
    fun hlt => absurd hlt (Nat.lt_irrefl _)).2

/-! ## Deadlines in the line -/

theorem run_append (i : Nat) (c : Crowd) (hs hs' : List Happening) :
    c.run i (hs ++ hs') = (c.run i hs).run i hs' := List.foldl_append

/-- The call that comes is on record ever after. -/
theorem getElem?_of_call (he : c.Entered i) (span : Span) (t : Transport)
    (timeout : Option Duration) (hs : List Happening) :
    (c.run i (.call span t timeout :: hs)).arrivals[c.arrivals.length]?
      = some (c.newcomer i t timeout) := by
  refine getElem?_of_grows (grows_run (he.step (.call span t timeout)) hs) ?_
  simp only [step, arrivals_advance, List.getElem?_concat_length]

/-- A call has ended because its run of the factory has failed. -/
structure RunFails (i : Nat) (c : Crowd) (h : Happening) (f : Factory) (error : Failure)
    (e : Ending) : Prop where
  ended : (c.step i h).ended = c.ended ++ [e]
  result : (c.step i h).results = c.results ++ [.error error]
  began : ⟨e.caller, f⟩ ∈ (c.step i h).begun
  outcome : e.outcome = .error error

/-- Nobody is late in a punctual schedule from the start. -/
theorem timely_of_punctual {hs : List Happening} (hpunctual : start.Punctual i hs) :
    (start.run i hs).Timely :=
  timely_run hs (entered_opening _) (orderly_opening rfl) (recalled_run i [])
    { live := by simp [start, opening], ended := by simp [start, opening] } hpunctual

/-- The factory that is registered first stays as long as the slot is not emptied. -/
theorem factory_run {attempt : Nat → Attempt} (hs : List Happening)
    (hreset : ∀ h ∈ hs, h ≠ .reset) :
    ((start.run i (.register attempt :: hs)).slot i).factory = some ⟨0, attempt⟩ := by
  refine (run_induction (P := fun c => (c.slot i).factory = some ⟨0, attempt⟩) hs
    (fun h hh _ _ _ hf hm => hm.factory_eq (hreset h hh) hf)
    ((entered_opening .start).step (.register attempt)) ?_).2
  simp [step, slot, opening, Gateway.register, Gateway.start, Slot.register, Slot.empty]

/-- All runs are of the factory that is registered first as long as the slot is not emptied. -/
theorem factory_of_begun {attempt : Nat → Attempt} {b : Beginning} (hs : List Happening)
    (hreset : ∀ h ∈ hs, h ≠ .reset) (hb : b ∈ (start.run i (.register attempt :: hs)).begun) :
    b.factory = ⟨0, attempt⟩ := by
  have hagreed : (start.run i (.register attempt :: hs)).Agreed i :=
    agreed_run _ (by simpa using hreset)
  -- without a reset every caller came after the last one
  have hf := ((dated_run i _).begun b hb).2.mpr (by rw [hagreed.resetAt]; exact Nat.zero_le _)
  rw [factory_run hs hreset] at hf
  exact (Option.some.inj hf).symm

/-- What a call on record has ended in, when a factory is registered first. -/
theorem fate_of_ended {attempt : Nat → Attempt} (hs : List Happening)
    (hreset : ∀ h ∈ hs, h ≠ .reset) (hpunctual : start.Punctual i (.register attempt :: hs))
    (he : e ∈ (start.run i (.register attempt :: hs)).ended)
    (hq : (start.run i (.register attempt :: hs)).arrivals[e.caller]? = some q) :
    (∃ d, e.outcome = .ok d ∧
      ((start.run i (.register attempt :: hs)).slot i).delegate = some d) ∨
    (∃ past h rest error, .register attempt :: hs = past ++ h :: rest ∧
      RunFails i (start.run i past) h ⟨0, attempt⟩ error e) ∨
    ∃ l, q.limit = some l ∧ e.time = l.expires ∧
      e.outcome = .error (.resolutionTimeout l.duration.millis) := by
  have hagreed : (start.run i (.register attempt :: hs)).Agreed i :=
    agreed_run _ (by simpa using hreset)
  have htimely := timely_of_punctual hpunctual
  rcases exists_step_of_ended (c := start.step i (.register attempt)) hs he with
    hold | ⟨past, h, rest, rfl, hended⟩
  · simp [step, start, opening] at hold
  · have hpast : ∀ h' ∈ past, h' ≠ .reset := fun h' hh' => hreset h' (by simp [hh'])
    have hsplit : (.register attempt :: (past ++ h :: rest) : List Happening)
        = (.register attempt :: past) ++ h :: rest := rfl
    obtain ⟨he₁, ho₁⟩ := orderly_run i (.register attempt :: past)
    obtain ⟨p, hp, hfate⟩ := step_fate he₁ ho₁ (recalled_run i _) (traced_run i _)
      (factory_run past hpast) (hreset h (by simp)) hended
    -- the call has the record that it had when it ended
    have hpq : p = q := by
      have hp' := getElem?_of_grows (grows_run (he₁.step h) rest) hp
      rw [hsplit, run_append] at hq
      exact Option.some.inj (hp'.symm.trans hq)
    subst hpq
    cases hfate with
    | served ho _ => exact .inl ⟨_, ho, hagreed.got e he _ ho⟩
    | @failed error ho hresult hbegan =>
      refine .inr (.inl ⟨_, h, rest, error, hsplit, hended, hresult, ?_, ho⟩)
      obtain ⟨⟨_, f⟩, hb, rfl⟩ := List.mem_map.mp hbegan
      have hstep : ∀ h' ∈ past ++ [h], h' ≠ .reset := by
        intro h' hh'
        rcases List.mem_append.mp hh' with hh' | hh'
        · exact hpast h' hh'
        · rw [List.mem_singleton.mp hh']
          exact hreset h (by simp)
      have hlast : (start.run i (.register attempt :: past)).step i h
          = start.run i (.register attempt :: (past ++ [h])) := by
        rw [← List.cons_append, run_append]
        rfl
      have hf : f = ⟨0, attempt⟩ := factory_of_begun (past ++ [h]) hstep (hlast ▸ hb)
      rw [← hf]
      exact hb
    | @cutOff l hl hpassed _ ho =>
      exact .inr (.inr ⟨l, hl, Nat.le_antisymm (htimely.ended e he _ hq l hl) hpassed, ho⟩)

/-- A run of the factory that fails after ten milliseconds. -/
def lateFailure : Attempt := ⟨10, false, .error .noFactory⟩

/-- A caller fails, the one behind him runs the factory, and then a deadline of eleven and a half
milliseconds passes. -/
def failingInFront : List Happening :=
  [.elapse 10, .resume .none 0, .resume .none 1, .elapse 2, .resume .none 1]

example : (start.run 0 (.register (fun _ => lateFailure) :: [.call .none default none] ++
      .call .none default (some (.ofMicros 11500)) :: failingInFront)).ended
    = [⟨0, 10, .error .noFactory⟩, ⟨1, 12, .error (.resolutionTimeout 11)⟩] := rfl

end Crowd

end MuxBridge
