/-
# Errors beside a delegate

A caller who is told of an error leaves the slot as he found it. While a delegate is there, nobody
runs the factory, and whoever has the turn takes the delegate when he goes on; so only a deadline
can put an error beside a delegate, and only the deadline of a caller who still waits for the turn
that somebody else has been given.

* `Crowd.Vacant`: who runs the factory does so for an empty slot;
* `run_in_line`: those in the line get the delegate at once when they go on in their order;
* `error_beside_delegate_iff`: when a call that ends in an error leaves a delegate behind.
-/
import MuxBridge.Proofs.Crowd.Agreement

namespace MuxBridge

namespace Resolution

variable {g : Gateway} {r : Resolution} {f : Factory} {d : Delegate}

/-- Who has the turn and finds a delegate takes it. -/
theorem resume_of_delegate (span : Span) (hp : r.phase = .queued f) (ht : r.hasTurn g = true)
    (hd : (g.slots r.slot).delegate = some d) : r.resume g span = (r.leave g, .ended (.ok d)) := by
  have hu : r.resumeUnlimited g span = (r.leave g, .ended (.ok d)) := by
    simp only [resumeUnlimited, hp, ht, if_true, takeTurn, hd]
  unfold resume
  rw [hu]

/-- Who waits for the turn goes on waiting, or is cut off by his deadline. -/
theorem resume_of_awaiting (span : Span) (hp : r.phase = .queued f) (ht : r.hasTurn g = false) :
    r.resume g span = (g, .waiting r) ∨
      ∃ l, r.limit = some l ∧ l.hasPassed g = true ∧
        r.resume g span = ((r.expire g span l).1, .ended (r.expire g span l).2) := by
  have hu : r.resumeUnlimited g span = (g, .waiting r) := by
    simp only [resumeUnlimited, hp, ht, Bool.false_eq_true, if_false]
  unfold resume
  rw [hu]
  dsimp only
  rcases hl : r.limit.filter (Limit.hasPassed g) with _ | l
  · exact .inl rfl
  · obtain ⟨hlimit, hpassed⟩ := Option.filter_eq_some_iff.mp hl
    exact .inr ⟨l, hlimit, hpassed, rfl⟩

/-- Who has the turn and does not run the factory can go on. -/
theorem isReady_of_queued (hp : r.phase = .queued f) : r.isReady g = r.hasTurn g := by
  rw [isReady, hp]

end Resolution

namespace Crowd

variable {i : Nat} {h : Happening} {c c' : Crowd} {front back : List Resolution} {r : Resolution}
  {d : Delegate}

/-! ## The factory runs for an empty slot -/

/-- While somebody runs the factory there is no delegate. -/
def Vacant (i : Nat) (c : Crowd) : Prop :=
  ∀ r ∈ c.live, r.isRunning = true → (c.slot i).delegate = none

/-- The slot holds what it held, and nobody has begun to run the factory. -/
theorem Vacant.keep (hc : c.Vacant i) (hdelegate : (c'.slot i).delegate = (c.slot i).delegate)
    (hlive : ∀ q ∈ c'.live, q ∈ c.live ∨ q.isRunning = false) : c'.Vacant i := by
  intro q hq hrunning
  rw [hdelegate]
  rcases hlive q hq with hq | hidle
  · exact hc q hq hrunning
  · rw [hidle] at hrunning
    cases hrunning

/-- Every move keeps it so, even one that empties the slot. -/
theorem Move.vacant (hm : Move i h c c') (he : c.Entered i) (ho : c.Orderly i)
    (hc : c.Vacant i) : c'.Vacant i := by
  cases hm with
  | enter =>
    refine hc.keep (by simp [slot]) ?_
    intro q hq
    rcases List.mem_append.mp hq with hq | hq
    · exact .inl hq
    · rw [List.mem_singleton.mp hq]
      exact .inr rfl
  | find hl | expire _ hl | abandon _ hl =>
    exact hc.keep (by simp [slot]) fun q hq => .inl (mem_of_around hl hq)
  | launch _ hl hp ht hd => exact fun _ _ _ => hd
  | work _ hl hp hr =>
    -- it ran before, so the slot was empty before
    have hnone := hc _ (mem_of_live hl) (Resolution.isRunning_of_running hp)
    intro q hq _
    simpa [slot, (FactoryRun.traffic_eq hr).slots] using hnone
  | fail _ hl hp hr =>
    refine hc.keep ?_ fun q hq => .inl (mem_of_around hl hq)
    simp [slot, (FactoryRun.traffic_eq hr).slots]
  | install _ hl hp hr =>
    obtain ⟨-, hzero⟩ := countP_around he ho hl (Resolution.isRunning_of_running hp)
    intro q hq hrunning
    exact absurd hrunning (List.countP_eq_zero.mp hzero q hq)
  | reset => exact fun _ _ _ => by simp [slot]
  | register => exact hc.keep (by simp [slot]) fun q hq => .inl hq
  | greet | refuse | reject | elapse | meanwhile => exact hc.keep rfl fun q hq => .inl hq

/-- The factory runs for an empty slot after every run. -/
theorem vacant_run (i : Nat) (hs : List Happening) : (start.run i hs).Vacant i :=
  (orderly_induction hs (fun _ _ _ _ he ho hc hm => hm.vacant he ho hc) (entered_opening _)
    (orderly_opening rfl) (by simp [Vacant, opening])).2.2

/-- Whatever happens, it goes on so. -/
theorem Vacant.step (hc : c.Vacant i) (he : c.Entered i) (ho : c.Orderly i) (h : Happening) :
    (c.step i h).Entered i ∧ (c.step i h).Orderly i ∧ (c.step i h).Vacant i :=
  orderly_induction [h] (fun _ _ _ _ he ho hc hm => hm.vacant he ho hc) he ho hc

/-- Beside a delegate everybody under way has yet to take the turn. -/
theorem Vacant.queued (hc : c.Vacant i) (he : c.Entered i) (hd : (c.slot i).delegate = some d)
    (hr : r ∈ c.live) : ∃ f, r.phase = .queued f := by
  rcases hp : r.phase with _ | f | run
  · exact absurd hp (he r hr).2
  · exact ⟨f, rfl⟩
  · rw [hc r hr (Resolution.isRunning_of_running hp)] at hd
    cases hd

/-! ## Beside a delegate -/

/-- A call that is in no run goes on beside a delegate without one. -/
theorem advance_of_delegate {f : Factory} (span : Span) (hp : r.phase = .queued f)
    (hd : (c.gateway.slots r.slot).delegate = some d) :
    c.advance span front r back
      = c.settle front back r.caller (r.resume c.gateway span) := by
  have hlaunching : r.launching? c.gateway = none := by
    simp only [Resolution.launching?, hd]
  rw [advance, nextResult?_of_launching?_none hp hlaunching, hlaunching, Option.map_none,
    note_none, noteResult_none]

/-- The first in the line takes the delegate when it goes on. -/
theorem step_first {rest : List Resolution} (span : Span) (he : c.Entered i) (ho : c.Orderly i)
    (hv : c.Vacant i) (hd : (c.slot i).delegate = some d) (hl : c.live = r :: rest) :
    c.step i (.resume span r.caller)
      = c.settle [] rest r.caller (r.leave c.gateway, .ended (.ok d)) := by
  have hr : r ∈ c.live := by simp [hl]
  obtain ⟨f, hp⟩ := hv.queued he hd hr
  obtain ⟨rfl, -⟩ := he r hr
  have ht : r.hasTurn c.gateway = true := by
    rw [ho.hasTurn_iff rfl]
    simp [callers, hl]
  have hsplit : c.splitAt r.caller = ([], r :: rest) := ho.splitAt_caller hl
  simp only [step, hsplit]
  rw [advance_of_delegate span hp hd, Resolution.resume_of_delegate span hp ht hd]

/-- Those in the line take the delegate one after the other when they go on in their order. -/
theorem run_in_line (span : Span) (he : c.Entered i) (ho : c.Orderly i) (hv : c.Vacant i)
    (hd : (c.slot i).delegate = some d) (hl : c.live = front ++ back) :
    (c.run i (front.map fun q => .resume span q.caller)).ended
      = c.ended ++ front.map fun q => ⟨q.caller, c.gateway.now, .ok d⟩ := by
  induction front generalizing c with
  | nil => simp [run]
  | cons r front ih =>
    have hstep := step_first span he ho hv hd hl
    -- behind the first one the line is as it was
    obtain ⟨he', ho', hv'⟩ := hv.step he ho (.resume span r.caller)
    have hd' : ((c.step i (.resume span r.caller)).slot i).delegate = some d := by
      rw [hstep]
      obtain ⟨rfl, -⟩ := he r (by simp [hl])
      simpa [slot, Resolution.leave] using hd
    have hl' : (c.step i (.resume span r.caller)).live = front ++ back := by
      rw [hstep]
      rfl
    show ((c.step i (.resume span r.caller)).run i _).ended = _
    rw [ih he' ho' hv' hd' hl', hstep]
    simp [Resolution.leave, Gateway.changeSlot]

/-- Beside a delegate only a deadline ends a call in an error, and only while it waits for the
turn. -/
theorem cutOff_of_error {e : Ending} {error : Failure} (he : c.Entered i) (ho : c.Orderly i)
    (hv : c.Vacant i) (hd : (c.slot i).delegate = some d)
    (hended : (c.step i h).ended = c.ended ++ [e]) (herror : e.outcome = .error error) :
    ∃ front r back l, c.live = front ++ r :: back ∧ r.caller = e.caller ∧
      r.hasTurn c.gateway = false ∧ r.limit = some l ∧ l.hasPassed c.gateway = true ∧
      error = .resolutionTimeout l.duration.millis := by
  cases h with
  | call span t timeout =>
    rw [step_call_of_delegate span t timeout hd] at hended
    rw [← List.singleton_inj.mp (List.append_cancel_left hended)] at herror
    cases herror
  | resume span a =>
    simp only [step] at hended
    split at hended
    · next front r back hsplit =>
      obtain ⟨hl, -, -⟩ := splitAt_eq hsplit
      have hr := mem_of_live hl
      obtain ⟨f, hp⟩ := hv.queued he hd hr
      obtain ⟨rfl, -⟩ := he r hr
      rw [advance_of_delegate span hp hd] at hended
      rcases ht : r.hasTurn c.gateway with _ | _
      · rcases Resolution.resume_of_awaiting span hp ht with hw | ⟨l, hlimit, hpassed, hcut⟩
        · rw [hw] at hended
          simp at hended
        · rw [hcut, settle_ended] at hended
          have hlast := List.singleton_inj.mp (List.append_cancel_left hended)
          rw [← hlast] at herror ⊢
          exact ⟨front, r, back, l, hl, rfl, ht, hlimit, hpassed, (Except.error.inj herror).symm⟩
      · rw [Resolution.resume_of_delegate span hp ht hd, settle_ended] at hended
        rw [← List.singleton_inj.mp (List.append_cancel_left hended)] at herror
        cases herror
    · simp at hended
  | abandon a =>
    simp only [step] at hended
    split at hended <;> simp at hended
  | register | reset | elapse | meanwhile => simp [step] at hended

/-- Beside a delegate the first in the line can go on. -/
theorem exists_isReady (he : c.Entered i) (ho : c.Orderly i) (hv : c.Vacant i)
    (hd : (c.slot i).delegate = some d) (hl : c.live = front ++ r :: back)
    (ht : r.hasTurn c.gateway = false) : ∃ q ∈ front, q.isReady c.gateway = true := by
  cases front with
  | nil =>
    rw [← Bool.not_eq_true, ho.hasTurn_iff (he r (mem_of_live hl)).1] at ht
    simp [callers, hl] at ht
  | cons q front =>
    have hq : q ∈ c.live := by simp [hl]
    obtain ⟨f, hp⟩ := hv.queued he hd hq
    refine ⟨q, List.mem_cons_self, ?_⟩
    rw [Resolution.isReady_of_queued hp, ho.hasTurn_iff (he q hq).1]
    simp [callers, hl]

/-- The call that ends is the one that takes the step. -/
theorem actor?_of_ended {e : Ending} (hended : (c.step i h).ended = c.ended ++ [e]) :
    h.actor? c = some e.caller := by
  rcases ended_step i c h with hsame | ⟨e', hended', hactor⟩
  · rw [hsame] at hended
    simp at hended
  · rw [hactor, List.singleton_inj.mp (List.append_cancel_left (hended'.symm.trans hended))]

/-- A call that ends in an error leaves the slot as it is. -/
theorem slot_of_error {e : Ending} {error : Failure} (he : c.Entered i)
    (hended : (c.step i h).ended = c.ended ++ [e]) (herror : e.outcome = .error error) :
    ((c.step i h).slot i).factory = (c.slot i).factory ∧
      ((c.step i h).slot i).delegate = (c.slot i).delegate := by
  have hactor := actor?_of_ended hended
  obtain ⟨hf, hd | ⟨e', d, hended', -, ho', -⟩⟩ := slot_of_step he h
    (by rintro rfl; cases hactor) (by rintro attempt rfl; cases hactor)
  · exact ⟨hf, hd⟩
  · -- only a call that ends with a delegate can have changed it
    rw [← List.singleton_inj.mp (List.append_cancel_left (hended.symm.trans hended')),
      herror] at ho'
    cases ho'

/-- Two calls under way beside a delegate have been preceded by the one whose run built it. -/
theorem two_lt_arrivals {a b : Nat} (ho : c.Orderly i) (ht : c.Traced i)
    (hd : (c.slot i).delegate = some d) (ha : a ∈ c.callers) (hb : b ∈ c.callers) (hab : a ≠ b) :
    2 < c.arrivals.length := by
  obtain ⟨_, -, e, he, -⟩ := ht.installed d hd
  obtain ⟨hlt, hgone⟩ := ho.gone e he
  have hlta := ho.arrived a ha
  have hltb := ho.arrived b hb
  have hea : e.caller ≠ a := fun heq => hgone (heq ▸ ha)
  have heb : e.caller ≠ b := fun heq => hgone (heq ▸ hb)
  omega

/-- **Errors beside a delegate.** Whatever has happened, a call that ends in an error leaves the
slot as it is. A delegate is there at that moment iff it was there before and somebody else had been
given the turn and had not gone on since. Then there have been three callers at least, and the one
with the error was cut off by its deadline while it waited for the turn; had those in front of it
gone on first, it would have got the delegate at the same moment. -/
theorem error_beside_delegate_iff (i : Nat) (before : List Happening) (h : Happening)
    (e : Ending) (error : Failure)
    (hended : ((start.run i before).step i h).ended = (start.run i before).ended ++ [e])
    (herror : e.outcome = .error error) :
    let c := start.run i before
    let c' := c.step i h
    ((c'.slot i).factory = (c.slot i).factory ∧ (c'.slot i).delegate = (c.slot i).delegate) ∧
    ((c'.slot i).delegate.isSome ↔
      (c.slot i).delegate.isSome ∧ ∃ q ∈ c.live, q.caller ≠ e.caller ∧ q.isReady c.gateway) ∧
    ∀ d, (c'.slot i).delegate = some d → 2 < c.arrivals.length ∧
      ∃ front r back l, c.live = front ++ r :: back ∧ r.caller = e.caller ∧
        r.awaitsTurn c.gateway ∧ r.limit = some l ∧ l.hasPassed c.gateway ∧
        error = .resolutionTimeout l.duration.millis ∧
        ∀ span, ⟨e.caller, c.gateway.now, .ok d⟩ ∈
          (c.run i ((front ++ [r]).map fun q => .resume span q.caller)).ended := by
  intro c c'
  obtain ⟨he, ho⟩ : c.Entered i ∧ c.Orderly i := orderly_run i before
  have hv : c.Vacant i := vacant_run i before
  have hslot := slot_of_error he hended herror
  refine ⟨hslot, ⟨?_, ?_⟩, ?_⟩
  · intro hsome
    rw [hslot.2] at hsome
    obtain ⟨d, hd⟩ := Option.isSome_iff_exists.mp hsome
    obtain ⟨front, r, back, l, hl, hr, ht, -⟩ := cutOff_of_error he ho hv hd hended herror
    obtain ⟨q, hq, hready⟩ := exists_isReady he ho hv hd hl ht
    obtain ⟨hmem, hne⟩ := ho.mem_around hl (.inl hq)
    exact ⟨hsome, q, hmem, hr ▸ hne, hready⟩
  · rintro ⟨hsome, -⟩
    rw [hslot.2]
    exact hsome
  · intro d hd
    rw [hslot.2] at hd
    obtain ⟨front, r, back, l, hl, hr, ht, hlimit, hpassed, hcut⟩ :=
      cutOff_of_error he ho hv hd hended herror
    obtain ⟨q, hq, -⟩ := exists_isReady he ho hv hd hl ht
    obtain ⟨hmem, hne⟩ := ho.mem_around hl (.inl hq)
    have hthree : 2 < c.arrivals.length := two_lt_arrivals ho (traced_run i before) hd
      (List.mem_map_of_mem hmem) (List.mem_map_of_mem (mem_of_live hl)) hne
    obtain ⟨f, hp⟩ := hv.queued he hd (mem_of_live hl)
    have hawaits : r.awaitsTurn c.gateway = true := by simp [Resolution.awaitsTurn, hp, ht]
    refine ⟨hthree, front, r, back, l, hl, hr, hawaits, hlimit, hpassed, hcut, fun span => ?_⟩
    have hline : c.live = (front ++ [r]) ++ back := by simp [hl]
    rw [run_in_line span he ho hv hd hline]
    simp [hr]

/-- Three callers, the deadline of the last of whom passes when the first installs his delegate. -/
def passedOver : List Happening :=
  [.register fun _ => ⟨50, false, .ok ⟨none, .empty⟩⟩, .call .none default none,
    .call .none default none, .call .none default (some (.ofMillis 50)), .elapse 50,
    .resume .none 0]

/-- The third caller is told that the delegate could not be had in time, while it is there. -/
theorem timedOut_beside_delegate :
    ((start.run 0 passedOver).step 0 (.resume .none 2)).ended = (start.run 0 passedOver).ended
      ++ [⟨2, 50, .error (.resolutionTimeout 50)⟩] ∧
    ((start.run 0 passedOver).step 0 (.resume .none 2)).results
      = (start.run 0 passedOver).results ∧
    (((start.run 0 passedOver).step 0 (.resume .none 2)).slot 0).delegate
      = some ⟨0, default, .empty⟩ :=
  ⟨rfl, rfl, by decide⟩

/-- The third caller would have got the delegate behind the second one. -/
theorem error_beside_delegate_iff_passedOver :
    ((start.run 0 passedOver).step 0 (.resume .none 2)).ended = (start.run 0 passedOver).ended
      ++ [⟨2, 50, .error (.resolutionTimeout 50)⟩] ∧
    ∃ q ∈ (start.run 0 passedOver).live, q.caller ≠ 2 ∧
      q.isReady (start.run 0 passedOver).gateway := by
  refine ⟨rfl, ?_⟩
  obtain ⟨-, hiff, -⟩ := error_beside_delegate_iff 0 passedOver (.resume .none 2)
    ⟨2, 50, .error (.resolutionTimeout 50)⟩ (.resolutionTimeout 50) rfl rfl
  exact (hiff.mp (by decide)).2

end Crowd

end MuxBridge
