/-
# Handing the turn over

What one happening does to the line and to the slot. A caller who ends, or is dropped, while he has
the turn leaves it to the caller behind him; only a call that ends with a delegate changes what the
slot holds.

* `callers_tail_of_gone`: when the first caller goes, the others move up;
* `slot_of_step`: what becomes of factory and delegate;
* `turn_agrees_with_calls`: the turn, the queue and the calls under way never disagree.
-/
import Mathlib.Data.List.Nodup
import MuxBridge.Proofs.Crowd.Line

namespace MuxBridge

namespace Resolution

/-- Whether the call runs the factory. -/
def isRunning (r : Resolution) : Bool :=
  match r.phase with
  | .running _ => true
  | _ => false

/-- Whether the call is suspended until it has the turn. -/
def awaitsTurn (g : Gateway) (r : Resolution) : Bool :=
  match r.phase with
  | .queued _ => !r.hasTurn g
  | _ => false

end Resolution

/-- The caller whose call takes a step, if any does. -/
def Happening.actor? (c : Crowd) : Happening → Option Nat
  | .call .. => some c.arrivals.length
  | .resume _ a | .abandon a => some a
  | .register _ | .reset | .elapse _ | .meanwhile .. => none

namespace Crowd

variable {i : Nat} {h : Happening} {c c' : Crowd} {front back : List Resolution} {r : Resolution}

/-! ## One call at a time -/

/-- A call that goes on keeps its place or is missing from it. -/
theorem callers_advance (c : Crowd) (span : Span) (front : List Resolution) (r : Resolution)
    (back : List Resolution) :
    (c.advance span front r back).callers
        = front.map (·.caller) ++ r.caller :: back.map (·.caller) ∨
      (c.advance span front r back).callers = front.map (·.caller) ++ back.map (·.caller) := by
  unfold advance
  rcases hr : r.resume c.gateway span with ⟨g, r' | o⟩
  · have hcaller : r'.caller = r.caller := by rw [Resolution.eq_of_resume_waiting hr]
    left
    simp [callers, hcaller]
  · right
    simp [callers]

/-- Nobody comes while a call goes on. -/
theorem arrivals_advance (c : Crowd) (span : Span) (front : List Resolution) (r : Resolution)
    (back : List Resolution) : (c.advance span front r back).arrivals = c.arrivals := by
  unfold advance
  rcases r.resume c.gateway span with ⟨g, r' | o⟩ <;> rfl

/-- No happening ends more than one call, and that one took the step. -/
theorem ended_step (i : Nat) (c : Crowd) (h : Happening) :
    (c.step i h).ended = c.ended ∨
      ∃ e, (c.step i h).ended = c.ended ++ [e] ∧ h.actor? c = some e.caller := by
  have hadvance : ∀ (c : Crowd) span front r back, (advance c span front r back).ended = c.ended ∨
      ∃ e, (advance c span front r back).ended = c.ended ++ [e] ∧ r.caller = e.caller := by
    intro c span front r back
    unfold advance
    rcases r.resume c.gateway span with ⟨g, r' | o⟩
    · exact .inl rfl
    · exact .inr ⟨_, rfl, rfl⟩
  cases h with
  | call span t timeout =>
    rcases hadvance { c with arrivals := c.arrivals ++ [c.newcomer i t timeout] } span c.live
      (c.newcomer i t timeout) [] with hended | ⟨e, hended, he⟩
    · exact .inl hended
    · exact .inr ⟨e, hended, congrArg some he⟩
  | resume span a =>
    simp only [step]
    split
    · next front r back hsplit =>
      rcases hadvance c span front r back with hended | ⟨e, hended, he⟩
      · exact .inl hended
      · refine .inr ⟨e, hended, ?_⟩
        rw [← he, (splitAt_eq hsplit).2.1]
        rfl
    · exact .inl rfl
  | abandon a =>
    simp only [step]
    split <;> exact .inl rfl
  | register | reset | elapse | meanwhile => exact .inl rfl

/-- What has ended stays ended. -/
theorem ended_run (i : Nat) (c : Crowd) (hs : List Happening) : c.ended <+: (c.run i hs).ended := by
  induction hs generalizing c with
  | nil => exact List.prefix_rfl
  | cons h hs ih =>
    apply List.IsPrefix.trans _ (ih (c.step i h))
    rcases ended_step i c h with hended | ⟨e, hended, -⟩
    · exact ⟨[], by rw [List.append_nil, hended]⟩
    · exact ⟨[e], hended.symm⟩

/-! ## The turn is handed over -/

/-- When the first caller goes, by whatever end, the others keep their order behind him. -/
theorem callers_tail_of_gone {a : Nat} (h : Happening) (hfirst : c.callers.head? = some a)
    (hgone : a ∉ (c.step i h).callers) : (c.step i h).callers = c.callers.tail := by
  have hmem : a ∈ c.callers := List.mem_of_head? hfirst
  -- who stands behind somebody else cannot have taken the first one's place
  have hfront : ∀ {front back : List Resolution} {r : Resolution}, c.live = front ++ r :: back →
      a ∉ front.map (·.caller) → front = [] := by
    intro front back r hl hnot
    rw [callers_of_live hl] at hfirst
    cases front with
    | nil => rfl
    | cons q front => simp_all
  cases h with
  | call span t timeout =>
    -- who comes stands behind everybody, so the first one is not gone
    refine absurd ?_ hgone
    rcases callers_advance { c with arrivals := c.arrivals ++ [c.newcomer i t timeout] } span c.live
      (c.newcomer i t timeout) [] with hcallers | hcallers
    all_goals
      refine hcallers ▸ List.mem_append_left _ hmem
  | resume span b =>
    simp only [step] at hgone ⊢
    split at hgone
    · next front r back hsplit =>
      obtain ⟨hl, -, -⟩ := splitAt_eq hsplit
      rcases callers_advance c span front r back with hcallers | hcallers
      · rw [hcallers, ← callers_of_live hl] at hgone
        exact absurd hmem hgone
      · rw [hcallers] at hgone ⊢
        rw [callers_of_live hl, hfront hl fun hf => hgone (List.mem_append_left _ hf)]
        rfl
    · exact absurd hmem hgone
  | abandon b =>
    simp only [step] at hgone ⊢
    split at hgone
    · next front r back hsplit =>
      obtain ⟨hl, -, -⟩ := splitAt_eq hsplit
      simp only [callers, List.map_append] at hgone ⊢
      rw [hl, hfront hl fun hf => hgone (List.mem_append_left _ hf)]
      rfl
    · exact absurd hmem hgone
  | register | reset | elapse | meanwhile => exact absurd hmem hgone

/-! ## What the slot holds -/

/-- Between two crowds the slot has kept its factory, and its delegate too unless a call has ended
with another one. -/
def Keeps (i : Nat) (c c' : Crowd) : Prop :=
  (c'.slot i).factory = (c.slot i).factory ∧
    ∃ new, c'.ended = c.ended ++ new ∧
      ((c'.slot i).delegate = (c.slot i).delegate ∨
        ∃ e ∈ new, ∃ d, e.outcome = .ok d ∧ (c'.slot i).delegate = some d)

theorem Keeps.refl (i : Nat) (c : Crowd) : Keeps i c c := ⟨rfl, [], by simp, .inl rfl⟩

theorem Keeps.trans {c₁ c₂ c₃ : Crowd} (h : Keeps i c₁ c₂) (h' : Keeps i c₂ c₃) :
    Keeps i c₁ c₃ := by
  obtain ⟨hf, new, hended, hd⟩ := h
  obtain ⟨hf', new', hended', hd'⟩ := h'
  refine ⟨hf'.trans hf, new ++ new', by rw [hended', hended, List.append_assoc], ?_⟩
  -- the later of two installations counts
  rcases hd' with hd' | ⟨e, he, d, ho, hd'⟩
  · rcases hd with hd | ⟨e, he, d, ho, hd⟩
    · exact .inl (hd'.trans hd)
    · exact .inr ⟨e, List.mem_append_left _ he, d, ho, hd'.trans hd⟩
  · exact .inr ⟨e, List.mem_append_right _ he, d, ho, hd'⟩

/-- Nothing but an offer or a reset changes the slot without a call that ends with a delegate. -/
theorem Move.keeps (hm : Move i h c c') (hreset : h ≠ .reset)
    (hregister : ∀ attempt, h ≠ .register attempt) : Keeps i c c' := by
  cases hm with
  | greet | refuse => exact ⟨rfl, _, rfl, .inl rfl⟩
  | enter | abandon => exact ⟨by simp [slot], [], by simp, .inl (by simp [slot])⟩
  | find | expire => exact ⟨by simp [slot], _, rfl, .inl (by simp [slot])⟩
  | launch => exact ⟨rfl, [], by simp [note], .inl rfl⟩
  | work span hl hp hr =>
    have hslots := (FactoryRun.traffic_eq hr).slots
    exact ⟨by simp [slot, hslots], [], by simp, .inl (by simp [slot, hslots])⟩
  | fail span hl hp hr =>
    have hslots := (FactoryRun.traffic_eq hr).slots
    exact ⟨by simp [slot, hslots], _, rfl, .inl (by simp [slot, hslots])⟩
  | @install span front r back run g b d hl hp hr hd =>
    have hslots := (FactoryRun.traffic_eq hr).slots
    exact ⟨by simp [slot, hslots], _, rfl,
      .inr ⟨_, List.mem_singleton_self _, d, rfl, by simp [slot]⟩⟩
  | register hh => exact absurd hh (hregister _)
  | reject hh => exact absurd hh (hregister _)
  | reset hh => exact absurd hh hreset
  | elapse | meanwhile => exact ⟨rfl, [], by simp, .inl rfl⟩

/-- What becomes of the factory and the delegate when something happens: nothing, unless a factory
is offered, the slot is emptied, or the call that takes the step ends with a delegate. -/
theorem slot_of_step (he : c.Entered i) (h : Happening) (hreset : h ≠ .reset)
    (hregister : ∀ attempt, h ≠ .register attempt) :
    ((c.step i h).slot i).factory = (c.slot i).factory ∧
      (((c.step i h).slot i).delegate = (c.slot i).delegate ∨
        ∃ e d, (c.step i h).ended = c.ended ++ [e] ∧ h.actor? c = some e.caller ∧
          e.outcome = .ok d ∧ ((c.step i h).slot i).delegate = some d) := by
  have hkeeps : Keeps i c (c.step i h) :=
    (moves_induction (fun _ _ _ hk hm => hk.trans (hm.keeps hreset hregister)) (step_moves he h)
      he (.refl i c)).2
  obtain ⟨hf, new, hended, hd⟩ := hkeeps
  refine ⟨hf, ?_⟩
  rcases hd with hd | ⟨e, hmem, d, ho, hd⟩
  · exact .inl hd
  · -- the call that ended with a delegate is the only one that ended, so it took the step
    right
    rcases ended_step i c h with hended' | ⟨e', hended', hactor⟩
    · rw [hended] at hended'
      simp_all
    · have hnew : new = [e'] := List.append_cancel_left (hended.symm.trans hended')
      rw [hnew, List.mem_singleton] at hmem
      rw [← hmem] at hended' hactor
      exact ⟨e, d, hended', hactor, ho, hd⟩

/-- A step of a call that never ends with a delegate leaves the slot as it is. -/
theorem slot_of_vain_step {a : Nat} (he : c.Entered i) (after : List Happening)
    (hactor : h.actor? c = some a)
    (hnone : ∀ e ∈ ((c.step i h).run i after).ended, e.caller = a → ∀ d, e.outcome ≠ .ok d) :
    ((c.step i h).slot i).factory = (c.slot i).factory ∧
      ((c.step i h).slot i).delegate = (c.slot i).delegate := by
  have hreset : h ≠ .reset := by
    rintro rfl
    cases hactor
  have hregister : ∀ attempt, h ≠ .register attempt := by
    rintro attempt rfl
    cases hactor
  obtain ⟨hf, hd | ⟨e, d, hended, hactor', ho, -⟩⟩ := slot_of_step he h hreset hregister
  · exact ⟨hf, hd⟩
  · -- only this call could have ended with a delegate, and such an end stays on record
    have hcaller : e.caller = a := Option.some.inj (hactor'.symm.trans hactor)
    have hmem : e ∈ ((c.step i h).run i after).ended := by
      apply (ended_run i (c.step i h) after).subset
      rw [hended]
      exact List.mem_append_right _ (List.mem_singleton_self e)
    exact absurd ho (hnone e hmem hcaller d)

/-! ## The turn and the calls -/

/-- Calls under way are told apart by their callers. -/
theorem Orderly.eq_of_caller_eq {q : Resolution} (hc : c.Orderly i) (hq : q ∈ c.live)
    (hr : r ∈ c.live) (h : q.caller = r.caller) : q = r :=
  List.inj_on_of_nodup_map hc.nodup hq hr h

/-- The turn is somebody's iff exactly one call under way has it. -/
theorem Orderly.holder_isSome_iff (hc : c.Orderly i) (he : c.Entered i) :
    (c.slot i).turn.holder.isSome ↔ ∃! r, r ∈ c.live ∧ r.hasTurn c.gateway := by
  rw [hc.holder_eq]
  constructor
  · intro hsome
    obtain ⟨a, ha⟩ := Option.isSome_iff_exists.mp hsome
    obtain ⟨r, hr, rfl⟩ := List.mem_map.mp (List.mem_of_head? ha)
    refine ⟨r, ⟨hr, (hc.hasTurn_iff (he r hr).1).mpr ha⟩, ?_⟩
    rintro q ⟨hq, hturn⟩
    rw [hc.hasTurn_iff (he q hq).1, ha] at hturn
    exact hc.eq_of_caller_eq hq hr (Option.some.inj hturn).symm
  · rintro ⟨r, ⟨hr, hturn⟩, -⟩
    rw [hc.hasTurn_iff (he r hr).1] at hturn
    rw [hturn]
    rfl

/-- A call that does not have the turn is suspended until it has. -/
theorem Orderly.awaitsTurn_iff (hc : c.Orderly i) (he : c.Entered i) (hr : r ∈ c.live) :
    r.awaitsTurn c.gateway = true ↔ c.callers.head? ≠ some r.caller := by
  obtain ⟨hs, hp⟩ := he r hr
  have hturn := hc.hasTurn_iff hs
  rcases hphase : r.phase with _ | f | run
  · exact absurd hphase hp
  · simp only [Resolution.awaitsTurn, hphase, Bool.not_eq_true', ne_eq]
    rw [← hturn, Bool.not_eq_true]
  · simp [Resolution.awaitsTurn, hphase, hc.first_of_running hr hphase]

/-- All behind the first call are suspended. -/
theorem Orderly.awaitsTurn_of_tail {q : Resolution} {rest : List Resolution} (hc : c.Orderly i)
    (he : c.Entered i) (hl : c.live = r :: rest) (hq : q ∈ rest) :
    q.awaitsTurn c.gateway = true := by
  have hhead : c.callers.head? = some r.caller := by simp [callers, hl]
  have hl' : c.live = [] ++ r :: rest := hl
  obtain ⟨hmem, hne⟩ := hc.mem_around hl' (.inr hq)
  rw [hc.awaitsTurn_iff he hmem, hhead]
  exact fun heq => hne (Option.some.inj heq).symm

/-- The queue of the turn lists the calls that are suspended. -/
theorem Orderly.queue_eq (hc : c.Orderly i) (he : c.Entered i) :
    (c.slot i).turn.queue
      = (c.live.filter (·.awaitsTurn c.gateway)).map (·.caller) := by
  rw [hc.queue_eq_tail]
  rcases hl : c.live with _ | ⟨r, rest⟩
  · simp [callers, hl]
  · have hhead : c.callers.head? = some r.caller := by simp [callers, hl]
    have hfirst : r.awaitsTurn c.gateway = false := by
      rw [← Bool.not_eq_true, hc.awaitsTurn_iff he (by simp [hl])]
      simp [hhead]
    have hrest : ∀ q ∈ rest, q.awaitsTurn c.gateway = true :=
      fun q hq => hc.awaitsTurn_of_tail he hl hq
    rw [List.filter_cons_of_neg (by simp [hfirst]), List.filter_eq_self.mpr hrest]
    simp [callers, hl]

/-- Whatever has happened, **the turn and the calls under way agree**: the turn is somebody's iff
exactly one call has it, and who runs the factory has it; those who wait for it are the suspended
calls, each once and in order of arrival; nobody waits for a turn that is free, and nobody who is
gone has it or waits for it. Whatever happens next, a turn that its caller leaves goes to the first
who waits. No caller runs the factory twice. A step of a call that does not end with a delegate, now
or later, leaves factory and delegate of the slot as they are. -/
theorem turn_agrees_with_calls (i : Nat) (before : List Happening) (h : Happening)
    (after : List Happening) :
    let c := start.run i before
    let c' := c.step i h
    let turn := (c.slot i).turn
    ((turn.holder.isSome ↔ ∃! r, r ∈ c.live ∧ r.hasTurn c.gateway) ∧
      ∀ r ∈ c.live, r.isRunning → r.hasTurn c.gateway) ∧
    (turn.queue = (c.live.filter (·.awaitsTurn c.gateway)).map (·.caller) ∧
      turn.queue.Pairwise (· < ·)) ∧
    (turn.holder = none → turn.queue = []) ∧
    ((∀ a, a ∉ c.callers → turn.holder ≠ some a ∧ a ∉ turn.queue) ∧
      ∀ e ∈ c.ended, e.caller ∉ c.callers) ∧
    (∀ a, turn.holder = some a → a ∉ c'.callers →
      (c'.slot i).turn.holder = turn.queue.head?) ∧
    (c.begun.map (·.caller)).Nodup ∧
    ∀ a, h.actor? c = some a →
      (∀ e ∈ (c'.run i after).ended, e.caller = a → ∀ d, e.outcome ≠ .ok d) →
      (c'.slot i).factory = (c.slot i).factory ∧ (c'.slot i).delegate = (c.slot i).delegate := by
  intro c c' turn
  obtain ⟨he, hc⟩ := orderly_run i before
  have hc' : c'.Orderly i :=
    (moves_induction (fun _ _ he hc hm => hm.orderly he hc) (step_moves he h) he hc).2
  have hholder : turn.holder = c.callers.head? := hc.holder_eq
  have hqueue : turn.queue = c.callers.tail := hc.queue_eq_tail
  refine ⟨⟨?_, ?_⟩, ⟨hc.queue_eq he, ?_⟩, ?_, ⟨?_, ?_⟩, ?_, hc.begunOnce, ?_⟩
  · exact hc.holder_isSome_iff he
  · intro r hr hrunning
    rw [hc.hasTurn_iff (he r hr).1, ← hholder]
    rcases hphase : r.phase with _ | f | run
    · simp [Resolution.isRunning, hphase] at hrunning
    · simp [Resolution.isRunning, hphase] at hrunning
    · exact hc.running r hr run hphase
  · rw [hqueue]
    exact hc.sorted.tail
  · intro hnone
    rw [hholder, List.head?_eq_none_iff] at hnone
    rw [hqueue, hnone]
    rfl
  · intro a ha
    rw [hholder, hqueue]
    exact ⟨fun h => ha (List.mem_of_head? h), fun h => ha (List.mem_of_mem_tail h)⟩
  · exact fun e hmem => (hc.gone e hmem).2
  · intro a ha hgone
    rw [hc'.holder_eq, hqueue]
    rw [hholder] at ha
    rw [callers_tail_of_gone h ha hgone]
  · exact fun a hactor hnone => slot_of_vain_step he after hactor hnone

end Crowd

end MuxBridge
