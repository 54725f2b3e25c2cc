/-
# What the log tells

Every call reports what it does as it does it, so the log of a slot tells how often the factory ran
and what became of the runs and of the calls. Only a run that is dropped is passed over in silence:
the log is short of an end there, and `Crowd.tally` counts such losses along the way.

* `Gateway.slotEvents`: what the log tells of a slot;
* `Crowd.Reported`: beginnings and ends of runs and errors of calls, in the log as on record;
* `Crowd.Announced`: an installation is in the log iff there is a delegate;
* `Crowd.Warned`: the deadlines in the log are those of the calls that they cut off;
* `log_accounts_for_runs`: the books balance.
-/
import MuxBridge.Proofs.Crowd.Fates
import MuxBridge.Proofs.Crowd.Runs

namespace MuxBridge

/-! ## Events of a slot -/

namespace LogEvent

/-- Whether an event is of a slot and of the calls for its delegate, and not of a round trip or of
the work with connections. -/
def isOfSlot : LogEvent → Bool
  | .factoryRegistered | .noFactory | .resolving | .factoryFailed _ | .installed
  | .resolutionTimedOut _ => true
  | _ => false

/-- Whether an event is the failure of a run. -/
def isFactoryFailed : LogEvent → Bool
  | .factoryFailed _ => true
  | _ => false

/-- What a run has ended in, if the event is the end of a run. -/
def result? : LogEvent → Option (Outcome Unit)
  | .factoryFailed e => some (.error e)
  | .installed => some (.ok ())
  | _ => none

/-- The error in which a call ends with the event, if it does. -/
def error? : LogEvent → Option Failure
  | .noFactory => some .noFactory
  | .factoryFailed e => some e
  | .resolutionTimedOut d => some (.resolutionTimeout d.millis)
  | _ => none

/-- The deadline that has passed, if the event says that one has. -/
def deadline? : LogEvent → Option Duration
  | .resolutionTimedOut d => some d
  | _ => none

/-- A run that has ended has installed its delegate or has failed. -/
theorem length_filterMap_result? (events : List LogEvent) :
    (events.filterMap result?).length
      = events.count .installed + events.countP (·.isFactoryFailed) := by
  induction events with
  | nil => rfl
  | cons e events ih =>
    rw [List.count_cons, List.countP_cons, Nat.add_add_add_comm, ← ih, List.filterMap_cons]
    cases e <;> simp [result?, isFactoryFailed]

end LogEvent

/-- The error in which a call has ended, if it has ended in one. -/
def Ending.error? (e : Ending) : Option Failure :=
  match e.outcome with
  | .error error => some error
  | .ok _ => none

/-- Whether a call has been told that its deadline has passed. -/
def Ending.isTimedOut (e : Ending) : Bool :=
  match e.outcome with
  | .error (.resolutionTimeout _) => true
  | _ => false

namespace Gateway

/-- What has been reported on slots. -/
def slotEvents (g : Gateway) : List LogEvent := (g.log.map (·.event)).filter (·.isOfSlot)

@[simp] theorem slotEvents_report (g : Gateway) (span : Span) (e : LogEvent) :
    (g.report span e).slotEvents = g.slotEvents ++ [e].filter (·.isOfSlot) := by
  simp [slotEvents, report]

@[simp] theorem slotEvents_changeSlot (g : Gateway) (i : Nat) (f : Slot → Slot) :
    (g.changeSlot i f).slotEvents = g.slotEvents := rfl

@[simp] theorem slotEvents_countRun (g : Gateway) (f : Factory) :
    (g.countRun f).1.slotEvents = g.slotEvents := rfl

@[simp] theorem slotEvents_build (g : Gateway) (b : Blueprint) (t : Transport) :
    (g.build b t).1.slotEvents = g.slotEvents := rfl

end Gateway

/-- Waiting for a reply and taking it is no matter of a slot, nor is giving it up. -/
theorem RoundTrip.slotEvents_resume (g : Gateway) (span : Span) (r : RoundTrip) :
    (r.resume g span).1.slotEvents = g.slotEvents := by
  unfold RoundTrip.resume
  split
  · rfl
  · split
    · simp [LogEvent.isOfSlot]
    · rfl

/-- A run that goes on reports nothing on the slot by itself. -/
theorem FactoryRun.slotEvents_of_resume {g g' : Gateway} {span : Span} {t : Transport}
    {run : FactoryRun} {o : Course FactoryRun (Outcome Blueprint)}
    (h : run.resume g span t = (g', o)) : g'.slotEvents = g.slotEvents := by
  rw [show g' = (run.resume g span t).1 by rw [h]]
  cases run with
  | resting a time =>
    simp only [FactoryRun.resume]
    split
    · split
      · exact RoundTrip.slotEvents_resume (RoundTrip.start g t .listConnections).1 span _
      · rfl
    · rfl
  | probing a trip => exact RoundTrip.slotEvents_resume g span trip

namespace Crowd

variable {i : Nat} {h : Happening} {c c' : Crowd} {front back : List Resolution} {r : Resolution}

/-! ## The log and the records -/

/-- The log tells of the runs and of the errors that are on record, in the same order. -/
structure Reported (c : Crowd) : Prop where
  begun : c.gateway.slotEvents.count .resolving = c.begun.length
  results : c.gateway.slotEvents.filterMap LogEvent.result?
    = c.results.map fun o => o.map fun _ => ()
  errors : c.gateway.slotEvents.filterMap LogEvent.error? = c.ended.filterMap Ending.error?

/-- What is new in the log is new on record. -/
theorem Reported.extend (hc : c.Reported) (new : List LogEvent)
    (hevents : c'.gateway.slotEvents = c.gateway.slotEvents ++ new)
    (hbegun : c'.begun.length = c.begun.length + new.count .resolving)
    (hresults : c'.results.map (fun o => o.map fun _ => ())
      = c.results.map (fun o => o.map fun _ => ()) ++ new.filterMap LogEvent.result?)
    (hended : c'.ended.filterMap Ending.error?
      = c.ended.filterMap Ending.error? ++ new.filterMap LogEvent.error?) : c'.Reported where
  begun := by rw [hevents, List.count_append, hc.begun, hbegun]
  results := by rw [hevents, List.filterMap_append, hc.results, hresults]
  errors := by rw [hevents, List.filterMap_append, hc.errors, hended]

/-- Every move reports the run that it begins or ends, and the error in which it ends a call. -/
theorem Move.reported (hm : Move i h c c') (hc : c.Reported) : c'.Reported := by
  cases hm with
  | greet | find =>
    exact hc.extend [] (List.append_nil _).symm rfl (List.append_nil _).symm List.filterMap_append
  | enter | abandon | reject | reset | elapse | meanwhile =>
    exact hc.extend [] (List.append_nil _).symm rfl (List.append_nil _).symm
      (List.append_nil _).symm
  | refuse =>
    exact hc.extend [.noFactory] (Gateway.slotEvents_report _ _ _) rfl (List.append_nil _).symm
      List.filterMap_append
  | launch =>
    refine hc.extend [.resolving] (Gateway.slotEvents_report _ _ _) ?_ (List.append_nil _).symm
      (List.append_nil _).symm
    simp [note]
  | work span hl hp hr =>
    refine hc.extend [] ?_ rfl (List.append_nil _).symm (List.append_nil _).symm
    rw [settle_waiting, FactoryRun.slotEvents_of_resume hr, List.append_nil]
  | @fail span front r back run g e hl hp hr =>
    refine hc.extend [.factoryFailed e] ?_ rfl List.map_append List.filterMap_append
    simp [FactoryRun.slotEvents_of_resume hr, LogEvent.isOfSlot]
  | install span hl hp hr =>
    refine hc.extend [.installed] ?_ rfl List.map_append List.filterMap_append
    simp [FactoryRun.slotEvents_of_resume hr, LogEvent.isOfSlot]
  | @expire span front r back l hl hlimit hpassed =>
    exact hc.extend [.resolutionTimedOut l.duration] (Gateway.slotEvents_report _ _ _) rfl
      (List.append_nil _).symm List.filterMap_append
  | register =>
    exact hc.extend [.factoryRegistered] (Gateway.slotEvents_report _ _ _) rfl
      (List.append_nil _).symm (List.append_nil _).symm

/-- The log agrees with the records after every run. -/
theorem reported_run (i : Nat) (hs : List Happening) : (start.run i hs).Reported :=
  (run_induction hs (fun _ _ _ _ _ hc hm => hm.reported hc) (entered_opening _) ⟨rfl, rfl, rfl⟩).2

/-- The failure of a run is in the log only if it is on record. -/
theorem Reported.mem_results {e : Failure} (hc : c.Reported)
    (he : .factoryFailed e ∈ c.gateway.slotEvents) : .error e ∈ c.results := by
  have hmem : .error e ∈ c.gateway.slotEvents.filterMap LogEvent.result? :=
    List.mem_filterMap.mpr ⟨_, he, rfl⟩
  rw [hc.results] at hmem
  obtain ⟨o, ho, heq⟩ := List.mem_map.mp hmem
  cases o with
  | error e' => rwa [← Except.error.inj heq]
  | ok b => cases heq

/-! ## Installations -/

/-- One installation is in the log if there is a delegate, and none otherwise. -/
def Announced (i : Nat) (c : Crowd) : Prop :=
  c.gateway.slotEvents.count .installed = (c.slot i).delegate.toList.length

/-- Every move but a reset keeps it so. -/
theorem Move.announced (hm : Move i h c c') (hreset : h ≠ .reset) (ha : c.Agreed i)
    (hc : c.Announced i) : c'.Announced i := by
  unfold Announced at hc ⊢
  cases hm with
  | work span hl hp hr | fail span hl hp hr =>
    simpa [slot, FactoryRun.slotEvents_of_resume hr, (FactoryRun.traffic_eq hr).slots,
      LogEvent.isOfSlot] using hc
  | @install span front r back run g b d hl hp hr =>
    -- nothing was installed before, since the factory runs for an empty slot
    have hnone := ha.running r (mem_of_live hl) run hp
    rw [hnone] at hc
    have hc : c.gateway.slotEvents.count .installed = 0 := hc
    simp [slot, FactoryRun.slotEvents_of_resume hr, LogEvent.isOfSlot, hc]
  | refuse | launch | expire | register =>
    simpa [slot, LogEvent.isOfSlot] using hc
  | enter | find | abandon => simpa [slot] using hc
  | greet | reject | elapse | meanwhile => exact hc
  | reset hh => exact absurd hh hreset

/-- As long as the slot is not emptied, the installation of its delegate is in the log once. -/
theorem announced_run (hs : List Happening) (hreset : ∀ h ∈ hs, h ≠ .reset) :
    (start.run i hs).Announced i :=
  (orderly_induction hs (P := fun c => c.Agreed i ∧ c.Announced i)
    (fun h hh _ _ _ ho hc hm =>
      ⟨hm.agreed (hreset h hh) ho hc.1, hm.announced (hreset h hh) hc.1 hc.2⟩)
    (entered_opening _) (orderly_opening rfl) ⟨agreed_start, rfl⟩).2.2.2

/-! ## Warnings -/

/-- No run has failed with an error that a call is also given when there is no factory or when its
deadline has passed. -/
def Candid (c : Crowd) : Prop :=
  ∀ e, .error e ∈ c.results → e ≠ .noFactory ∧ ∀ millis, e ≠ .resolutionTimeout millis

theorem Candid.of_grows (hc : c'.Candid) (hg : c.Grows c') : c.Candid :=
  fun e he => hc e (hg.results.subset he)

/-- The deadline with which a caller has come. -/
def deadline? (c : Crowd) (caller : Nat) : Option Duration :=
  (c.arrivals[caller]?.bind (·.limit)).map (·.duration)

theorem deadline?_of_grows {a : Nat} (hg : c.Grows c') (ha : a < c.arrivals.length) :
    c'.deadline? a = c.deadline? a := by
  have hq := List.getElem?_eq_getElem ha
  rw [deadline?, deadline?, getElem?_of_grows hg hq, hq]

/-- The deadlines in the log are those of the calls that were told so, in the same order. -/
def Warned (c : Crowd) : Prop :=
  (c.gateway.slotEvents.filterMap LogEvent.deadline?).map some
    = (c.ended.filter (·.isTimedOut)).map fun e => c.deadline? e.caller

/-- What callers came with is not changed by what comes later. -/
theorem deadlines_of_grows (ho : c.Orderly i) (hg : c.Grows c') :
    ((c.ended.filter (·.isTimedOut)).map fun e => c'.deadline? e.caller)
      = (c.ended.filter (·.isTimedOut)).map fun e => c.deadline? e.caller := by
  apply List.map_congr_left
  intro e he
  exact deadline?_of_grows hg (ho.gone e (List.mem_filter.mp he).1).1

/-- Nobody has been warned since. -/
theorem Warned.keep (hc : c.Warned) (ho : c.Orderly i) (hg : c.Grows c')
    (hevents : c'.gateway.slotEvents.filterMap LogEvent.deadline?
      = c.gateway.slotEvents.filterMap LogEvent.deadline?)
    (hended : c'.ended.filter (·.isTimedOut) = c.ended.filter (·.isTimedOut)) : c'.Warned := by
  unfold Warned at hc ⊢
  rw [hevents, hended, deadlines_of_grows ho hg]
  exact hc

/-- Who has been cut off since has been told of his own deadline. -/
theorem Warned.cutOff {e : Ending} {d : Duration} (hc : c.Warned) (ho : c.Orderly i)
    (hg : c.Grows c') (hevents : c'.gateway.slotEvents.filterMap LogEvent.deadline?
      = c.gateway.slotEvents.filterMap LogEvent.deadline? ++ [d])
    (hended : c'.ended = c.ended ++ [e]) (he : e.isTimedOut = true)
    (hd : c'.deadline? e.caller = some d) : c'.Warned := by
  unfold Warned at hc ⊢
  rw [hevents, hended, List.map_append, List.filter_append, List.map_append,
    deadlines_of_grows ho hg, hc]
  simp [he, hd]

/-- Every move warns of the deadline by which it cuts a call off, and of no other. -/
theorem Move.warned (hm : Move i h c c') (ho : c.Orderly i) (hr : c.Recalled) (hcandid : c'.Candid)
    (hc : c.Warned) : c'.Warned := by
  have hg := hm.grows
  cases hm with
  | @fail span front r back run g e hl hp hres =>
    -- an error of the factory's own is not taken for a deadline
    have hown := (hcandid e (by simp [noteResult])).2
    refine hc.keep ho hg ?_ ?_
    · simp [FactoryRun.slotEvents_of_resume hres, LogEvent.isOfSlot, LogEvent.deadline?]
    · cases e <;> simp_all [noteResult, Ending.isTimedOut]
  | @expire span front r back l hl hlimit hpassed =>
    have hdeadline : c.deadline? r.caller = some l.duration := by
      obtain ⟨q, hq, hql⟩ := hr r (mem_of_live hl)
      simp [deadline?, hq, hql, hlimit]
    refine hc.cutOff ho hg ?_ rfl rfl hdeadline
    simp [LogEvent.isOfSlot, LogEvent.deadline?]
  | work span hl hp hres | install span hl hp hres =>
    refine hc.keep ho hg ?_ ?_
    · simp [FactoryRun.slotEvents_of_resume hres, LogEvent.isOfSlot, LogEvent.deadline?]
    · simp [noteResult, Ending.isTimedOut]
  | refuse | launch | register =>
    refine hc.keep ho hg ?_ ?_
    · simp [LogEvent.isOfSlot, LogEvent.deadline?]
    · simp [note, Ending.isTimedOut]
  | greet | enter | find | abandon | reject | reset | elapse | meanwhile =>
    refine hc.keep ho hg rfl ?_
    simp [Ending.isTimedOut]

/-- If factories fail with errors of their own only, the warnings are those of the calls that were
cut off. -/
theorem warned_run (i : Nat) (hs : List Happening) (hcandid : (start.run i hs).Candid) :
    (start.run i hs).Warned :=
  (orderly_induction hs (P := fun c => c.Recalled ∧ (c.Candid → c.Warned))
    (fun _ _ _ _ _ ho hc hm => ⟨hm.recalled hc.1,
      fun hcandid => hm.warned ho hc.1 hcandid (hc.2 (hcandid.of_grows hm.grows))⟩)
    (entered_opening .start) (orderly_opening rfl)
    ⟨by simp [Recalled, opening], fun _ => rfl⟩).2.2.2 hcandid

/-- If factories fail with errors of their own only, a call lacks a factory iff the log says so. -/
theorem Reported.count_noFactory (hc : c.Reported) (hcandid : c.Candid) :
    c.gateway.slotEvents.count .noFactory = (c.ended.filterMap Ending.error?).count .noFactory := by
  rw [← hc.errors, List.count, List.count, List.countP_filterMap]
  apply List.countP_congr
  intro e he
  cases e with
  | factoryFailed f =>
    have hne := (hcandid f (hc.mem_results he)).1
    simp [LogEvent.error?, hne]
  | _ => simp [LogEvent.error?]

/-! ## The books balance -/

/-- **The log accounts for all runs**, whatever happens. A run is announced whenever the factory is
run, and what has been announced has been installed, has failed, was dropped or is under way; at
most one run is. As long as the slot is not emptied, an installation is in the log once at most, and
iff there is a delegate. The errors in the log are those that calls have ended in, in this order;
so if factories fail with errors of their own only, the `k`-th warning of a deadline is about the
`k`-th call that was told so, and names its deadline, and the log misses a factory as often as a
call did. -/
theorem log_accounts_for_runs (i : Nat) (hs : List Happening) :
    let c := start.run i hs
    let events := c.gateway.slotEvents
    (events.count .resolving = c.gateway.factoryCalls ∧
      events.count .resolving
        = events.count .installed + events.countP (·.isFactoryFailed)
          + start.tally i (cutsRun i) hs + start.tally i discardsRun hs + c.running ∧
      ((∀ h ∈ hs, ∀ a, h ≠ .abandon a) → start.tally i discardsRun hs = 0) ∧
      c.running ≤ 1) ∧
    ((∀ h ∈ hs, h ≠ .reset) → events.count .installed ≤ 1 ∧
      (.installed ∈ events ↔ (c.slot i).delegate.isSome)) ∧
    events.filterMap LogEvent.error? = c.ended.filterMap Ending.error? ∧
    (c.Candid →
      (events.filterMap LogEvent.deadline?).map some
        = (c.ended.filter (·.isTimedOut)).map (fun e => c.deadline? e.caller) ∧
      events.count .noFactory = (c.ended.filterMap Ending.error?).count .noFactory) := by
  intro c events
  obtain ⟨he, ho⟩ : c.Entered i ∧ c.Orderly i := orderly_run i hs
  have hreported : c.Reported := reported_run i hs
  have hcounted : c.Counted .start :=
    (counted_opening .start).run (entered_opening (i := i) .start) hs
  refine ⟨⟨?_, ?_, ?_, ho.countP_isRunning_le he⟩, ?_, hreported.errors, ?_⟩
  · rw [hreported.begun, hcounted.all]
    exact (Nat.zero_add _).symm
  · have hresults : c.results.length
        = events.count .installed + events.countP (·.isFactoryFailed) := by
      rw [← LogEvent.length_filterMap_result?, hreported.results, List.length_map]
    -- nothing had begun at the start
    have hbalance : c.begun.length + 0 + 0 = 0 + c.results.length + c.running
        + (start.tally i (cutsRun i) hs + start.tally i discardsRun hs) := begun_run i start hs
    rw [hreported.begun]
    omega
  · intro hstay
    apply tally_eq_zero
    intro h hh c
    cases h with
    | abandon a => exact absurd rfl (hstay _ hh a)
    | _ => rfl
  · intro hreset
    have hannounced : events.count .installed = (c.slot i).delegate.toList.length :=
      announced_run hs hreset
    rw [← List.count_pos_iff, hannounced]
    cases (c.slot i).delegate <;> simp
  · exact fun hcandid => ⟨warned_run i hs hcandid, hreported.count_noFactory hcandid⟩

/-- A caller who comes too early, and three more behind him: the factory fails for the first of
them, the deadline of the second passes in the middle of his run, and the third gets a delegate. -/
def everyEnd : List Happening :=
  [.call .none default none,
    .register fun n => ⟨10, false, if n = 0 then .error (.factory "busy") else .ok ⟨none, .empty⟩⟩,
    .call .none default none, .call .none default (some (.ofMillis 12)),
    .call .none default none, .elapse 10, .resume .none 1, .resume .none 2, .elapse 2,
    .resume .none 2, .resume .none 3, .elapse 10, .resume .none 3]

/-- Three runs are announced, of which one fails, one is cut off and one yields a delegate. -/
theorem log_accounts_for_runs_everyEnd :
    (∀ h ∈ everyEnd, h ≠ .reset) ∧ (∀ h ∈ everyEnd, ∀ a, h ≠ .abandon a) ∧
    (start.run 0 everyEnd).Candid ∧
    (start.run 0 everyEnd).gateway.factoryCalls = 1 + 1 + 1 + 0 + 0 ∧
    .installed ∈ (start.run 0 everyEnd).gateway.slotEvents ∧
    ((start.run 0 everyEnd).gateway.slotEvents.filterMap LogEvent.deadline?).map some
      = [some (.ofMillis 12)] ∧
    (start.run 0 everyEnd).gateway.slotEvents.count .noFactory = 1 := by
  have hreset : ∀ h ∈ everyEnd, h ≠ .reset := by simp [everyEnd]
  have hstay : ∀ h ∈ everyEnd, ∀ a, h ≠ .abandon a := by simp [everyEnd]
  have hresults : (start.run 0 everyEnd).results
      = [.error (.factory "busy"), .ok ⟨none, .empty⟩] := rfl
  have hcandid : (start.run 0 everyEnd).Candid := by
    intro e he
    rw [hresults] at he
    have he : e = .factory "busy" := by simpa using he
    simp [he]
  obtain ⟨⟨hcalls, hbalance, hdiscards, -⟩, hslot, -, htold⟩ := log_accounts_for_runs 0 everyEnd
  refine ⟨hreset, hstay, hcandid, ?_, ?_, ?_, ?_⟩
  · rw [← hcalls, hbalance, hdiscards hstay]
    decide
  · rw [(hslot hreset).2]
    decide
  · rw [(htold hcandid).1]
    rfl
  · rw [(htold hcandid).2]
    decide

end Crowd

end MuxBridge
