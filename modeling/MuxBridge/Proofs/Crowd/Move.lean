/-
# The moves of a crowd

One happening can take a call through several phases: it comes, has the turn at once, runs a factory
that takes no time, and installs its delegate. `Crowd.Move` lists the single moves that such a
passage is made of, each with its conditions and its whole effect.

* `step_moves`: whatever happens is a sequence of moves;
* `run_induction`: what holds at the start and is kept by every move holds after every run.
-/
import Mathlib.Data.List.TakeWhile
import Mathlib.Logic.Relation
import MuxBridge.Proofs.Crowd.Basic

namespace MuxBridge

open Relation

/-! ## Traffic -/

/-- Between two gateways nothing but requests, replies and reports has passed. -/
structure Gateway.Traffic (g g' : Gateway) : Prop where
  now : g'.now = g.now
  slots : g'.slots = g.slots
  runs : g'.runs = g.runs
  factoryCalls : g'.factoryCalls = g.factoryCalls
  delegates : g'.delegates = g.delegates
  delays : ∀ i, (g'.hosts i).delay = (g.hosts i).delay

namespace Gateway.Traffic

theorem refl (g : Gateway) : Traffic g g := ⟨rfl, rfl, rfl, rfl, rfl, fun _ => rfl⟩

theorem trans {g g' g'' : Gateway} (h : Traffic g g') (h' : Traffic g' g'') : Traffic g g'' :=
  ⟨h'.now.trans h.now, h'.slots.trans h.slots, h'.runs.trans h.runs,
    h'.factoryCalls.trans h.factoryCalls, h'.delegates.trans h.delegates,
    fun i => (h'.delays i).trans (h.delays i)⟩

end Gateway.Traffic

/-- Sending a request is traffic. -/
theorem RoundTrip.traffic_start (g : Gateway) (t : Transport) (q : Request) :
    g.Traffic (RoundTrip.start g t q).1 := ⟨rfl, rfl, rfl, rfl, rfl, g.delay_setHost rfl⟩

/-- Waiting for a reply and taking it is traffic. -/
theorem RoundTrip.traffic_resume (g : Gateway) (span : Span) (r : RoundTrip) :
    g.Traffic (r.resume g span).1 := by
  unfold RoundTrip.resume
  split
  · exact ⟨rfl, rfl, rfl, rfl, rfl, g.delay_setHost rfl⟩
  · split
    · exact ⟨rfl, rfl, rfl, rfl, rfl, fun _ => rfl⟩
    · exact .refl g

/-- All that a run of a factory does before it ends is traffic. -/
theorem FactoryRun.traffic_resume (g : Gateway) (span : Span) (t : Transport) (run : FactoryRun) :
    g.Traffic (run.resume g span t).1 := by
  cases run with
  | resting a time =>
    simp only [FactoryRun.resume]
    split
    · split
      · exact (RoundTrip.traffic_start g t _).trans (RoundTrip.traffic_resume _ span _)
      · exact .refl g
    · exact .refl g
  | probing a trip => exact RoundTrip.traffic_resume g span trip

theorem FactoryRun.traffic_eq {g g' : Gateway} {span : Span} {t : Transport} {run : FactoryRun}
    {c : Course FactoryRun (Outcome Blueprint)} (h : run.resume g span t = (g', c)) :
    g.Traffic g' := by
  have htraffic := FactoryRun.traffic_resume g span t run
  rw [h] at htraffic
  exact htraffic

/-! ## Effects on the slot -/

namespace Slot

variable (s : Slot) (a : Nat) (d : Delegate)

@[simp] theorem factory_enter : (s.enter a).factory = s.factory := rfl

@[simp] theorem delegate_enter : (s.enter a).delegate = s.delegate := rfl

@[simp] theorem turn_enter : (s.enter a).turn = s.turn.enter a := rfl

@[simp] theorem factory_leave : (s.leave a).factory = s.factory := rfl

@[simp] theorem delegate_leave : (s.leave a).delegate = s.delegate := rfl

@[simp] theorem turn_leave : (s.leave a).turn = s.turn.leave a := rfl

@[simp] theorem factory_install : (s.install d).factory = s.factory := rfl

@[simp] theorem delegate_install : (s.install d).delegate = some d := rfl

@[simp] theorem turn_install : (s.install d).turn = s.turn := rfl

@[simp] theorem factory_reset : s.reset.factory = none := rfl

@[simp] theorem delegate_reset : s.reset.delegate = none := rfl

@[simp] theorem turn_reset : s.reset.turn = s.turn := rfl

end Slot

namespace Gateway

@[simp] theorem slots_changeSlot (g : Gateway) (i : Nat) (f : Slot → Slot) :
    (g.changeSlot i f).slots i = f (g.slots i) := by
  simp [changeSlot]

@[simp] theorem slots_report (g : Gateway) (span : Span) (e : LogEvent) :
    (g.report span e).slots = g.slots := rfl

@[simp] theorem slots_countRun (g : Gateway) (f : Factory) : (g.countRun f).1.slots = g.slots := rfl

@[simp] theorem slots_build (g : Gateway) (b : Blueprint) (t : Transport) :
    (g.build b t).1.slots = g.slots := rfl

end Gateway

/-! ## Calls keep their places -/

/-- A round trip that goes on waits for the same reply, and no alarm of it has gone off. -/
theorem RoundTrip.eq_of_resume_waiting {g g' : Gateway} {span : Span} {trip trip' : RoundTrip}
    (h : trip.resume g span = (g', .waiting trip')) :
    trip' = trip ∧ ∀ time ∈ trip.alarms, g.now < time := by
  unfold RoundTrip.resume at h
  split at h
  · cases (Prod.mk.inj h).2
  · next hlate =>
    split at h
    · cases (Prod.mk.inj h).2
    · next hearly =>
      refine ⟨(Course.waiting.inj (Prod.mk.inj h).2).symm, ?_⟩
      intro time htime
      rcases List.mem_append.mp htime with hanswer | hlimit
      · rw [Option.mem_toList] at hanswer
        simpa [isAnswered, hanswer] using hlate
      · obtain ⟨l, hl, rfl⟩ := List.mem_map.mp hlimit
        simpa [Limit.hasPassed] using List.find?_eq_none.mp hearly l hl

namespace Resolution

variable {g g' : Gateway} {span : Span} {r r' : Resolution}

theorem eq_of_resumeRun_waiting {run : FactoryRun}
    (h : r.resumeRun g span run = (g', .waiting r')) : r' = { r with phase := r'.phase } := by
  unfold resumeRun at h
  split at h
  · obtain ⟨-, h⟩ := Prod.mk.inj h
    rw [← Course.waiting.inj h]
  · cases (Prod.mk.inj h).2

theorem eq_of_takeTurn_waiting {f : Factory} (h : r.takeTurn g span f = (g', .waiting r')) :
    r' = { r with phase := r'.phase } := by
  unfold takeTurn at h
  split at h
  · cases (Prod.mk.inj h).2
  · exact eq_of_resumeRun_waiting h

theorem eq_of_resumeUnlimited_waiting (h : r.resumeUnlimited g span = (g', .waiting r')) :
    r' = { r with phase := r'.phase } := by
  unfold resumeUnlimited at h
  split at h
  · unfold arrive at h
    split at h
    · cases (Prod.mk.inj h).2
    · cases (Prod.mk.inj h).2
    · dsimp only at h
      split at h
      · exact eq_of_takeTurn_waiting h
      · obtain ⟨-, h⟩ := Prod.mk.inj h
        rw [← Course.waiting.inj h]
  · split at h
    · exact eq_of_takeTurn_waiting h
    · obtain ⟨-, h⟩ := Prod.mk.inj h
      rw [← Course.waiting.inj h]
  · exact eq_of_resumeRun_waiting h

/-- A call that waits has changed in nothing but its phase. -/
theorem eq_of_resume_waiting (h : r.resume g span = (g', .waiting r')) :
    r' = { r with phase := r'.phase } := by
  unfold resume at h
  split at h
  · cases (Prod.mk.inj h).2
  · next hu =>
    split at h
    · obtain ⟨-, h⟩ := Prod.mk.inj h
      rw [← Course.waiting.inj h]
      exact eq_of_resumeUnlimited_waiting hu
    · cases (Prod.mk.inj h).2

end Resolution

namespace Crowd

@[simp] theorem settle_waiting (c : Crowd) (front back : List Resolution) (a : Nat) (g : Gateway)
    (r : Resolution) :
    c.settle front back a (g, .waiting r) = { c with gateway := g, live := front ++ r :: back } :=
  rfl

@[simp] theorem settle_ended (c : Crowd) (front back : List Resolution) (a : Nat) (g : Gateway)
    (o : Outcome Delegate) :
    c.settle front back a (g, .ended o)
      = { c with gateway := g, live := front ++ back, ended := c.ended ++ [⟨a, g.now, o⟩] } :=
  rfl

@[simp] theorem note_none (c : Crowd) (a : Nat) : c.note a none = c := by
  simp [note]

@[simp] theorem noteResult_none (c : Crowd) : c.noteResult none = c := by
  simp [noteResult]

/-- What has become of a call replaces the gateway and the calls under way. -/
theorem settle_update (c : Crowd) (front back live : List Resolution) (a : Nat) (g : Gateway)
    (x : Gateway × Course Resolution (Outcome Delegate)) :
    { c with gateway := g, live := live }.settle front back a x = c.settle front back a x := by
  obtain ⟨g', r' | o⟩ := x <;> rfl

/-! ## Calls under way -/

section Live

variable {c : Crowd} {front back : List Resolution} {q r r' : Resolution}

theorem mem_of_live (hl : c.live = front ++ r :: back) : r ∈ c.live := by
  rw [hl]
  exact List.mem_append_right _ List.mem_cons_self

/-- Who is left when a call has gone was there before. -/
theorem mem_of_around (hl : c.live = front ++ r :: back) (hq : q ∈ front ++ back) :
    q ∈ c.live := by
  rw [hl]
  exact (List.Sublist.append_left (List.sublist_cons_self _ _) _).subset hq

/-- Who is there when a call has changed was there before, or is that call. -/
theorem mem_of_replaced (hl : c.live = front ++ r :: back) (hq : q ∈ front ++ r' :: back) :
    q ∈ c.live ∨ q = r' := by
  rw [hl]
  rcases List.mem_append.mp hq with hq | hq
  · exact .inl (List.mem_append_left _ hq)
  · rcases List.mem_cons.mp hq with hq | hq
    · exact .inr hq
    · exact .inl (List.mem_append_right _ (List.mem_cons_of_mem _ hq))

end Live

/-! ## Moves -/

/-- A single move of a crowd while something happens. -/
inductive Move (i : Nat) (h : Happening) (c : Crowd) : Crowd → Prop
  /-- A call comes and finds the delegate. -/
  | greet {span t timeout d} (hh : h = .call span t timeout) (hd : (c.slot i).delegate = some d) :
      Move i h c { c with
        arrivals := c.arrivals ++ [c.newcomer i t timeout]
        ended := c.ended ++ [⟨c.arrivals.length, c.gateway.now, .ok d⟩] }
  /-- A call comes in vain: there is neither delegate nor factory. -/
  | refuse {span t timeout} (hh : h = .call span t timeout) (hd : (c.slot i).delegate = none)
      (hf : (c.slot i).factory = none) :
      Move i h c { c with
        gateway := c.gateway.report span .noFactory
        arrivals := c.arrivals ++ [c.newcomer i t timeout]
        ended := c.ended ++ [⟨c.arrivals.length, c.gateway.now, .error .noFactory⟩] }
  /-- A call comes, reads the factory, and takes the turn or waits for it. -/
  | enter {span t timeout f} (hh : h = .call span t timeout) (hd : (c.slot i).delegate = none)
      (hf : (c.slot i).factory = some f) :
      Move i h c { c with
        gateway := c.gateway.changeSlot i (·.enter c.arrivals.length)
        live := c.live ++ [{ c.newcomer i t timeout with phase := .queued f }]
        arrivals := c.arrivals ++ [c.newcomer i t timeout] }
  /-- A call has the turn and finds the delegate. -/
  | find {front r back f d} (hl : c.live = front ++ r :: back) (hp : r.phase = .queued f)
      (ht : r.hasTurn c.gateway = true) (hd : (c.slot i).delegate = some d) :
      Move i h c (c.settle front back r.caller
        (c.gateway.changeSlot i (·.leave r.caller), .ended (.ok d)))
  /-- A call has the turn and starts a run. -/
  | launch (span) {front r back f a} (hl : c.live = front ++ r :: back) (hp : r.phase = .queued f)
      (ht : r.hasTurn c.gateway = true) (hd : (c.slot i).delegate = none)
      (ha : a = f.attempt (c.gateway.runs f.serial)) :
      Move i h c ((c.note r.caller (some f)).settle front back r.caller
        (((c.gateway.report span .resolving).countRun f).1,
          .waiting { r with phase := .running (.resting a (c.gateway.now + a.delay)) }))
  /-- A run goes on. -/
  | work (span) {front r back run g run'} (hl : c.live = front ++ r :: back)
      (hp : r.phase = .running run)
      (hr : run.resume c.gateway span r.transport = (g, .waiting run')) :
      Move i h c (c.settle front back r.caller
        (g, .waiting { r with phase := .running run' }))
  /-- A run fails. -/
  | fail (span) {front r back run g e} (hl : c.live = front ++ r :: back)
      (hp : r.phase = .running run)
      (hr : run.resume c.gateway span r.transport = (g, .ended (.error e))) :
      Move i h c ((c.noteResult (some (.error e))).settle front back r.caller
        ((g.report span (.factoryFailed e)).changeSlot i (·.leave r.caller), .ended (.error e)))
  /-- A run builds a delegate, which is installed. -/
  | install (span) {front r back run g b d} (hl : c.live = front ++ r :: back)
      (hp : r.phase = .running run)
      (hr : run.resume c.gateway span r.transport = (g, .ended (.ok b)))
      (hd : d = b.build c.gateway.delegates r.transport) :
      Move i h c ((c.noteResult (some (.ok b))).settle front back r.caller
        ((((g.build b r.transport).1.changeSlot i (·.install d)).report span .installed).changeSlot
          i (·.leave r.caller), .ended (.ok d)))
  /-- The deadline of a call cuts it off. -/
  | expire (span) {front r back l} (hl : c.live = front ++ r :: back) (hr : r.limit = some l)
      (ht : l.hasPassed c.gateway = true) :
      Move i h c (c.settle front back r.caller
        ((c.gateway.changeSlot i (·.leave r.caller)).report span (.resolutionTimedOut l.duration),
          .ended (.error (.resolutionTimeout l.duration.millis))))
  /-- A call is dropped from outside. -/
  | abandon {front r back} (hh : h = .abandon r.caller) (hl : c.live = front ++ r :: back) :
      Move i h c { c with
        gateway := c.gateway.changeSlot i (·.leave r.caller)
        live := front ++ back }
  /-- A factory is offered and taken. -/
  | register {attempt f} (hh : h = .register attempt) (hf : f = ⟨c.offers.length, attempt⟩)
      (hn : (c.slot i).factory = none) :
      Move i h c { c with
        gateway := (c.gateway.changeSlot i fun s => { s with factory := some f }).report .none
          .factoryRegistered
        offers := c.offers ++ [f] }
  /-- A factory is offered and refused, for there is one. -/
  | reject {attempt f f'} (hh : h = .register attempt) (hf : f = ⟨c.offers.length, attempt⟩)
      (hs : (c.slot i).factory = some f') :
      Move i h c { c with offers := c.offers ++ [f] }
  /-- The slot is emptied. -/
  | reset (hh : h = .reset) :
      Move i h c { c with
        gateway := c.gateway.changeSlot i Slot.reset
        resetAt := c.arrivals.length }
  /-- Time passes. -/
  | elapse {millis} (hh : h = .elapse millis) :
      Move i h c { c with gateway := { c.gateway with now := c.gateway.now + millis } }
  /-- Something happens elsewhere. -/
  | meanwhile {hosts built} (hh : h = .meanwhile hosts built) :
      Move i h c { c with gateway :=
        { c.gateway with hosts := hosts, delegates := c.gateway.delegates + built } }

/-! ## Whatever happens is a sequence of moves -/

/-- All calls under way are for the slot and past their arrival. -/
def Entered (i : Nat) (c : Crowd) : Prop := ∀ r ∈ c.live, r.slot = i ∧ r.phase ≠ .arriving

variable {i : Nat} {h : Happening} {c : Crowd} {front back : List Resolution} {r : Resolution}

/-- A run of the factory goes on by one move. -/
theorem resumeRun_moves {run : FactoryRun} (span : Span) (hl : c.live = front ++ r :: back)
    (hs : r.slot = i) (hp : r.phase = .running run) :
    ReflTransGen (Move i h) c
      ((c.noteResult (run.resume c.gateway span r.transport).2.result?).settle front back r.caller
        (r.resumeRun c.gateway span run)) := by
  unfold Resolution.resumeRun
  rcases hr : run.resume c.gateway span r.transport with ⟨g, run' | o⟩
  · simp only [Course.result?, noteResult_none]
    exact .single (.work span hl hp hr)
  · rcases o with e | b
    · simp only [Resolution.concludeRun, Resolution.leave, hs]
      exact .single (.fail span hl hp hr)
    · simp only [Resolution.concludeRun, Resolution.leave, hs]
      refine .single (.install span hl hp hr ?_)
      -- the run has built nothing on its way, so its number is still the next one
      rw [← (FactoryRun.traffic_eq hr).delegates]
      rfl

/-- A call that finds a delegate or does not have the turn is in no run. -/
theorem nextResult?_of_launching?_none {g : Gateway} {span : Span} {f : Factory}
    (hp : r.phase = .queued f) (hn : r.launching? g = none) : r.nextResult? g span = none := by
  simp only [Resolution.nextResult?, Resolution.inRun?, hp, hn]
  rfl

/-- A call that is in a run starts none. -/
theorem launching?_of_running {g : Gateway} {run : FactoryRun} (hp : r.phase = .running run) :
    r.launching? g = none := by
  simp only [Resolution.launching?, hp]
  split <;> simp_all

/-- Taking the turn needs one move to find the delegate, or one to start a run and one more. -/
theorem takeTurn_moves {f : Factory} (span : Span) (hl : c.live = front ++ r :: back)
    (hs : r.slot = i) (hp : r.phase = .queued f) (ht : r.hasTurn c.gateway = true) :
    ReflTransGen (Move i h) c
      (((c.note r.caller ((r.launching? c.gateway).map (·.2))).noteResult
        (r.nextResult? c.gateway span)).settle front back r.caller
          (r.takeTurn c.gateway span f)) := by
  subst hs
  rcases hd : (c.gateway.slots r.slot).delegate with _ | d
  · -- there is no delegate: one move starts the run, and the run goes on from there
    have hlaunching : r.launching? c.gateway = some (c.gateway, f) := by
      simp only [Resolution.launching?, hd, hp, ht, if_true]
    have hresult : r.nextResult? c.gateway span
        = (((c.gateway.launch span f).2.resume (c.gateway.launch span f).1 span
            r.transport).2).result? := by
      simp only [Resolution.nextResult?, Resolution.inRun?, hp, hlaunching]
      rfl
    rw [hlaunching, hresult]
    refine .head (.launch span hl hp ht hd rfl) ?_
    have hrest := resumeRun_moves (h := h) span
      (c := (c.note r.caller (some f)).settle front back r.caller
        ((c.gateway.launch span f).1,
          .waiting { r with phase := .running (c.gateway.launch span f).2 }))
      rfl rfl rfl
    have htake : r.takeTurn c.gateway span f
        = r.resumeRun (c.gateway.launch span f).1 span (c.gateway.launch span f).2 := by
      simp only [Resolution.takeTurn, hd]
      rfl
    rw [htake]
    exact (settle_update _ _ _ _ _ _ _).symm ▸ hrest
  · -- somebody has installed a delegate while the call waited
    have hlaunching : r.launching? c.gateway = none := by
      simp only [Resolution.launching?, hd]
    rw [nextResult?_of_launching?_none hp hlaunching, hlaunching, Option.map_none, note_none,
      noteResult_none]
    simp only [Resolution.takeTurn, hd]
    exact .single (.find hl hp ht hd)

/-- Without its deadline a call that has entered goes on by moves. -/
theorem resumeUnlimited_moves (span : Span) (hl : c.live = front ++ r :: back) (hs : r.slot = i)
    (hp : r.phase ≠ .arriving) :
    ReflTransGen (Move i h) c
      (((c.note r.caller ((r.launching? c.gateway).map (·.2))).noteResult
        (r.nextResult? c.gateway span)).settle front back r.caller
          (r.resumeUnlimited c.gateway span)) := by
  have hstay : { c with gateway := c.gateway, live := front ++ r :: back } = c := by rw [← hl]
  rcases hp' : r.phase with _ | f | run
  · exact absurd hp' hp
  · simp only [Resolution.resumeUnlimited, hp']
    split
    · next ht => exact takeTurn_moves span hl hs hp' ht
    · next ht =>
      have hlaunching : r.launching? c.gateway = none := by
        simp only [Resolution.launching?, hp', ht]
        split <;> simp_all
      rw [nextResult?_of_launching?_none hp' hlaunching, hlaunching, Option.map_none, note_none,
        noteResult_none, settle_waiting, hstay]
  · have hresult : r.nextResult? c.gateway span
        = (run.resume c.gateway span r.transport).2.result? := by
      simp only [Resolution.nextResult?, Resolution.inRun?, hp']
      rfl
    rw [launching?_of_running hp', hresult, Option.map_none, note_none]
    simp only [Resolution.resumeUnlimited, hp']
    exact resumeRun_moves span hl hs hp'

/-- A call that has entered goes on by moves, and is cut off by one more. -/
theorem resume_moves (span : Span) (hl : c.live = front ++ r :: back) (hs : r.slot = i)
    (hp : r.phase ≠ .arriving) :
    ReflTransGen (Move i h) c (c.advance span front r back) := by
  have hmoves := resumeUnlimited_moves (h := h) span hl hs hp
  unfold advance Resolution.resume
  rcases hu : r.resumeUnlimited c.gateway span with ⟨g, r' | o⟩
  · rw [hu] at hmoves
    have hr' := Resolution.eq_of_resumeUnlimited_waiting hu
    have hslot : r'.slot = i := by rw [hr']; exact hs
    have hcaller : r'.caller = r.caller := by rw [hr']
    dsimp only
    rcases hlim : r'.limit.filter (Limit.hasPassed g) with _ | l
    · exact hmoves
    · -- the deadline cuts the call off after it has gone as far as it could
      obtain ⟨hlim, hpassed⟩ := Option.filter_eq_some_iff.mp hlim
      apply hmoves.tail
      have hexpire := Move.expire (i := i) (h := h) span
        (c := ((c.note r.caller ((r.launching? c.gateway).map (·.2))).noteResult
          (r.nextResult? c.gateway span)).settle front back r.caller (g, .waiting r'))
        rfl hlim hpassed
      rw [hcaller] at hexpire
      simp only [Resolution.expire, Resolution.leave, hslot, hcaller]
      exact hexpire
  · rw [hu] at hmoves
    exact hmoves

section Newcomer

variable {g : Gateway} {f : Factory}

/-- A call that comes and finds a factory only enters and then goes on like any other. -/
theorem resume_newcomer (span : Span) (r : Resolution) (hp : r.phase = .arriving)
    (hd : (g.slots r.slot).delegate = none) (hf : (g.slots r.slot).factory = some f) :
    r.resume g span
      = { r with phase := .queued f }.resume (g.changeSlot r.slot (·.enter r.caller)) span := by
  have h : r.resumeUnlimited g span
      = { r with phase := .queued f }.resumeUnlimited
          (g.changeSlot r.slot (·.enter r.caller)) span := by
    simp only [Resolution.resumeUnlimited, hp, Resolution.arrive, hd, hf]
    rfl
  unfold Resolution.resume
  rw [h]

theorem launching?_newcomer (r : Resolution) (hp : r.phase = .arriving)
    (hd : (g.slots r.slot).delegate = none) (hf : (g.slots r.slot).factory = some f) :
    r.launching? g
      = { r with phase := .queued f }.launching? (g.changeSlot r.slot (·.enter r.caller)) := by
  have hd' : ((g.changeSlot r.slot (·.enter r.caller)).slots r.slot).delegate = none := by
    rw [Gateway.slots_changeSlot]
    exact hd
  simp only [Resolution.launching?, hd, hp, hf, hd']
  rfl

theorem nextResult?_newcomer (span : Span) (r : Resolution) (hp : r.phase = .arriving)
    (hd : (g.slots r.slot).delegate = none) (hf : (g.slots r.slot).factory = some f) :
    r.nextResult? g span = { r with phase := .queued f }.nextResult?
      (g.changeSlot r.slot (·.enter r.caller)) span := by
  simp only [Resolution.nextResult?, Resolution.inRun?, hp, launching?_newcomer r hp hd hf]

end Newcomer

/-- A call that comes and finds a delegate takes it at once. -/
theorem step_call_of_delegate {d : Delegate} (span : Span) (t : Transport)
    (timeout : Option Duration) (hd : (c.slot i).delegate = some d) :
    c.step i (.call span t timeout) = { c with
      arrivals := c.arrivals ++ [c.newcomer i t timeout]
      ended := c.ended ++ [⟨c.arrivals.length, c.gateway.now, .ok d⟩] } := by
  have hd' : (c.gateway.slots i).delegate = some d := hd
  simp [step, advance, newcomer, Resolution.start, Resolution.launching?, Resolution.nextResult?,
    Resolution.inRun?, Resolution.resume, Resolution.resumeUnlimited, Resolution.arrive, hd']

/-- The arrival of a call is a sequence of moves. -/
theorem call_moves (c : Crowd) (span : Span) (t : Transport) (timeout : Option Duration) :
    ReflTransGen (Move i (.call span t timeout)) c (c.step i (.call span t timeout)) := by
  rcases hd : (c.gateway.slots i).delegate with _ | d
  · rcases hf : (c.gateway.slots i).factory with _ | f
    · have hstep : c.step i (.call span t timeout) = { c with
          gateway := c.gateway.report span .noFactory
          arrivals := c.arrivals ++ [c.newcomer i t timeout]
          ended := c.ended ++ [⟨c.arrivals.length, c.gateway.now, .error .noFactory⟩] } := by
        simp [step, advance, newcomer, Resolution.start, Resolution.launching?,
          Resolution.nextResult?, Resolution.inRun?, Resolution.resume,
          Resolution.resumeUnlimited, Resolution.arrive, hd, hf]
        rfl
      rw [hstep]
      exact .single (.refuse rfl hd hf)
    · -- after entering, the call is one of those under way, and goes on like them
      refine .head (.enter rfl hd hf) ?_
      have hrest := resume_moves (h := .call span t timeout) span
        (c := { c with
          gateway := c.gateway.changeSlot i (·.enter c.arrivals.length)
          live := c.live ++ [{ c.newcomer i t timeout with phase := .queued f }]
          arrivals := c.arrivals ++ [c.newcomer i t timeout] })
        (r := { c.newcomer i t timeout with phase := .queued f }) rfl rfl (by simp)
      have hstep : c.step i (.call span t timeout) = { c with
            gateway := c.gateway.changeSlot i (·.enter c.arrivals.length)
            live := c.live ++ [{ c.newcomer i t timeout with phase := .queued f }]
            arrivals := c.arrivals ++ [c.newcomer i t timeout] }.advance span c.live
          { c.newcomer i t timeout with phase := .queued f } [] := by
        simp only [step, advance]
        rw [resume_newcomer (f := f) span _ rfl hd hf, launching?_newcomer (f := f) _ rfl hd hf,
          nextResult?_newcomer (f := f) span _ rfl hd hf]
        exact (settle_update _ _ _ _ _ _ _).symm
      rw [hstep]
      exact hrest
  · rw [step_call_of_delegate span t timeout hd]
    exact .single (.greet rfl hd)

/-- The calls around a caller's are those under way. -/
theorem splitAt_eq {a : Nat} (hc : c.splitAt a = (front, r :: back)) :
    c.live = front ++ r :: back ∧ r.caller = a ∧ ∀ q ∈ front, q.caller ≠ a := by
  obtain ⟨hfront, hback⟩ := Prod.mk.inj hc
  refine ⟨?_, ?_, ?_⟩
  · rw [← hfront, ← hback, List.takeWhile_append_dropWhile]
  · have hhead := List.head?_dropWhile_not (fun q : Resolution => q.caller != a) c.live
    rw [hback] at hhead
    simpa using hhead
  · intro q hq
    rw [← hfront] at hq
    simpa using List.mem_takeWhile_imp hq

/-- Whatever happens is a sequence of moves. -/
theorem step_moves (hc : c.Entered i) (h : Happening) :
    ReflTransGen (Move i h) c (c.step i h) := by
  cases h with
  | call span t timeout => exact call_moves c span t timeout
  | resume span a =>
    simp only [step]
    split
    · next front r back hsplit =>
      obtain ⟨hl, rfl, -⟩ := splitAt_eq hsplit
      obtain ⟨hs, hp⟩ := hc r (mem_of_live hl)
      exact resume_moves span hl hs hp
    · exact .refl
  | abandon a =>
    simp only [step]
    split
    · next front r back hsplit =>
      obtain ⟨hl, rfl, -⟩ := splitAt_eq hsplit
      obtain ⟨rfl, -⟩ := hc r (mem_of_live hl)
      exact .single (.abandon rfl hl)
    · exact .refl
  | register attempt =>
    rcases hf : (c.gateway.slots i).factory with _ | f
    · have hstep : (c.gateway.register i ⟨c.offers.length, attempt⟩).1
          = (c.gateway.changeSlot i fun s =>
              { s with factory := some ⟨c.offers.length, attempt⟩ }).report .none
                .factoryRegistered := by
        simp [Gateway.register, Slot.register, hf, Gateway.changeSlot]
      simp only [step, hstep]
      exact .single (.register rfl rfl hf)
    · have hstep : (c.gateway.register i ⟨c.offers.length, attempt⟩).1 = c.gateway := by
        simp [Gateway.register, Slot.register, hf]
      simp only [step, hstep]
      exact .single (.reject rfl rfl hf)
  | reset => exact .single (.reset rfl)
  | elapse millis => exact .single (.elapse rfl)
  | meanwhile hosts built => exact .single (.meanwhile rfl)

/-! ## Induction along runs -/

/-- A call keeps its slot and does not arrive again. -/
theorem Move.entered {c' : Crowd} (hm : Move i h c c') (hc : c.Entered i) : c'.Entered i := by
  intro q hq
  cases hm with
  | enter hh hd hf =>
    rcases List.mem_append.mp hq with hq | hq
    · exact hc q hq
    · rw [List.mem_singleton.mp hq]
      exact ⟨rfl, by simp⟩
  | launch _ hl | work _ hl =>
    rcases mem_of_replaced hl hq with hq | rfl
    · exact hc q hq
    · exact ⟨(hc _ (mem_of_live hl)).1, by simp⟩
  | find hl | fail _ hl | install _ hl | expire _ hl | abandon _ hl =>
    exact hc q (mem_of_around hl hq)
  | greet | refuse | register | reject | reset | elapse | meanwhile => exact hc q hq

/-- Moves keep what every single move keeps. -/
theorem moves_induction {P : Crowd → Prop}
    (hP : ∀ c c', c.Entered i → P c → Move i h c c' → P c') {c c' : Crowd}
    (hm : ReflTransGen (Move i h) c c') (hc : c.Entered i) (h0 : P c) :
    c'.Entered i ∧ P c' := by
  induction hm with
  | refl => exact ⟨hc, h0⟩
  | tail _ hm ih => exact ⟨hm.entered ih.1, hP _ _ ih.1 ih.2 hm⟩

/-- A run keeps what every single move keeps. -/
theorem run_induction {P : Crowd → Prop} (hs : List Happening)
    (hP : ∀ h ∈ hs, ∀ c c', c.Entered i → P c → Move i h c c' → P c') (hc : c.Entered i)
    (h0 : P c) : (c.run i hs).Entered i ∧ P (c.run i hs) := by
  induction hs generalizing c with
  | nil => exact ⟨hc, h0⟩
  | cons h hs ih =>
    -- the moves of the first happening lead to where the others begin
    obtain ⟨hc', h0'⟩ := moves_induction (hP h (by simp)) (step_moves hc h) hc h0
    exact ih (fun h' hh' => hP h' (by simp [hh'])) hc' h0'

/-- Whatever happens, nobody arrives twice. -/
theorem Entered.step (hc : c.Entered i) (h : Happening) : (c.step i h).Entered i :=
  (moves_induction (P := fun _ => True) (fun _ _ _ _ _ => trivial) (step_moves hc h) hc trivial).1

/-- At the opening nobody is under way. -/
theorem entered_opening (g : Gateway) : (opening g).Entered i := by
  intro r hr
  cases hr

end Crowd

end MuxBridge
