/-
# Calls on resolved slots do not notice each other

A batch is a list of operations that start at times of their own. If the slots that they use have
their delegates, and the hosts that they ask answer by a function of the request, then an operation
takes no turn and shares no reply with any other: in every batch it comes to the same, after the
same time, as if it had been alone.

* `Batch.workshop`: the jobs of a batch, which share one gateway;
* `Operation.EndsIn`: what an operation comes to by itself, and how long it takes;
* `Batch.clockwork`: the operations of a batch mind only the clock;
* `Batch.ends_as_if_alone`: the main result.
-/
import MuxBridge.Proofs.Batch.Clockwork
import MuxBridge.Proofs.Exchange.Trips
import MuxBridge.Proofs.Service.Failures

namespace MuxBridge

/-! ## Batches -/

namespace Batch

/-- A job of a batch: an operation that is to begin at a time, or one whose call is under way. -/
inductive Job where
  | planned (number time : Nat) (op : Operation)
  | calling (op : Operation) (call : Call)

/-- Lets a call go on as far as it can. -/
def goOn (g : Gateway) (op : Operation) (call : Call) :
    Gateway × Advance Job (Outcome Finding) :=
  match call.resume g with
  | (g, .waiting call) => (g, .waiting (.calling op call))
  | (g, .ended o) => (g, .ended (o.map op.finding))

/-- Begins an operation, which goes on as far as it can at once. -/
def begin (g : Gateway) (number : Nat) (op : Operation) :
    Gateway × Advance Job (Outcome Finding) :=
  match op.start g number with
  | (g, .waiting call) => goOn g op call
  | (g, .ended f) => (g, .ended (.ok f))

/-- Goes on with a job as far as possible. -/
def resume (g : Gateway) : Job → Gateway × Advance Job (Outcome Finding)
  | .planned number time op =>
    if time ≤ g.now then begin g number op else (g, .waiting (.planned number time op))
  | .calling op call => goOn g op call

/-- The jobs of a batch work on a gateway. -/
def workshop : Workshop Gateway Job (Outcome Finding) where
  now := Gateway.now
  moveTo g time := { g with now := time }
  resume := resume
  isReady g j :=
    match j with
    | .planned .. => false
    | .calling _ call => call.isReady g
  alarms j :=
    match j with
    | .planned _ time _ => [time]
    | .calling _ call => call.alarms

/-- A batch of operations, each of which begins after so many milliseconds. -/
def start (g : Gateway) (calls : List (Nat × Operation)) :
    Schedule Gateway Job (Outcome Finding) :=
  .start g (calls.zipIdx.map fun c => .planned c.2 (g.now + c.1.1) c.1.2)

/-- What becomes of a batch in so many steps. -/
def run (g : Gateway) (calls : List (Nat × Operation)) (fuel : Nat) :
    Schedule Gateway Job (Outcome Finding) :=
  (start g calls).run workshop fuel

end Batch

/-! ## Gateways that stay steady -/

/-- Between two gateways slots have stayed as they are, and hosts answer as before if they do so by
a function of the request. -/
structure Gateway.Steady (g g' : Gateway) : Prop where
  slots : g'.slots = g.slots
  delays : ∀ i, (g'.hosts i).delay = (g.hosts i).delay
  answering : ∀ i f, (g.hosts i).responder = .answering f → (g'.hosts i).responder = .answering f

/-- And no time has passed. -/
structure Gateway.Stays (g g' : Gateway) : Prop extends Gateway.Steady g g' where
  now : g'.now = g.now

namespace Gateway

variable {g g' g'' : Gateway}

theorem Steady.trans (h : g.Steady g') (h' : g'.Steady g'') : g.Steady g'' :=
  ⟨h'.slots.trans h.slots, fun i => (h'.delays i).trans (h.delays i),
    fun i f hf => h'.answering i f (h.answering i f hf)⟩

theorem Stays.trans (h : g.Stays g') (h' : g'.Stays g'') : g.Stays g'' :=
  ⟨h.toSteady.trans h'.toSteady, h'.now.trans h.now⟩

theorem stays_of_eq (hslots : g'.slots = g.slots) (hhosts : g'.hosts = g.hosts)
    (hnow : g'.now = g.now) : g.Stays g' :=
  ⟨⟨hslots, fun i => by rw [hhosts], fun i f hf => by rw [hhosts]; exact hf⟩, hnow⟩

theorem Stays.refl (g : Gateway) : g.Stays g := stays_of_eq rfl rfl rfl

theorem stays_report (g : Gateway) (span : Span) (e : LogEvent) : g.Stays (g.report span e) :=
  stays_of_eq rfl rfl rfl

theorem steady_moveTo (g : Gateway) (time : Nat) : g.Steady { g with now := time } :=
  ⟨rfl, fun _ => rfl, fun _ _ hf => hf⟩

/-- A host that is replaced by one that answers alike. -/
theorem stays_setHost {i : Nat} {h : Host} (hdelay : h.delay = (g.hosts i).delay)
    (hanswering : ∀ f, (g.hosts i).responder = .answering f → h.responder = .answering f) :
    g.Stays (g.setHost i h) := by
  refine ⟨⟨rfl, g.delay_setHost hdelay, ?_⟩, rfl⟩
  intro j f hf
  show (setAt g.hosts i h j).responder = _
  by_cases hj : j = i
  · rw [hj] at hf
    rw [hj, setAt_same]
    exact hanswering f hf
  · rw [setAt_of_ne _ _ hj]
    exact hf

end Gateway

namespace RoundTrip

theorem stays_start (g : Gateway) (t : Transport) (q : Request) : g.Stays (start g t q).1 :=
  Gateway.stays_setHost rfl fun _ hf => hf

theorem stays_resume (g : Gateway) (span : Span) (r : RoundTrip) :
    g.Stays (r.resume g span).1 := by
  by_cases hdue : r.isAnswered g = true
  · rw [resume_of_due span hdue]
    apply Gateway.stays_setHost
    · rfl
    · intro f hf
      simp only [Host.answer, hf, Responder.answer]
  · rw [resume, if_neg hdue]
    split
    · exact g.stays_report span _
    · exact .refl g

end RoundTrip

/-! ## Calls that wait for their replies -/

namespace Listing

theorem stays_conclude (g : Gateway) (d : Delegate) (reply : Outcome Response) :
    g.Stays (conclude g d reply).1 := by
  unfold conclude
  split
  · exact .refl g
  · split <;> exact Gateway.stays_of_eq rfl rfl rfl

theorem stays_resumeTrip (g : Gateway) (d : Delegate) (trip : RoundTrip) :
    g.Stays (resumeTrip g d trip).1 := by
  have htrip := trip.stays_resume g .listing
  unfold resumeTrip
  split
  · next h =>
    rw [h] at htrip
    exact htrip
  · next h =>
    rw [h] at htrip
    exact htrip.trans (stays_conclude _ d _)

theorem stays_ask (g : Gateway) (t : Transport) : g.Stays (ask g t).1 :=
  (g.stays_report _ _).trans (RoundTrip.stays_start _ t _)

end Listing

namespace Dispatch

theorem stays_start (g : Gateway) (c : Connection) (w : Work) : g.Stays (start g c w).1 :=
  (g.stays_report _ _).trans (RoundTrip.stays_start _ _ _)

theorem stays_conclude (g : Gateway) (d : Dispatch) (reply : Outcome Response) :
    g.Stays (d.conclude g reply).1 := by
  unfold conclude
  split
  · exact .refl g
  · split
    · exact g.stays_report _ _
    · unfold judge
      split
      · exact .refl g
      · exact .refl g
      · exact .refl g
      · unfold openedIn
        dsimp only
        split <;> exact Gateway.stays_of_eq rfl rfl rfl
      · exact g.stays_report _ _
      · exact .refl g

theorem stays_resume (g : Gateway) (d : Dispatch) : g.Stays (d.resume g).1 := by
  have htrip := d.trip.stays_resume g d.span
  unfold resume
  split
  · next h =>
    rw [h] at htrip
    exact htrip
  · next h =>
    rw [h] at htrip
    exact htrip.trans (d.stays_conclude _ _)

end Dispatch

namespace Call

variable {g : Gateway} {call : Call} {trip : RoundTrip}

theorem stays_resume (htrip : call.trip? = some trip) : g.Stays (call.resume g).1 := by
  cases call with
  | listing l =>
    cases l with
    | resolving r => cases htrip
    | asking d trip => exact Listing.stays_resumeTrip g d trip
  | dispatch d => exact d.stays_resume g
  | resolution | roundTrip | rest => cases htrip

/-- A call waits as long as its round trip does. -/
theorem resume_of_trip_waiting (htrip : call.trip? = some trip)
    (h : ∀ span, trip.resume g span = (g, .waiting trip)) : call.resume g = (g, .waiting call) := by
  cases call with
  | listing l =>
    cases l with
    | resolving r => cases htrip
    | asking d trip' =>
      obtain rfl : trip' = trip := Option.some.inj htrip
      simp only [resume, Listing.resume, Listing.resumeTrip, h]
      rfl
  | dispatch d =>
    obtain rfl : d.trip = trip := Option.some.inj htrip
    simp only [resume, Dispatch.resume, h]
    rfl
  | resolution | roundTrip | rest => cases htrip

/-- A call takes the reply of its round trip. -/
theorem reply?_of_trip_ended {reply : Outcome Response} (htrip : call.trip? = some trip)
    (h : ∀ span, (trip.resume g span).2 = .ended reply) : call.reply? g = some reply := by
  cases call with
  | listing l =>
    cases l with
    | resolving r => cases htrip
    | asking d trip' =>
      obtain rfl : trip' = trip := Option.some.inj htrip
      exact congrArg Course.result? (h .listing)
  | dispatch d =>
    obtain rfl : d.trip = trip := Option.some.inj htrip
    exact congrArg Course.result? (h d.span)
  | resolution | roundTrip | rest => cases htrip

/-- The clock is all that a call in a round trip waits for. -/
theorem alarms_of_trip (htrip : call.trip? = some trip) : call.alarms = trip.alarms := by
  cases call with
  | listing l =>
    cases l with
    | resolving r => cases htrip
    | asking d trip' => rw [← Option.some.inj htrip]; rfl
  | dispatch d => rw [← Option.some.inj htrip]; rfl
  | resolution | roundTrip | rest => cases htrip

/-- A call in a round trip has its delegate. -/
theorem resolved?_of_trip (htrip : call.trip? = some trip) : call.resolved? g = none := by
  cases call with
  | listing l =>
    cases l with
    | resolving r => cases htrip
    | asking => rfl
  | dispatch => rfl
  | resolution | roundTrip | rest => cases htrip

theorem isReady_of_trip (htrip : call.trip? = some trip) : call.isReady g = false := by
  cases call with
  | listing l =>
    cases l with
    | resolving r => cases htrip
    | asking => rfl
  | dispatch => rfl
  | resolution | roundTrip | rest => cases htrip

end Call

/-! ## Operations by themselves -/

namespace Operation

/-- The delegate in the slot of an operation. -/
def resolvedIn (g : Gateway) (op : Operation) : Option Delegate :=
  op.slot?.bind fun i => (g.slots i).delegate

/-- An operation finds the slot that it uses resolved, and asks a host that answers by a function of
the request. The host answers at some time, or there is a deadline for it. -/
structure Ready (g : Gateway) (op : Operation) : Prop where
  resolved : ∀ i, op.slot? = some i → ∃ d, (g.slots i).delegate = some d
  answered : ∀ x, op.request? = some x → ∃ f, (g.hosts x.transport.host).responder = .answering f
  awaited : ∀ x, op.request? = some x →
    x.transport.waits (g.hosts x.transport.host).delay ≠ []

/-- What an operation comes to by itself, and the milliseconds that it takes. -/
inductive EndsIn (g : Gateway) : Operation → Outcome Finding → Nat → Prop where
  | resolved (i : Nat) (t : Transport) (timeout : Option Duration) {d : Delegate}
      (hd : (g.slots i).delegate = some d) :
      EndsIn g (.ensure i t timeout) (.ok (.yielded (.delegate d t))) 0
  | session (c : Connection) : EndsIn g (.owningSession c) (.ok (.session c.owningSession)) 0
  | answered {op : Operation} {x : Sending} {d : Delegate} {f : Request → Outcome Response}
      (hx : op.request? = some x) (hd : op.delegate? (op.resolvedIn g) = some d)
      (hf : (g.hosts x.transport.host).responder = .answering f) {time : Nat}
      (htime : x.transport.tripTime? (g.hosts x.transport.host).delay = some time) :
      EndsIn g op
        (op.verdict d (x.transport.outcome (g.hosts x.transport.host).delay time (f x.request)))
        time

variable {g₀ g : Gateway} {op : Operation} {start : Nat} {call : Call}

/-- An operation comes to one thing only. -/
theorem EndsIn.unique {o o' : Outcome Finding} {time time' : Nat} (h : EndsIn g op o time)
    (h' : EndsIn g op o' time') : o = o' ∧ time = time' := by
  cases h with
  | resolved i t timeout hd =>
    cases h' with
    | resolved _ _ _ hd' => rw [Option.some.inj (hd.symm.trans hd')]; exact ⟨rfl, rfl⟩
    | answered hx => cases hx
  | session c =>
    cases h' with
    | session => exact ⟨rfl, rfl⟩
    | answered hx => cases hx
  | answered hx hd hf htime =>
    cases h' with
    | resolved => cases hx
    | session => cases hx
    | answered hx' hd' hf' htime' =>
      obtain rfl := Option.some.inj (hx.symm.trans hx')
      obtain rfl := Option.some.inj (hd.symm.trans hd')
      obtain rfl := Responder.answering.inj (hf.symm.trans hf')
      obtain rfl := Option.some.inj (htime.symm.trans htime')
      exact ⟨rfl, rfl⟩

/-- A call of an operation that has started at some time is in the round trip with its request. -/
structure Pending (g₀ : Gateway) (op : Operation) (start : Nat) (x : Sending) (trip : RoundTrip)
    (call : Call) : Prop where
  tracks : ∃ sent, op.Tracks (op.resolvedIn g₀) sent call
  request : op.request? = some x
  waits : call.trip? = some trip
  carries : trip.Carries x
  since : trip.Since x.transport (g₀.hosts x.transport.host).delay start

variable {x : Sending} {trip : RoundTrip} {time : Nat}

/-- An operation comes to its end when its round trip does. -/
theorem Pending.endsIn (h : Pending g₀ op start x trip call) (hready : op.Ready g₀)
    (hg : g₀.Steady g)
    (htime : x.transport.tripTime? (g₀.hosts x.transport.host).delay = some time)
    (hnow : g.now = start + time) :
    ∃ o, ((call.resume g).2.result?.map fun o => o.map op.finding) = some o ∧
      EndsIn g₀ op o time := by
  obtain ⟨sent, htracks⟩ := h.tracks
  obtain ⟨f, hf⟩ := hready.answered x h.request
  obtain ⟨hhost, hrequest, -⟩ := h.carries
  have hanswer : ((g.hosts trip.host).answer trip.request).1 = f x.request := by
    rw [hhost, hrequest, Host.answer, hg.answering _ f hf]
    rfl
  have hreply := Call.reply?_of_trip_ended h.waits fun span =>
    RoundTrip.resume_at_end span h.since htime hnow
  rw [hanswer] at hreply
  obtain ⟨d, hd, hresult⟩ := judged_of_reply? htracks hreply
  rw [Call.resolved?_of_trip h.waits, Option.none_or] at hd
  exact ⟨_, hresult, .answered h.request hd hf htime⟩

end Operation

namespace Batch

open Operation

variable {g₀ g : Gateway} {op : Operation} {start : Nat} {call : Call} {x : Sending}
  {trip : RoundTrip} {time : Nat}

theorem goOn_fst (g : Gateway) (op : Operation) (call : Call) :
    (goOn g op call).1 = (call.resume g).1 := by
  unfold goOn
  split <;> next h => rw [h]

theorem goOn_of_result {o : Outcome Finding}
    (h : ((call.resume g).2.result?.map fun o => o.map op.finding) = some o) :
    (goOn g op call).2 = .ended o := by
  unfold goOn
  split
  · next hres => rw [hres] at h; cases h
  · next hres =>
    rw [hres] at h
    exact congrArg Advance.ended (Option.some.inj h)

/-- An operation that waits for its reply does nothing before it comes to its end. -/
theorem goOn_of_before (h : Pending g₀ op start x trip call)
    (htime : x.transport.tripTime? (g₀.hosts x.transport.host).delay = some time)
    (hnow : g.now < start + time) :
    goOn g op call = (g, .waiting (.calling op call)) := by
  have hwaits := Call.resume_of_trip_waiting (g := g) h.waits fun span =>
    RoundTrip.resume_of_before span h.since htime hnow
  rw [goOn, hwaits]

theorem due_calling (h : Pending g₀ op start x trip call)
    (htime : x.transport.tripTime? (g₀.hosts x.transport.host).delay = some time) :
    workshop.due (.calling op call) = start + time := by
  show call.alarms.min?.getD 0 = _
  rw [Call.alarms_of_trip h.waits, h.since.min?_alarms htime]
  rfl

/-- A listing at a slot with a delegate asks its host at once. -/
theorem goOn_listing {i number : Nat} {t : Transport} {timeout : Option Duration} {d : Delegate}
    (hd : (g.slots i).delegate = some d) :
    goOn g op (.listing (.start g i number t timeout))
      = goOn (Listing.ask g t).1 op (.listing (.asking d (Listing.ask g t).2)) := by
  have hresume : (Listing.start g i number t timeout).resume g
      = (Listing.asking d (Listing.ask g t).2).resume (Listing.ask g t).1 :=
    Listing.resume_of_ok (Resolution.resume_start_of_some hd)
  simp only [goOn, Call.resume, hresume]

/-- An operation that begins with a request of its own is at once in a round trip with it. -/
theorem begin_eq_goOn (hready : op.Ready g₀) (hg : g₀.Steady g) (number : Nat)
    (hx : op.request? = some x) :
    ∃ g' call trip, begin g number op = goOn g' op call ∧ g.Stays g' ∧
      Pending g₀ op g.now x trip call := by
  cases op with
  | list i t timeout | find i t timeout id =>
    obtain rfl := Option.some.inj hx
    obtain ⟨d, hd₀⟩ := hready.resolved i rfl
    have hd : (g.slots i).delegate = some d := by
      rw [hg.slots]
      exact hd₀
    refine ⟨_, _, (Listing.ask g t).2, goOn_listing hd, Listing.stays_ask g t, ?_⟩
    have hcarries := RoundTrip.carries_start (g.report .listing .listing) t .listConnections
    refine ⟨⟨[], t, rfl, hd₀, hcarries⟩, rfl, rfl, hcarries, ?_⟩
    rw [← hg.delays]
    exact RoundTrip.since_start _ t .listConnections
  | work c w =>
    obtain rfl := Option.some.inj hx
    refine ⟨_, .dispatch (Dispatch.start g c w).2, (Dispatch.start g c w).2.trip, rfl,
      Dispatch.stays_start g c w, ?_⟩
    have hcarries := RoundTrip.carries_start
      (g.report (w.span c.id) (.sending (w.request c.id).kind)) c.delegate.transport
      (w.request c.id)
    refine ⟨⟨[], rfl, hcarries⟩, rfl, rfl, hcarries, ?_⟩
    rw [← hg.delays]
    exact RoundTrip.since_start _ c.delegate.transport (w.request c.id)
  | ensure | owningSession => cases hx

/-- An operation without a request of its own ends at once. -/
theorem begin_of_request?_none (hready : op.Ready g₀) (hg : g₀.Steady g) (number : Nat)
    (hx : op.request? = none) :
    ∃ o, begin g number op = (g, .ended o) ∧ EndsIn g₀ op o 0 := by
  cases op with
  | ensure i t timeout =>
    obtain ⟨d, hd₀⟩ := hready.resolved i rfl
    have hd : (g.slots i).delegate = some d := by
      rw [hg.slots]
      exact hd₀
    refine ⟨_, ?_, .resolved i t timeout hd₀⟩
    simp only [begin, Operation.start, goOn, Call.resume, Resolution.resume_start_of_some hd]
    rfl
  | owningSession c => exact ⟨_, rfl, .session c⟩
  | list | find | work => cases hx

/-! ## The operations of a batch mind only the clock -/

/-- The jobs of a batch under their paths. -/
inductive Sound (g₀ : Gateway) (calls : List (Nat × Operation)) : JobPath → Job → Prop where
  | planned {k : Nat} {c : Nat × Operation} (hc : calls[k]? = some c) (number : Nat) :
      Sound g₀ calls [k] (.planned number (g₀.now + c.1) c.2)
  | calling {k : Nat} {c : Nat × Operation} {x : Sending} {trip : RoundTrip} {call : Call}
      (hc : calls[k]? = some c) (hcall : Pending g₀ c.2 (g₀.now + c.1) x trip call) :
      Sound g₀ calls [k] (.calling c.2 call)

/-- What the operations of a batch come to under their paths, and when. -/
inductive Ends (g₀ : Gateway) (calls : List (Nat × Operation)) :
    JobPath → Outcome Finding → Nat → Prop where
  | intro {k : Nat} {c : Nat × Operation} {o : Outcome Finding} {time : Nat}
      (hc : calls[k]? = some c) (h : EndsIn g₀ c.2 o time) :
      Ends g₀ calls [k] o (g₀.now + c.1 + time)

/-- How many alarms a job has left after its first one. -/
def left : Job → Nat
  | .planned .. => 1
  | .calling .. => 0

variable {calls : List (Nat × Operation)} {p : JobPath} {j : Job}

/-- An operation that goes on when its time has come is over. -/
theorem fulfils_goOn {k : Nat} {c : Nat × Operation} (hc : calls[k]? = some c)
    (hready : c.2.Ready g₀) (hg : g₀.Steady g) (h : Pending g₀ c.2 (g₀.now + c.1) x trip call)
    (htime : x.transport.tripTime? (g₀.hosts x.transport.host).delay = some time)
    (hnow : g.now = g₀.now + c.1 + time) :
    ∃ o, (goOn g c.2 call).2 = .ended o ∧ Ends g₀ calls [k] o g.now := by
  obtain ⟨o, hresult, hends⟩ := h.endsIn hready hg htime hnow
  refine ⟨o, goOn_of_result hresult, ?_⟩
  rw [hnow]
  exact .intro hc hends

/-- An operation that begins when its time has come is over at once, or waits for its reply. -/
theorem fulfils_begin {k : Nat} {c : Nat × Operation} (hc : calls[k]? = some c)
    (hready : c.2.Ready g₀) (hg : g₀.Steady g) (hnow : g.now = g₀.now + c.1) (number : Nat) :
    g.Stays (begin g number c.2).1 ∧
      Fulfils workshop (Sound g₀ calls) left (Ends g₀ calls) [k]
        (.planned number (g₀.now + c.1) c.2) (begin g number c.2).2 := by
  cases hx : c.2.request? with
  | none =>
    obtain ⟨o, hbegin, hends⟩ := begin_of_request?_none hready hg number hx
    rw [hbegin]
    exact ⟨.refl g, .ended (.intro hc hends)⟩
  | some x =>
    obtain ⟨g', call, trip, hbegin, hstays, hpending⟩ := begin_eq_goOn hready hg number hx
    obtain ⟨time, htime⟩ := Transport.exists_tripTime? (hready.awaited x hx)
    rw [hbegin]
    rw [hnow] at hpending
    have hg' := hg.trans hstays.toSteady
    have hnow' := hstays.now.trans hnow
    have hgoOn : g.Stays (goOn g' c.2 call).1 := by
      rw [goOn_fst]
      exact hstays.trans (Call.stays_resume hpending.waits)
    refine ⟨hgoOn, ?_⟩
    rcases Nat.eq_zero_or_pos time with hzero | hpos
    · obtain ⟨o, hended, hends⟩ := fulfils_goOn hc hready hg' hpending htime (by omega)
      rw [hended]
      rw [hnow'] at hends
      exact .ended hends
    · rw [goOn_of_before hpending htime (by omega)]
      refine .waiting (.calling hc hpending) ?_ Nat.zero_lt_one
      rw [due_calling hpending htime]
      exact Nat.lt_add_of_pos_right hpos

/-- The operations of a batch on resolved slots, whose hosts answer by functions of the requests,
mind only the clock. -/
theorem clockwork (hready : ∀ c ∈ calls, c.2.Ready g₀) :
    Clockwork workshop g₀.Steady (Sound g₀ calls) left (Ends g₀ calls) where
  now_moveTo := fun _ _ => rfl
  fits_moveTo := fun g time hg => hg.trans (g.steady_moveTo time)
  alarms := by
    intro p j hj
    cases hj with
    | planned => exact List.cons_ne_nil _ _
    | calling hc hcall =>
      show Call.alarms _ ≠ []
      rw [Call.alarms_of_trip hcall.waits, hcall.since.alarms, ne_eq, List.map_eq_nil_iff]
      exact (hready _ (List.mem_of_getElem? hc)).awaited _ hcall.request
  asleep := by
    intro g p j hj
    cases hj with
    | planned => rfl
    | calling hc hcall => exact Call.isReady_of_trip hcall.waits
  early := by
    intro g p j hg hj hnow
    cases hj with
    | @planned k c hc number =>
      have hnow : g.now < g₀.now + c.1 := hnow
      show resume g (.planned number (g₀.now + c.1) c.2) = (g, .waiting _)
      rw [resume, if_neg (by omega)]
    | calling hc hcall =>
      obtain ⟨time, htime⟩ := Transport.exists_tripTime?
        ((hready _ (List.mem_of_getElem? hc)).awaited _ hcall.request)
      rw [due_calling hcall htime] at hnow
      exact goOn_of_before hcall htime hnow
  fits := by
    intro g p j hg hj hnow
    cases hj with
    | planned hc number =>
      have hnow : g.now = g₀.now + _ := hnow
      have hstays := (fulfils_begin hc (hready _ (List.mem_of_getElem? hc)) hg hnow number).1
      show g₀.Steady (resume g _).1 ∧ (resume g _).1.now = _
      rw [resume, if_pos hnow.ge]
      exact ⟨hg.trans hstays.toSteady, hstays.now⟩
    | calling hc hcall =>
      have hstays := Call.stays_resume (g := g) hcall.waits
      show g₀.Steady (goOn g _ _).1 ∧ (goOn g _ _).1.now = _
      rw [goOn_fst]
      exact ⟨hg.trans hstays.toSteady, hstays.now⟩
  fulfils := by
    intro g p j hg hj hnow
    cases hj with
    | planned hc number =>
      have hnow : g.now = g₀.now + _ := hnow
      show Fulfils _ _ _ _ _ _ (resume g _).2
      rw [resume, if_pos hnow.ge]
      exact (fulfils_begin hc (hready _ (List.mem_of_getElem? hc)) hg hnow number).2
    | calling hc hcall =>
      have hready := hready _ (List.mem_of_getElem? hc)
      obtain ⟨time, htime⟩ := Transport.exists_tripTime? (hready.awaited _ hcall.request)
      have hdue := hnow
      rw [due_calling hcall htime] at hnow
      obtain ⟨o, hended, hends⟩ := fulfils_goOn hc hready hg hcall htime hnow
      show Fulfils _ _ _ _ _ _ (goOn g _ _).2
      rw [hended]
      refine .ended ?_
      rw [← hdue]
      exact hends

/-! ## The main result -/

/-- What becomes of a batch: all of it is over, the slots are as they were, and every operation has
come to what it comes to by itself. -/
theorem run_spec (hready : ∀ c ∈ calls, c.2.Ready g₀) {fuel : Nat}
    (hfuel : 5 * calls.length ≤ fuel) :
    g₀.Steady (run g₀ calls fuel).state ∧ (run g₀ calls fuel).step workshop = none ∧
      ∀ k c, calls[k]? = some c → ∃ o time,
        (run g₀ calls fuel).result? [k] = some (some o, g₀.now + c.1 + time) ∧
          EndsIn g₀ c.2 o time := by
  have hwork : ((calls.zipIdx.map fun c => Job.planned c.2 (g₀.now + c.1.1) c.1.2).map
      fun j => 2 * left j + 3).sum = 5 * calls.length := by
    rw [List.map_map]
    show (calls.zipIdx.map fun _ => 5).sum = _
    rw [List.map_const', List.sum_replicate_nat, List.length_zipIdx, Nat.mul_comm]
  have hjobs : ∀ k j, (calls.zipIdx.map fun c =>
      Job.planned c.2 (g₀.now + c.1.1) c.1.2)[k]? = some j →
        Sound g₀ calls [k] j ∧ g₀.now ≤ workshop.due j := by
    intro k j hj
    rw [List.getElem?_map, List.getElem?_zipIdx] at hj
    obtain ⟨_, hget, rfl⟩ := Option.map_eq_some_iff.mp hj
    obtain ⟨c, hc, rfl⟩ := Option.map_eq_some_iff.mp hget
    exact ⟨.planned hc _, Nat.le_add_right _ _⟩
  obtain ⟨hsteady, hover, hends⟩ := (clockwork hready).run_start
    ⟨rfl, fun _ => rfl, fun _ _ hf => hf⟩ hjobs (hwork.trans_le hfuel)
  refine ⟨hsteady, hover, ?_⟩
  intro k c hc
  obtain ⟨o, time, hresult, hend⟩ := hends k (by
    rw [List.length_map, List.length_zipIdx]
    exact (List.getElem?_eq_some_iff.mp hc).1)
  obtain ⟨hc', hend⟩ := hend
  obtain rfl := Option.some.inj (hc.symm.trans hc')
  exact ⟨o, _, hresult, hend⟩

/-- **Operations on resolved slots end as if they were alone.** If every slot that the operations of
a batch use has its delegate, and every host that they ask answers by a function of the request
after any fixed delay, over transports with any deadlines, then whatever the order of the batch and
whenever its operations start: the batch comes to an end, every operation comes to the same after
the same time as when it starts alone and at once, and the slots are as they were. A host may even
never answer, as long as there is a deadline for it. -/
theorem ends_as_if_alone (g : Gateway) (calls : List (Nat × Operation))
    (hready : ∀ c ∈ calls, c.2.Ready g) {fuel : Nat} (hfuel : 5 * calls.length ≤ fuel) :
    (run g calls fuel).step workshop = none ∧ (run g calls fuel).state.slots = g.slots ∧
      ∀ k millis op, calls[k]? = some (millis, op) → ∃ o time,
        (run g calls fuel).result? [k] = some (some o, g.now + millis + time) ∧
          ∀ fuel', 5 ≤ fuel' →
            (run g [(0, op)] fuel').result? [0] = some (some o, g.now + time) := by
  obtain ⟨hsteady, hover, hends⟩ := run_spec hready hfuel
  refine ⟨hover, hsteady.slots, ?_⟩
  intro k millis op hc
  obtain ⟨o, time, hresult, hend⟩ := hends k _ hc
  refine ⟨o, time, hresult, ?_⟩
  intro fuel' hfuel'
  have hready' : ∀ c ∈ [(0, op)], c.2.Ready g := by
    intro c hmem
    rw [List.mem_singleton.mp hmem]
    exact hready (millis, op) (List.mem_of_getElem? hc)
  obtain ⟨-, -, halone⟩ := run_spec hready' hfuel'
  obtain ⟨o', time', hresult', hend'⟩ := halone 0 (0, op) rfl
  obtain ⟨rfl, rfl⟩ := hend.unique hend'
  rw [hresult']
  rfl

/-- A slot with a delegate, and a host that takes five milliseconds to report a new window. -/
def resolvedSlot : Gateway :=
  { Gateway.start with
    hosts := fun _ => .fresh (.replying (.success (.createWindow ⟨"7"⟩))) (some 5)
    slots := fun _ => ⟨none, some ⟨0, default, .ofLists [] [(⟨"7"⟩, ⟨"@1"⟩)]⟩, .free⟩ }

/-- A window is opened, the delegate is asked for meanwhile, and somebody looks for a connection
with no more than three milliseconds for the request. -/
def threeCalls : List (Nat × Operation) :=
  [(4, .work ⟨⟨"A"⟩, ⟨"s"⟩, ⟨0, default, .ofLists [] [(⟨"7"⟩, ⟨"@1"⟩)]⟩⟩ (.window none)),
    (6, .ensure 0 default (some ⟨0⟩)), (5, .find 0 ⟨0, [some ⟨3000000⟩], 0⟩ none ⟨"A"⟩)]

theorem ends_as_if_alone_threeCalls :
    (∀ c ∈ threeCalls, c.2.Ready resolvedSlot) ∧ 5 * threeCalls.length ≤ 15 ∧
      (run resolvedSlot threeCalls 15).result? [0]
        = some (some (.ok (.yielded (.achievement (.opened (some ⟨"@1"⟩))))), 4 + 5) ∧
      (run resolvedSlot threeCalls 15).result? [2] = some (some (.error (.timeout 3)), 5 + 3) := by
  have hready : ∀ c ∈ threeCalls, c.2.Ready resolvedSlot :=
    fun c _ => ⟨fun _ _ => ⟨_, rfl⟩, fun _ _ => ⟨_, rfl⟩, fun _ _ => List.cons_ne_nil _ _⟩
  obtain ⟨-, -, halone⟩ := ends_as_if_alone resolvedSlot threeCalls hready (by decide : _ ≤ 15)
  refine ⟨hready, by decide, ?_, ?_⟩
  · obtain ⟨o, time, hbatch, hlone⟩ := halone 0 _ _ rfl
    have hvalue : some (some _, 5) = some (some o, 0 + time) := hlone 5 le_rfl
    obtain ⟨ho, htime⟩ := Prod.mk.inj (Option.some.inj hvalue)
    obtain rfl : time = 5 := by omega
    rw [hbatch, ← ho]
    rfl
  · obtain ⟨o, time, hbatch, hlone⟩ := halone 2 _ _ rfl
    have hvalue : some (some _, 3) = some (some o, 0 + time) := hlone 5 le_rfl
    obtain ⟨ho, htime⟩ := Prod.mk.inj (Option.some.inj hvalue)
    obtain rfl : time = 3 := by omega
    rw [hbatch, ← ho]
    rfl

end Batch

end MuxBridge
