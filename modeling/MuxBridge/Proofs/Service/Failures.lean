/-
# Failures reach whoever is answered

A reply tells of a failure in two ways: the round trip failed, or the host refused the request. In
both cases the operation that takes the reply ends with just that failure, whatever payload comes
with it and whatever its delegate knows, and nothing else happens.

* `Reply.Tells`: which failure a reply tells of;
* `Operation.verdict`: what an operation comes to by its delegate and its reply;
* `Service.follow_run`: what is known of one operation stays known if its own steps keep it;
* `Service.failures_reach_callers`: the main result.
-/
import MuxBridge.Proofs.Service.Discovery
import MuxBridge.Proofs.Service.Refusals

namespace MuxBridge

/-! ## Replies that tell of a failure -/

/-- A reply tells of a failure: the one of the round trip, or the status with which the host refused
the request. -/
inductive Reply.Tells : Outcome Response → Failure → Prop where
  | failed (e : Failure) : Tells (.error e) e
  | refused {status : Status} (h : status ≠ .ok) (payload : Option Payload) :
      Tells (.ok ⟨status, payload⟩) (.refused status)

section Tells

variable {g : Gateway} {reply : Outcome Response} {e : Failure}

theorem Listing.outcome_of_tells (h : Reply.Tells reply e) (d : Delegate) :
    outcome d reply = .error e := by
  cases h with
  | failed => rfl
  | refused hstatus payload =>
    simp only [outcome, conclude, Response.result_of_ne_ok hstatus payload]

/-- Work asks its delegate for nothing after a failure. -/
theorem Work.asked?_of_tells (h : Reply.Tells reply e) (w : Work) : w.asked? reply = none := by
  cases h with
  | failed => rfl
  | refused hstatus payload => simp only [asked?, Response.result_of_ne_ok hstatus payload]

theorem Call.lookups_of_tells {call : Call} (hreply : call.reply? g = some reply)
    (h : Reply.Tells reply e) : call.lookups g = [] := by
  cases call with
  | dispatch d =>
    have hlookup : d.lookup? g = none := by
      rw [Dispatch.lookup?, show d.reply? g = some reply from hreply]
      exact Work.asked?_of_tells h _
    simp only [Call.lookups, hlookup, Option.toList_none]
  | resolution | listing | roundTrip | rest => rfl

end Tells

/-! ## Verdicts -/

/-- What work on a connection comes to by its delegate and its reply. -/
def Work.outcome (w : Work) (d : Delegate) (reply : Outcome Response) : Outcome Achievement :=
  (Dispatch.conclude .start
    ⟨{ (default : Connection) with delegate := d }, w,
      (RoundTrip.start .start default .listConnections).2⟩ reply).2

/-- The outcome of work depends on nothing but its delegate and its reply. -/
theorem Dispatch.conclude_eq_outcome (g : Gateway) (d : Dispatch) (reply : Outcome Response) :
    (d.conclude g reply).2 = d.work.outcome d.connection.delegate reply := by
  obtain ⟨c, w, trip⟩ := d
  cases reply with
  | error e => rfl
  | ok r =>
    simp only [Work.outcome, conclude]
    cases r.result with
    | error e => rfl
    | ok p? =>
      rcases p? with _ | es | output | _ | tab
      · cases w <;> rfl
      · cases w <;> rfl
      · cases w <;> cases output <;> rfl
      · cases w <;> rfl
      · cases w with
        | window =>
          -- the new window is looked up with the delegate alone
          simp only [judge, openedIn]
          split <;> rfl
        | command | visibility => rfl

theorem Work.outcome_of_tells {reply : Outcome Response} {e : Failure} (h : Reply.Tells reply e)
    (w : Work) (d : Delegate) : w.outcome d reply = .error e := by
  cases h with
  | failed => rfl
  | refused hstatus payload =>
    simp only [outcome, Dispatch.conclude, Response.result_of_ne_ok hstatus payload]

namespace Operation

/-- The request that an operation makes itself once it has its delegate. -/
def request? : Operation → Option Sending
  | .list _ t _ | .find _ t _ _ => some ⟨t, .listConnections⟩
  | .work c w => some ⟨c.delegate.transport, w.request c.id⟩
  | .ensure .. | .owningSession _ => none

/-- The delegate with which an operation makes its request, given the one that it got from a
slot. -/
def delegate? (resolved : Option Delegate) : Operation → Option Delegate
  | .work c _ => some c.delegate
  | _ => resolved

/-- What an operation makes of its reply with a delegate. -/
def verdict (d : Delegate) (reply : Outcome Response) : Operation → Outcome Finding
  | .work _ w => (w.outcome d reply).map fun a => .yielded (.achievement a)
  | op => (Listing.outcome d reply).map fun cs => op.finding (.connections cs)

variable {op : Operation} {g : Gateway} {resolved : Option Delegate} {sent : List Sending}
  {call : Call} {x : Sending} {reply : Outcome Response} {d : Delegate} {e : Failure}

/-- No delegate and no payload has a part in a failure. -/
theorem verdict_of_tells (h : Reply.Tells reply e) (op : Operation) (d : Delegate) :
    op.verdict d reply = .error e := by
  cases op with
  | work c w => rw [verdict, Work.outcome_of_tells h]; rfl
  | ensure | list | find | owningSession =>
    simp only [verdict, Listing.outcome_of_tells h, Except.map]

/-- A call that takes its reply ends with the verdict on it. -/
theorem judged_of_reply? (h : op.Tracks resolved sent call) (hreply : call.reply? g = some reply) :
    ∃ d, op.delegate? ((call.resolved? g).or resolved) = some d ∧
      ((call.resume g).2.result?.map fun o => o.map op.finding) = some (op.verdict d reply) := by
  cases call with
  | listing l =>
    obtain ⟨d, hd, hresume⟩ := told_of_reply? h hreply
    obtain ⟨t, hop⟩ : ∃ t, op.listsOver? = some t := by
      cases l with
      | resolving r => exact ⟨_, h.1⟩
      | asking d trip => exact ⟨_, h.choose_spec.1⟩
    refine ⟨d, ?_, ?_⟩
    · cases op with
      | list | find => exact hd
      | ensure | owningSession | work => cases hop
    · rw [Call.resume_listing_of_ended hresume]
      cases op with
      | list | find => cases hout : Listing.outcome d reply <;> simp only [verdict, hout] <;> rfl
      | ensure | owningSession | work => cases hop
  | dispatch d =>
    obtain ⟨rfl, -⟩ := h
    obtain ⟨g', hresume⟩ := Dispatch.resume_of_reply? hreply
    refine ⟨d.connection.delegate, rfl, ?_⟩
    rw [Dispatch.conclude_eq_outcome] at hresume
    rw [Call.resume_dispatch_of_ended hresume]
    cases hout : d.work.outcome d.connection.delegate reply <;> simp only [verdict, hout] <;> rfl
  | resolution | roundTrip | rest => cases hreply

/-- What is due to an operation that has its delegate is its request. -/
theorem due_of_delegate (hx : op.request? = some x) (hd : op.delegate? resolved = some d) :
    op.due resolved = [x] := by
  cases op with
  | list | find =>
    obtain rfl : resolved = some d := hd
    rw [← Option.some.inj hx]
    rfl
  | work => rw [← Option.some.inj hx]; rfl
  | ensure | owningSession => cases hx

/-- Who has got a delegate keeps it, whoever else gets one. -/
theorem exists_delegate_or {found : Option Delegate} (hd : op.delegate? resolved = some d) :
    ∃ d', op.delegate? (found.or resolved) = some d' := by
  cases op with
  | work => exact ⟨d, hd⟩
  | ensure | list | find | owningSession =>
    obtain rfl : resolved = some d := hd
    cases found with
    | none => exact ⟨d, rfl⟩
    | some d' => exact ⟨d', rfl⟩

end Operation

/-! ## Calls that have their delegates -/

section Calls

variable {g : Gateway} {span : Span} {i n : Nat} {t : Transport} {timeout : Option Duration}
  {d : Delegate} {call : Call}

/-- A call that comes to a slot with a delegate takes it at once, whatever its deadline. -/
theorem Resolution.resume_start_of_some (hd : (g.slots i).delegate = some d) :
    (start g i n t timeout).resume g span = (g, .ended (.ok d)) := by
  simp only [resume, resumeUnlimited, start, arrive, hd]

theorem Resolution.sendings_start_of_some (hd : (g.slots i).delegate = some d) :
    (start g i n t timeout).sendings g span = [] := by
  simp only [sendings, inRun?, launching?, start, hd, Option.map_none]

/-- A call that has its delegate sends nothing more. -/
theorem Call.sendings_of_resolution?_none (h : call.resolution? = none) :
    call.factorySendings g = [] ∧ call.ownSendings g = [] := by
  cases call with
  | resolution r => cases h
  | listing l =>
    cases l with
    | resolving r => cases h
    | asking => exact ⟨rfl, rfl⟩
  | dispatch | roundTrip | rest => exact ⟨rfl, rfl⟩

end Calls

/-! ## Following one operation -/

namespace Service

variable {g : Gateway} {s s' : Service} {n : Nat} {op : Operation} {call : Call}

/-- Between two services nothing has become of an operation, but that it may have been dropped. -/
structure Rests (n : Nat) (s s' : Service) : Prop where
  live : s'.live n = s.live n ∨ s'.live n = none
  sentBy : ∀ who, s'.sentBy n who = s.sentBy n who
  resolved : s'.resolved n = s.resolved n
  replied : s'.replied n = s.replied n
  lookups : s'.lookups n = s.lookups n
  ended : s'.ended n = s.ended n

theorem rests_enroll (hn : n < s.operations.length) (op : Operation) : Rests n s (s.enroll op) := by
  have hturn := turnOf_enroll s op
  exact ⟨.inl (hturn.live n hn.ne), hturn.sentBy_of_ne hn.ne, rfl, rfl, rfl, hturn.ended n hn.ne⟩

theorem rests_advance (hkept : s.Kept g) {m : Nat} (hn : n ≠ m) : Rests n s (s.advance m) := by
  cases hcall : s.live m with
  | none =>
    rw [advance_of_none hcall]
    exact ⟨.inl rfl, fun _ => rfl, rfl, rfl, rfl, rfl⟩
  | some call =>
    obtain ⟨op, hop⟩ := hkept.exists_of_live hcall
    have hturn := turnOf_advance hop hcall
    obtain ⟨hreplied, hlookups⟩ := heard_of_others_advance hop hcall hn
    exact ⟨.inl (hturn.live n hn), hturn.sentBy_of_ne hn, hturn.resolved n hn, hreplied, hlookups,
      hturn.ended n hn⟩

theorem Rests.trans {s'' : Service} (h : Rests n s s') (h' : Rests n s' s'') : Rests n s s'' where
  live := by
    rcases h'.live with hlive | hlive
    · rw [hlive]
      exact h.live
    · exact .inr hlive
  sentBy := fun who => (h'.sentBy who).trans (h.sentBy who)
  resolved := h'.resolved.trans h.resolved
  replied := h'.replied.trans h.replied
  lookups := h'.lookups.trans h.lookups
  ended := h'.ended.trans h.ended

/-- Nothing becomes of an operation but when it goes on. -/
theorem rests_step (hkept : s.Kept g) (hn : n < s.operations.length) {o : Occurrence}
    (ho : o ≠ .resume n) : Rests n s (s.step o) := by
  cases o with
  | begin op =>
    exact (rests_enroll hn op).trans (rests_advance (kept_enroll hkept op) hn.ne)
  | resume m => exact rests_advance hkept fun h => ho (by rw [h])
  | abandon m =>
    cases hcall : s.live m with
    | none =>
      simp only [step, hcall]
      exact ⟨.inl rfl, fun _ => rfl, rfl, rfl, rfl, rfl⟩
    | some call =>
      simp only [step, hcall]
      refine ⟨?_, fun _ => rfl, rfl, rfl, rfl, rfl⟩
      by_cases hm : n = m
      · subst hm
        exact .inr (setAt_same _ _ _)
      · exact .inl (setAt_of_ne _ _ hm)
  | register | reset | elapse | retune => exact ⟨.inl rfl, fun _ => rfl, rfl, rfl, rfl, rfl⟩

/-- **What is known of an operation stays known** in all that happens if it does not depend on
anything else and stays known when the operation goes on. -/
theorem follow_run {P : Service → Prop} (hrests : ∀ {s s'}, P s → Rests n s s' → P s')
    (hadvance : ∀ {s call}, s.Kept g → s.Heard → s.operations[n]? = some op →
      s.live n = some call → P s → P (s.advance n))
    (hkept : s.Kept g) (hheard : s.Heard) (hop : s.operations[n]? = some op) (hs : P s)
    (os : List Occurrence) : P (s.run os) := by
  induction os generalizing s with
  | nil => exact hs
  | cons o os ih =>
    refine ih (kept_step hkept o) (heard_step hheard hkept o) (operation_step hop o) ?_
    by_cases ho : o = .resume n
    · subst ho
      cases hcall : s.live n with
      | none =>
        rw [step, advance_of_none hcall]
        exact hs
      | some call => exact hadvance hkept hheard hop hcall hs
    · exact hrests hs (rests_step hkept (List.getElem?_eq_some_iff.mp hop).1 ho)

/-! ## Operations that have their delegates -/

/-- What an operation has come to by its reply, if it has taken one. -/
structure Judged (op : Operation) (n : Nat) (s : Service) : Prop where
  ended : ∀ reply, s.replied n = some reply →
    ∃ d, op.delegate? (s.resolved n) = some d ∧ s.ended n = some (op.verdict d reply)
  lookups : ∀ reply e, s.replied n = some reply → Reply.Tells reply e → s.lookups n = []

/-- An operation has its delegate, and no factory has asked a host in its course. -/
structure Supplied (op : Operation) (n : Nat) (s : Service) : Prop where
  delegate : ∃ d, op.delegate? (s.resolved n) = some d
  past : ∀ call, s.live n = some call → call.resolution? = none
  unprobed : s.sentBy n .factory = []

theorem Judged.rests (h : Judged op n s) (hrests : Rests n s s') : Judged op n s' := by
  constructor
  · rw [hrests.replied, hrests.resolved, hrests.ended]
    exact h.ended
  · rw [hrests.replied, hrests.lookups]
    exact h.lookups

theorem Supplied.rests (h : Supplied op n s) (hrests : Rests n s s') : Supplied op n s' := by
  constructor
  · rw [hrests.resolved]
    exact h.delegate
  · intro call hcall
    rcases hrests.live with hlive | hlive
    · rw [hlive] at hcall
      exact h.past call hcall
    · rw [hlive] at hcall
      cases hcall
  · rw [hrests.sentBy]
    exact h.unprobed

theorem judged_of_unheard (hreplied : s.replied n = none) : Judged op n s := by
  constructor
  · intro reply hreply
    cases hreplied.symm.trans hreply
  · intro reply e hreply
    cases hreplied.symm.trans hreply

section Advance

variable (hop : s.operations[n]? = some op) (hcall : s.live n = some call)
include hop hcall

theorem judged_advance (hkept : s.Kept g) (hheard : s.Heard) : Judged op n (s.advance n) := by
  -- who is still under way has taken no reply
  have hnone : s.replied n = none := by
    by_contra hn
    rw [(hheard.heeds n).gone hn] at hcall
    cases hcall
  have hreplied := replied_advance hop hcall hnone
  constructor
  · intro reply hreply
    rw [hreplied] at hreply
    rw [resolved_advance hop hcall, ended_advance hop hcall]
    exact Operation.judged_of_reply? ((hkept.sound n op hop).tracks call hcall) hreply
  · intro reply e hreply htells
    rw [hreplied] at hreply
    rw [lookups_advance hop hcall ((hheard.heeds n).silent hnone)]
    exact Call.lookups_of_tells hreply htells

theorem supplied_advance (h : Supplied op n s) : Supplied op n (s.advance n) := by
  obtain ⟨d, hd⟩ := h.delegate
  have hpast := h.past call hcall
  obtain ⟨-, -, hwaits⟩ := Call.resume_of_resolution?_none (g := s.gateway) hpast
  constructor
  · rw [resolved_advance hop hcall]
    exact Operation.exists_delegate_or hd
  · intro call' hcall'
    rw [live_advance hop hcall] at hcall'
    exact hwaits call' (Course.state?_eq_some.mp hcall')
  · rw [(turnOf_advance hop hcall).sentBy_self.1, h.unprobed]
    exact (Call.sendings_of_resolution?_none hpast).1

end Advance

/-! ## Operations on a slot with a delegate -/

/-- Between two services one operation has sent these requests, and neither a slot nor another
operation has noticed. -/
structure Sends (n : Nat) (l : List Sending) (s s' : Service) : Prop where
  received : s.gateway.Receives s'.gateway l
  slots : s'.gateway.slots = s.gateway.slots
  live : ∀ m, m ≠ n → s'.live m = s.live m
  resolved : ∀ m, m ≠ n → s'.resolved m = s.resolved m
  ended : ∀ m, m ≠ n → s'.ended m = s.ended m

theorem Sends.refl (n : Nat) (s : Service) : Sends n [] s s :=
  ⟨.refl _, rfl, fun _ _ => rfl, fun _ _ => rfl, fun _ _ => rfl⟩

theorem Sends.trans {s'' : Service} {l l' : List Sending} (h : Sends n l s s')
    (h' : Sends n l' s' s'') : Sends n (l ++ l') s s'' where
  received := h.received.trans h'.received
  slots := h'.slots.trans h.slots
  live := fun m hm => (h'.live m hm).trans (h.live m hm)
  resolved := fun m hm => (h'.resolved m hm).trans (h.resolved m hm)
  ended := fun m hm => (h'.ended m hm).trans (h.ended m hm)

theorem TurnOf.sends {probes own : List Sending} (h : TurnOf n probes own s s')
    (hslots : s'.gateway.slots = s.gateway.slots) : Sends n (probes ++ own) s s' :=
  ⟨h.received, hslots, h.live, h.resolved, h.ended⟩

theorem sends_enroll (s : Service) (op : Operation) :
    Sends s.operations.length op.startSendings s (s.enroll op) :=
  (turnOf_enroll s op).sends (by cases op <;> rfl)

/-- An operation that has its delegate sends nothing more as it goes on. -/
theorem sends_advance_of_past (hkept : s.Kept g)
    (hpast : ∀ call, s.live n = some call → call.resolution? = none) :
    Sends n [] s (s.advance n) := by
  cases hcall : s.live n with
  | none =>
    rw [advance_of_none hcall]
    exact .refl n s
  | some call =>
    obtain ⟨op, hop⟩ := hkept.exists_of_live hcall
    obtain ⟨hfactory, hown⟩ := Call.sendings_of_resolution?_none (g := s.gateway) (hpast call hcall)
    have hslots := (Call.resume_of_resolution?_none (g := s.gateway) (hpast call hcall)).1
    have hsends := (turnOf_advance hop hcall).sends (by rw [advance_eq hop hcall]; exact hslots)
    rwa [hfactory, hown] at hsends

/-- A listing at a slot with a delegate takes it at once, and asks its host. -/
theorem supplied_advance_listing {i : Nat} {t : Transport} {timeout : Option Duration}
    {d : Delegate} (hop : s.operations[n]? = some op) (hlists : op.listsOver? = some t)
    (hcall : s.live n = some (.listing (.resolving (.start s.gateway i n t timeout))))
    (hd : (s.gateway.slots i).delegate = some d) (hunprobed : s.sentBy n .factory = []) :
    Supplied op n (s.advance n) ∧ Sends n [⟨t, .listConnections⟩] s (s.advance n) := by
  let r := Resolution.start s.gateway i n t timeout
  have hres : r.resume s.gateway .listing = (s.gateway, .ended (.ok d)) :=
    Resolution.resume_start_of_some hd
  have hresume := Listing.resume_of_ok hres
  have hresolved : (Call.listing (.resolving r)).resolved? s.gateway = some d :=
    Resolution.resolved?_of_ok hres
  have hfactory : (Call.listing (.resolving r)).factorySendings s.gateway = [] :=
    Resolution.sendings_start_of_some hd
  have hown : (Call.listing (.resolving r)).ownSendings s.gateway = [⟨t, .listConnections⟩] := by
    simp only [Call.ownSendings, Listing.sendings, Resolution.resolved?_of_ok hres]
    rfl
  have hturn := turnOf_advance hop hcall
  rw [hfactory, hown] at hturn
  refine ⟨⟨⟨d, ?_⟩, ?_, ?_⟩, hturn.sends ?_⟩
  · rw [resolved_advance hop hcall, hresolved]
    cases op with
    | list | find => rfl
    | ensure | owningSession | work => cases hlists
  · intro call' hcall'
    rw [live_advance hop hcall] at hcall'
    obtain ⟨l, hl, rfl⟩ := waiting_of_map (c := ((Listing.resolving r).resume s.gateway).2)
      (Course.state?_eq_some.mp hcall')
    rw [hresume] at hl
    obtain ⟨trip, rfl⟩ := Listing.asking_of_resumeTrip hl
    rfl
  · rw [hturn.sentBy_self.1, hunprobed, List.append_nil]
  · rw [advance_eq hop hcall]
    show ((Listing.resolving r).resume s.gateway).1.slots = s.gateway.slots
    rw [hresume]
    exact Listing.slots_resumeTrip _ d _

/-- An operation that begins where it finds its delegate sends its request at once. -/
theorem supplied_begin {x : Sending} (hkept : s.Kept g) (hx : op.request? = some x)
    (hd : ∀ i, op.slot? = some i → ∃ d, (s.gateway.slots i).delegate = some d) :
    Supplied op s.operations.length (s.step (.begin op)) ∧
      Sends s.operations.length [x] s (s.step (.begin op)) := by
  have hkept' := kept_enroll hkept op
  have hop : (s.enroll op).operations[s.operations.length]? = some op := by simp [enroll]
  have hsends := sends_enroll s op
  have hlive := live_enroll s op
  have hunprobed : (s.enroll op).sentBy s.operations.length .factory = [] := by
    rw [(turnOf_enroll s op).sentBy_self.1, List.append_nil]
    exact postingsOf_eq_nil _ _ _ hkept.numbered
  cases op with
  | list i t timeout | find i t timeout id =>
    obtain ⟨d, hd⟩ := hd i rfl
    obtain ⟨hsupplied, hasks⟩ := supplied_advance_listing hop rfl hlive hd hunprobed
    rw [← Option.some.inj hx]
    exact ⟨hsupplied, hsends.trans hasks⟩
  | work c w =>
    have hsupplied : Supplied (.work c w) s.operations.length (s.enroll (.work c w)) := by
      refine ⟨⟨_, rfl⟩, ?_, hunprobed⟩
      intro call hcall
      rw [hlive] at hcall
      rw [← Option.some.inj hcall]
      rfl
    rw [← Option.some.inj hx]
    exact ⟨supplied_advance hop hlive hsupplied,
      hsends.trans (sends_advance_of_past hkept' hsupplied.past)⟩
  | ensure | owningSession => cases hx

/-! ## The main result -/

/-- An operation has failed: it is over with the failure, has looked no window up, and would have
come to the same with any delegate. -/
structure Fails (s : Service) (op : Operation) (n : Nat) (reply : Outcome Response) (e : Failure) :
    Prop where
  ended : s.ended n = some (.error e)
  gone : s.live n = none
  lookups : s.lookups n = []
  blind : ∀ d, op.verdict d reply = .error e

theorem fails_of_tells {reply : Outcome Response} {e : Failure} (hheard : s.Heard)
    (hjudged : Judged op n s) (hreply : s.replied n = some reply) (h : Reply.Tells reply e) :
    s.Fails op n reply e where
  ended := by
    obtain ⟨d, -, hended⟩ := hjudged.ended reply hreply
    rw [hended, Operation.verdict_of_tells h]
  gone := (hheard.heeds n).gone (by rw [hreply]; exact Option.some_ne_none _)
  lookups := hjudged.lookups reply e hreply h
  blind := Operation.verdict_of_tells h op

/-- How an operation with a request of its own fares from its beginning in one service up to a later
one. -/
structure Fares (op : Operation) (x : Sending) (s s' : Service) : Prop where
  /-- What the round trip fails with is what the operation fails with. -/
  failed : ∀ e, s'.replied s.operations.length = some (.error e) →
    s'.Fails op s.operations.length (.error e) e
  /-- A status other than success is what the operation fails with, whatever the payload. -/
  refused : ∀ status payload, s'.replied s.operations.length = some (.ok ⟨status, payload⟩) →
    status ≠ .ok → s'.Fails op s.operations.length (.ok ⟨status, payload⟩) (.refused status) ∧
      (Failure.refused status).statusName? = some status.name ∧
      (Failure.refused status).isTransport = false ∧
      (Failure.refused status).isConfiguration = false
  /-- The request is sent once, by the operation itself and as it begins. -/
  once : s'.sentBy s.operations.length .operation = [x]
  unprobed : s'.sentBy s.operations.length .factory = []
  begins : Sends s.operations.length [x] s (s.step (.begin op))
  /-- Whenever the operation goes on, nobody else notices. -/
  goesOn : Sends s.operations.length [] s' (s'.step (.resume s.operations.length))

theorem fares {x : Sending} (hkept : s.Kept g) (hheard : s.Heard) (hx : op.request? = some x)
    (hd : ∀ i, op.slot? = some i → ∃ d, (s.gateway.slots i).delegate = some d)
    (during : List Occurrence) : Fares op x s ((s.step (.begin op)).run during) := by
  have hkept₁ := kept_step hkept (.begin op)
  have hheard₁ := heard_step hheard hkept (.begin op)
  have hop₁ := operation_begin s op
  obtain ⟨hsupplied₁, hbegins⟩ := supplied_begin hkept hx hd
  have hjudged₁ : Judged op s.operations.length (s.step (.begin op)) := by
    have hop : (s.enroll op).operations[s.operations.length]? = some op := by simp [enroll]
    have hunheard : Judged op s.operations.length (s.enroll op) :=
      judged_of_unheard (hheard.fresh _ le_rfl)
    cases hcall : (s.enroll op).live s.operations.length with
    | none =>
      rw [step, advance_of_none hcall]
      exact hunheard
    | some call => exact judged_advance hop hcall (kept_enroll hkept op) (heard_enroll hheard op)
  -- both facts about the operation stay as everything else goes on
  have hjudged := follow_run Judged.rests
    (fun hkept hheard hop hcall _ => judged_advance hop hcall hkept hheard)
    hkept₁ hheard₁ hop₁ hjudged₁ during
  have hsupplied := follow_run Supplied.rests
    (fun _ _ hop hcall h => supplied_advance hop hcall h) hkept₁ hheard₁ hop₁ hsupplied₁ during
  have hkept' := kept_run hkept₁ during
  have hheard' := heard_run hheard₁ hkept₁ during
  obtain ⟨d, hdelegate⟩ := hsupplied.delegate
  constructor
  · intro e hreply
    exact fails_of_tells hheard' hjudged hreply (.failed e)
  · intro status payload hreply hstatus
    exact ⟨fails_of_tells hheard' hjudged hreply (.refused hstatus payload), rfl, rfl, rfl⟩
  · rw [(hkept'.sound _ _ (operation_run hop₁ during)).own]
    exact Operation.due_of_delegate hx hdelegate
  · exact hsupplied.unprobed
  · exact hbegins
  · exact sends_advance_of_past hkept' hsupplied.past

/-- **Failures reach whoever is answered**, and dominate what comes with them. From any gateway on
and whatever else goes on, an operation with a request of its own that finds its delegate fails
with whatever its round trip fails with, and with the status if the host refuses the request; it
sends the request once, asks its delegate for nothing, and leaves all slots and all other operations
as they are. All of this is the same among hosts whose refusals carry other payloads. -/
theorem failures_reach_callers (g : Gateway) (before during : List Occurrence) {op : Operation}
    {x : Sending} (hx : op.request? = some x)
    (hd : ∀ i, op.slot? = some i →
      ∃ d, (((opening g).run before).gateway.slots i).delegate = some d) :
    Fares op x ((opening g).run before) ((opening g).run (before ++ .begin op :: during)) ∧
      ∀ g' os, g'.strip = g.strip →
        os.map Occurrence.strip = (before ++ .begin op :: during).map Occurrence.strip →
        ((opening g').run os).strip = ((opening g).run (before ++ .begin op :: during)).strip := by
  have hkept := kept_run (kept_opening g) before
  have hheard := heard_run (heard_opening g) (kept_opening g) before
  have hrun : (opening g).run (before ++ .begin op :: during)
      = (((opening g).run before).step (.begin op)).run during := by
    simp only [run, List.foldl_append, List.foldl_cons]
  refine ⟨?_, fun g' os => strip_run_congr⟩
  rw [hrun]
  exact fares hkept hheard hx hd during

/-- A host that refuses everything after five milliseconds, reporting a new window all the same, and
slots with a delegate. -/
def refusing : Gateway :=
  { Gateway.start with
    hosts := fun _ => .fresh (.replying ⟨.invalidConnection, some (.createWindow ⟨"7"⟩)⟩) (some 5)
    slots := fun _ => ⟨none, some default, .free⟩ }

/-- A connection is looked for over such a host, with no time to get the delegate; the slot is
emptied meanwhile. -/
theorem failures_reach_callers_refusing :
    (Operation.find 0 default (some ⟨0⟩) ⟨"A"⟩).request? = some ⟨default, .listConnections⟩ ∧
      (∀ i, (Operation.find 0 default (some ⟨0⟩) ⟨"A"⟩).slot? = some i →
        ∃ d, (((opening refusing).run []).gateway.slots i).delegate = some d) ∧
      ((opening refusing).run ([] ++ .begin (.find 0 default (some ⟨0⟩) ⟨"A"⟩) ::
        [.reset 0, .elapse 5, .resume 0])).ended 0
          = some (.error (.refused .invalidConnection)) := by
  have hd : ∀ i, (Operation.find 0 default (some ⟨0⟩) ⟨"A"⟩).slot? = some i →
      ∃ d, (((opening refusing).run []).gateway.slots i).delegate = some d :=
    fun _ _ => ⟨_, rfl⟩
  obtain ⟨hfares, -⟩ := failures_reach_callers refusing [] [.reset 0, .elapse 5, .resume 0] rfl hd
  exact ⟨rfl, hd, (hfares.refused .invalidConnection (some (.createWindow ⟨"7"⟩)) rfl
    (by decide)).1.ended⟩

end Service

end MuxBridge
