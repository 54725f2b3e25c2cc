/-
# Every operation sends what is due

However the operations of a service overlap, and whatever happens to slots and hosts in between,
every operation sends exactly what is due to it: a listing asks the host once, over the transport
that it was given, if it gets a delegate, and otherwise not at all; work on a connection is one
request over the transport of the delegate that the connection was listed with; nothing else is sent
but the probes of factories.

* `Service.Accounted`: the requests that hosts have received are those in the ledger, and those in
  the ledger are due;
* `Service.TurnOf.kept`: of a step, only the operation whose turn it was needs a look;
* `Service.requests_accounted`: the requests of a service are accounted for at any time.
-/
import MuxBridge.Proofs.Service.Operation

namespace MuxBridge

/-! ## The ledger -/

/-- What was sent in the course of an operation, by itself or by runs of factories. -/
def postingsOf (n : Nat) (who : Sender) (l : List Posting) : List Sending :=
  (l.filter fun p => p.number == n && p.sender == who).map Posting.sending

section Postings

variable (n m : Nat) (who who' : Sender) (l l' : List Posting) (xs : List Sending)

@[simp] theorem postingsOf_append :
    postingsOf n who (l ++ l') = postingsOf n who l ++ postingsOf n who l' := by
  simp [postingsOf]

@[simp] theorem postingsOf_post :
    postingsOf n who (Service.post n who xs) = xs := by
  induction xs with
  | nil => rfl
  | cons x xs ih => simpa [postingsOf, Service.post] using ih

/-- What somebody else has sent is not put down to an operation. -/
theorem postingsOf_post_of_ne (h : m ≠ n ∨ who' ≠ who) :
    postingsOf n who (Service.post m who' xs) = [] := by
  rcases h with h | h <;> simp [postingsOf, Service.post, h]

@[simp] theorem map_sending_post : (Service.post n who xs).map Posting.sending = xs := by
  simp [Service.post, Function.comp_def]

/-- No operation before a number has sent anything if everybody has a smaller one. -/
theorem postingsOf_eq_nil (h : ∀ p ∈ l, p.number < n) : postingsOf n who l = [] := by
  simp only [postingsOf, List.map_eq_nil_iff, List.filter_eq_nil_iff]
  intro p hp
  have hlt := h p hp
  simp [Nat.ne_of_lt hlt]

end Postings

namespace Service

/-- What was sent in the course of an operation. -/
def sentBy (s : Service) (n : Nat) (who : Sender) : List Sending := postingsOf n who s.ledger

/-- The requests of a service are accounted for, since it was opened at a gateway. -/
structure Accounted (g : Gateway) (s : Service) : Prop where
  /-- Every host has received the requests in the ledger that were for it, in their order. -/
  hosts : g.Receives s.gateway (s.ledger.map Posting.sending)
  /-- Nothing was sent in the course of no operation. -/
  numbered : ∀ p ∈ s.ledger, p.number < s.operations.length
  /-- Operations themselves have sent what was due. -/
  own : ∀ n op, s.operations[n]? = some op → s.sentBy n .operation = op.due (s.resolved n)
  /-- Runs of factories have sent one probe at most in the course of an operation. -/
  factory : ∀ n op, s.operations[n]? = some op → (s.sentBy n .factory).Sublist op.probe
  /-- A round trip under way is the one that the operation has sent, under the deadlines of its
  transport. -/
  trips : ∀ n call trip, s.live n = some call → call.trip? = some trip →
    ∃ x, s.sentBy n .operation = [x] ∧ trip.Carries x
  /-- Who is answered has got its delegate, if it needs one. -/
  answers : ∀ n op f, s.operations[n]? = some op → s.ended n = some (.ok f) →
    op.Answers (s.resolved n) f

end Service

/-! ## The invariant -/

namespace Service

/-- What a service knows of one of its operations. -/
structure Sound (s : Service) (n : Nat) (op : Operation) : Prop where
  own : s.sentBy n .operation = op.due (s.resolved n)
  factory : (s.sentBy n .factory).Sublist op.probe
  answers : ∀ f, s.ended n = some (.ok f) → op.Answers (s.resolved n) f
  tracks : ∀ call, s.live n = some call → op.Tracks (s.resolved n) (s.sentBy n .factory) call

/-- What a service that was opened at a gateway keeps. -/
structure Kept (g : Gateway) (s : Service) : Prop where
  hosts : g.Receives s.gateway (s.ledger.map Posting.sending)
  numbered : ∀ p ∈ s.ledger, p.number < s.operations.length
  sound : ∀ n op, s.operations[n]? = some op → s.Sound n op
  fresh : ∀ n, s.operations.length ≤ n → s.live n = none ∧ s.resolved n = none ∧ s.ended n = none

/-- Between two services only one operation has begun or gone on, and these requests were sent in
its course. -/
structure TurnOf (n : Nat) (probes own : List Sending) (s s' : Service) : Prop where
  longer : s.operations.length ≤ s'.operations.length
  begun : n < s'.operations.length
  operations : ∀ m, m ≠ n → s'.operations[m]? = s.operations[m]?
  received : s.gateway.Receives s'.gateway (probes ++ own)
  ledger : s'.ledger = s.ledger ++ post n .factory probes ++ post n .operation own
  live : ∀ m, m ≠ n → s'.live m = s.live m
  resolved : ∀ m, m ≠ n → s'.resolved m = s.resolved m
  ended : ∀ m, m ≠ n → s'.ended m = s.ended m

namespace TurnOf

variable {g : Gateway} {n m : Nat} {probes own : List Sending} {s s' : Service}

theorem sentBy_self (h : TurnOf n probes own s s') :
    s'.sentBy n .factory = s.sentBy n .factory ++ probes ∧
      s'.sentBy n .operation = s.sentBy n .operation ++ own := by
  have hfactory : postingsOf n .factory (post n .operation own) = [] :=
    postingsOf_post_of_ne n n .factory .operation own (.inr (by simp))
  have hown : postingsOf n .operation (post n .factory probes) = [] :=
    postingsOf_post_of_ne n n .operation .factory probes (.inr (by simp))
  simp [sentBy, h.ledger, hfactory, hown]

theorem sentBy_of_ne (h : TurnOf n probes own s s') (hm : m ≠ n) (who : Sender) :
    s'.sentBy m who = s.sentBy m who := by
  have hpost : ∀ who' l, postingsOf m who (post n who' l) = [] :=
    fun who' l => postingsOf_post_of_ne m n who who' l (.inl (Ne.symm hm))
  simp [sentBy, h.ledger, hpost]

/-- It is enough to look at the operation whose turn it was. -/
theorem kept (h : TurnOf n probes own s s') (hs : s.Kept g)
    (hn : ∀ op, s'.operations[n]? = some op → s'.Sound n op) : s'.Kept g where
  hosts := by
    have hreceived := hs.hosts.trans h.received
    simpa [h.ledger] using hreceived
  numbered := by
    intro p hp
    rw [h.ledger, List.append_assoc] at hp
    rcases List.mem_append.mp hp with hp | hp
    · exact (hs.numbered p hp).trans_le h.longer
    · rcases List.mem_append.mp hp with hp | hp <;>
      · obtain ⟨x, -, rfl⟩ := List.mem_map.mp hp
        exact h.begun
  sound := by
    intro m op hop
    by_cases hm : m = n
    · subst hm
      exact hn op hop
    · rw [h.operations m hm] at hop
      obtain ⟨hown, hfactory, hanswers, htracks⟩ := hs.sound m op hop
      constructor
      · rw [h.sentBy_of_ne hm, h.resolved m hm]
        exact hown
      · rw [h.sentBy_of_ne hm]
        exact hfactory
      · rw [h.ended m hm, h.resolved m hm]
        exact hanswers
      · rw [h.live m hm, h.resolved m hm, h.sentBy_of_ne hm]
        exact htracks
  fresh := by
    intro m hm
    have hne : m ≠ n := by
      have hbegun := h.begun
      omega
    rw [h.live m hne, h.resolved m hne, h.ended m hne]
    exact hs.fresh m (h.longer.trans hm)

end TurnOf

variable {g : Gateway} {s : Service} {n : Nat} {op : Operation} {call : Call}

/-- Only operations that have begun are under way. -/
theorem Kept.exists_of_live (hs : s.Kept g) (hcall : s.live n = some call) :
    ∃ op, s.operations[n]? = some op := by
  by_cases hlt : n < s.operations.length
  · exact ⟨s.operations[n], List.getElem?_eq_getElem hlt⟩
  · rw [(hs.fresh n (by omega)).1] at hcall
    cases hcall

/-! ## Occurrences keep it -/

theorem kept_opening (g : Gateway) : (opening g).Kept g where
  hosts := .refl g
  numbered := by
    intro p hp
    cases hp
  sound := by
    intro n op hop
    cases hop
  fresh := fun _ _ => ⟨rfl, rfl, rfl⟩

theorem turnOf_enroll (s : Service) (op : Operation) :
    TurnOf s.operations.length [] op.startSendings s (s.enroll op) where
  longer := by simp [enroll]
  begun := by simp [enroll]
  operations := by
    intro m hm
    simp only [enroll]
    by_cases hlt : m < s.operations.length
    · exact List.getElem?_append_left hlt
    · rw [List.getElem?_eq_none (by simp; omega), List.getElem?_eq_none (by omega)]
  received := op.receives_start s.gateway s.operations.length
  ledger := by simp [enroll, post]
  live := fun m hm => setAt_of_ne _ _ hm
  resolved := fun _ _ => rfl
  ended := fun m hm => setAt_of_ne _ _ hm

theorem live_enroll (s : Service) (op : Operation) :
    (s.enroll op).live s.operations.length = (op.start s.gateway s.operations.length).2.state? :=
  setAt_same _ _ _

theorem ended_enroll (s : Service) (op : Operation) :
    (s.enroll op).ended s.operations.length
      = (op.start s.gateway s.operations.length).2.result?.map Except.ok :=
  setAt_same _ _ _

theorem kept_enroll (hs : s.Kept g) (op : Operation) : (s.enroll op).Kept g := by
  have hturn := turnOf_enroll s op
  refine hturn.kept hs ?_
  intro op' hop'
  obtain rfl : op = op' := by simpa [enroll] using hop'
  obtain ⟨hfactory, hown⟩ := hturn.sentBy_self
  have hnone : ∀ who, s.sentBy s.operations.length who = [] :=
    fun who => postingsOf_eq_nil _ who _ hs.numbered
  have hresolved : (s.enroll op).resolved s.operations.length = none :=
    (hs.fresh _ le_rfl).2.1
  rw [hnone] at hfactory hown
  constructor
  · rw [hown, hresolved]
    exact op.startSendings_eq_due
  · rw [hfactory]
    exact List.nil_sublist _
  · intro f hf
    rw [ended_enroll] at hf
    obtain ⟨f', hf', heq⟩ := Option.map_eq_some_iff.mp hf
    rw [hresolved, ← Except.ok.inj heq]
    exact Operation.answers_start hf'
  · intro call hcall
    rw [live_enroll] at hcall
    rw [hresolved, hfactory]
    exact Operation.tracks_start hcall

theorem advance_eq (hop : s.operations[n]? = some op) (hcall : s.live n = some call) :
    s.advance n = { s with
      gateway := (call.resume s.gateway).1
      live := setAt s.live n (call.resume s.gateway).2.state?
      ledger := s.ledger ++ post n .factory (call.factorySendings s.gateway) ++
        post n .operation (call.ownSendings s.gateway)
      resolved := setAt s.resolved n ((call.resolved? s.gateway).or (s.resolved n))
      replied := setAt s.replied n ((call.reply? s.gateway).or (s.replied n))
      lookups := setAt s.lookups n (s.lookups n ++ call.lookups s.gateway)
      ended := setAt s.ended n
        ((call.resume s.gateway).2.result?.map fun o => o.map op.finding) } := by
  simp only [advance, hop, hcall]

section Advance

variable (hop : s.operations[n]? = some op) (hcall : s.live n = some call)
include hop hcall

theorem live_advance : (s.advance n).live n = (call.resume s.gateway).2.state? := by
  rw [advance_eq hop hcall]
  exact setAt_same _ _ _

theorem resolved_advance :
    (s.advance n).resolved n = (call.resolved? s.gateway).or (s.resolved n) := by
  rw [advance_eq hop hcall]
  exact setAt_same _ _ _

theorem ended_advance :
    (s.advance n).ended n
      = (call.resume s.gateway).2.result?.map fun o => o.map op.finding := by
  rw [advance_eq hop hcall]
  exact setAt_same _ _ _

theorem turnOf_advance :
    TurnOf n (call.factorySendings s.gateway) (call.ownSendings s.gateway) s (s.advance n) := by
  rw [advance_eq hop hcall]
  exact
    { longer := le_rfl
      begun := (List.getElem?_eq_some_iff.mp hop).1
      operations := fun _ _ => rfl
      received := call.receives_resume s.gateway
      ledger := rfl
      live := fun m hm => setAt_of_ne _ _ hm
      resolved := fun m hm => setAt_of_ne _ _ hm
      ended := fun m hm => setAt_of_ne _ _ hm }

end Advance

/-- A service in which an operation has no call stays as it is. -/
theorem advance_of_none (hcall : s.live n = none) : s.advance n = s := by
  unfold advance
  rw [hcall]
  split <;> first | rfl | contradiction

theorem kept_advance (hs : s.Kept g) (n : Nat) : (s.advance n).Kept g := by
  cases hcall : s.live n with
  | none => rwa [advance_of_none hcall]
  | some call =>
    obtain ⟨op, hop⟩ := hs.exists_of_live hcall
    have hsound := hs.sound n op hop
    have htracks := hsound.tracks call hcall
    have hturn := turnOf_advance hop hcall
    obtain ⟨hfactory, hown⟩ := hturn.sentBy_self
    refine hturn.kept hs ?_
    intro op' hop'
    obtain rfl : op = op' := by simpa [advance_eq hop hcall, hop] using hop'
    have hresolved := resolved_advance hop hcall
    have hreaches := Operation.reaches_resume (g := s.gateway) htracks
    rw [← hresolved, ← hfactory] at hreaches
    constructor
    · rw [hown, hresolved, hsound.own]
      exact Operation.due_resume htracks
    · rw [hfactory]
      exact Operation.probe_resume htracks hsound.factory
    · intro f hf
      rw [ended_advance hop hcall] at hf
      rcases hc : (call.resume s.gateway).2 with call' | o
      · rw [hc] at hf
        cases hf
      · rw [hc] at hf hreaches
        obtain ⟨y, hy, rfl⟩ := exists_of_map_eq_ok (Option.some.inj hf)
        exact hreaches y hy
    · intro call' hcall'
      rw [live_advance hop hcall] at hcall'
      rcases hc : (call.resume s.gateway).2 with call'' | o
      · rw [hc] at hcall' hreaches
        rw [← Option.some.inj hcall']
        exact hreaches
      · rw [hc] at hcall'
        cases hcall'

/-- What changes nothing but the gateway, where no host receives anything, changes no account. -/
theorem Kept.withGateway (hs : s.Kept g) {g' : Gateway} (hg : s.gateway.Receives g' []) :
    { s with gateway := g' }.Kept g where
  hosts := hs.hosts.before hg
  numbered := hs.numbered
  sound := fun n op hop => ⟨(hs.sound n op hop).own, (hs.sound n op hop).factory,
    (hs.sound n op hop).answers, (hs.sound n op hop).tracks⟩
  fresh := hs.fresh

theorem receives_abandon (g : Gateway) (call : Call) : g.Receives (call.abandon g) [] := by
  refine Gateway.receives_of_hosts_eq ?_
  unfold Call.abandon
  split <;> rfl

/-- Whoever is dropped sends nothing more and gets no answer. -/
theorem kept_abandon (hs : s.Kept g) (n : Nat) : (s.step (.abandon n)).Kept g := by
  cases hcall : s.live n with
  | none => simpa only [step, hcall] using hs
  | some call =>
    simp only [step, hcall]
    obtain ⟨op, hop⟩ := hs.exists_of_live hcall
    have hturn : TurnOf n [] [] s
        { s with gateway := call.abandon s.gateway, live := setAt s.live n none } :=
      { longer := le_rfl
        begun := (List.getElem?_eq_some_iff.mp hop).1
        operations := fun _ _ => rfl
        received := receives_abandon s.gateway call
        ledger := by simp [post]
        live := fun m hm => setAt_of_ne _ _ hm
        resolved := fun _ _ => rfl
        ended := fun _ _ => rfl }
    refine hturn.kept hs ?_
    intro op hop
    obtain ⟨hown, hfactory, hanswers, -⟩ := hs.sound n op hop
    refine ⟨hown, hfactory, hanswers, ?_⟩
    intro call' hcall'
    cases (setAt_same s.live n none).symm.trans hcall'

theorem kept_step (hs : s.Kept g) (o : Occurrence) : (s.step o).Kept g := by
  cases o with
  | begin op => exact kept_advance (kept_enroll hs op) _
  | resume n => exact kept_advance hs n
  | abandon n => exact kept_abandon hs n
  | register i f => exact hs.withGateway (s.gateway.receives_register i f)
  | reset i => exact hs.withGateway (s.gateway.receives_changeSlot i _)
  | elapse millis => exact hs.withGateway (Gateway.receives_of_hosts_eq rfl)
  | retune i responder delay => exact hs.withGateway (Gateway.receives_setHost rfl)

theorem kept_run (hs : s.Kept g) (os : List Occurrence) : (s.run os).Kept g := by
  induction os generalizing s with
  | nil => exact hs
  | cons o os ih => exact ih (kept_step hs o)

/-- A round trip that a call is in is the one that its operation was due to make. -/
theorem Sound.carries (hs : s.Sound n op) (hcall : s.live n = some call) {trip : RoundTrip}
    (htrip : call.trip? = some trip) : ∃ x, s.sentBy n .operation = [x] ∧ trip.Carries x := by
  have htracks := hs.tracks call hcall
  rw [hs.own]
  cases call with
  | listing l =>
    cases l with
    | resolving r => cases htrip
    | asking d trip' =>
      obtain ⟨t, hop, hresolved, hcarries⟩ := htracks
      rw [Operation.due_of_listsOver hop, hresolved, ← Option.some.inj htrip]
      exact ⟨_, rfl, hcarries⟩
  | dispatch d =>
    obtain ⟨rfl, hcarries⟩ := htracks
    rw [← Option.some.inj htrip]
    exact ⟨_, rfl, hcarries⟩
  | resolution | roundTrip | rest => cases htrip

theorem Kept.accounted (hs : s.Kept g) : s.Accounted g where
  hosts := hs.hosts
  numbered := hs.numbered
  own := fun n op hop => (hs.sound n op hop).own
  factory := fun n op hop => (hs.sound n op hop).factory
  trips := by
    intro n call trip hcall htrip
    obtain ⟨op, hop⟩ := hs.exists_of_live hcall
    exact (hs.sound n op hop).carries hcall htrip
  answers := fun n op f hop => (hs.sound n op hop).answers f

/-- **The requests of a service are accounted for** at any time: from any gateway on, whatever
users ask of it in any order, whatever slots and hosts go through meanwhile, and however the calls
overlap, the hosts have received exactly what operations were due to send and one probe at most of
a run of a factory in the course of each. -/
theorem requests_accounted (g : Gateway) (os : List Occurrence) :
    ((opening g).run os).Accounted g :=
  (kept_run (kept_opening g) os).accounted

end Service

end MuxBridge
