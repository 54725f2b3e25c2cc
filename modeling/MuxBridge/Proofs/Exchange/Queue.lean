/-
# A queue of replies is handed out in order

Any number of sends may be on their way at the same time: each arrives at once, is answered after
the delay of its host, and may be cut off by a deadline or dropped from outside before that. A host
that answers from a queue notes all of them as they arrive, and hands its replies out to those that
it answers, in the order in which it does: the record and the queue go apart as sends are given up,
but no reply is lost with them.

* `Exchange.step`: sends that begin, go on and are dropped while time passes;
* `Exchange.Fate`: what may have become of a send;
* `Exchange.serves_step`: every event keeps the queue in order;
* `Exchange.queue_hands_out`: the main result.
-/
import Mathlib.Data.List.Induction
import Mathlib.Data.List.Nodup
import MuxBridge.Proofs.Exchange.Trips
import MuxBridge.Proofs.Service.Requests

namespace MuxBridge

/-! ## Sends that overlap -/

/-- A gateway with sends over any transports. The number of a send is its place among them. -/
structure Exchange where
  gateway : Gateway
  sends : List Sending
  /-- The round trips of the sends that are under way. -/
  trips : Nat → Option RoundTrip
  /-- The sends that have taken their replies from a host, in the order in which they did. -/
  answered : Nat → List Nat
  /-- What sends have ended in. -/
  results : Nat → Option (Outcome Response)

namespace Exchange

/-- What may happen next. -/
inductive Event where
  /-- A request is sent. -/
  | send (t : Transport) (q : Request)
  /-- A send under way goes on as far as it can. -/
  | resume (number : Nat)
  /-- A send under way is dropped from outside. -/
  | drop (number : Nat)
  /-- Time passes. -/
  | elapse (millis : Nat)

/-- Nothing has been sent. -/
def opening (g : Gateway) : Exchange := ⟨g, [], fun _ => none, fun _ => [], fun _ => none⟩

/-- Sends a request. -/
def send (x : Exchange) (t : Transport) (q : Request) : Exchange :=
  let (g, trip) := RoundTrip.start x.gateway t q
  { x with
    gateway := g
    sends := x.sends ++ [⟨t, q⟩]
    trips := setAt x.trips x.sends.length (some trip) }

/-- Lets a round trip go on. -/
def advance (x : Exchange) (n : Nat) (trip : RoundTrip) : Exchange :=
  let (g, c) := trip.resume x.gateway .none
  { x with
    gateway := g
    trips := setAt x.trips n c.state?
    answered :=
      if trip.isAnswered x.gateway then
        setAt x.answered trip.host (x.answered trip.host ++ [n])
      else x.answered
    results := setAt x.results n c.result? }

/-- What happens. -/
def step (x : Exchange) : Event → Exchange
  | .send t q => x.send t q
  | .resume n =>
    match x.trips n with
    | some trip => x.advance n trip
    | none => x
  | .drop n => { x with trips := setAt x.trips n none }
  | .elapse millis => { x with gateway := { x.gateway with now := x.gateway.now + millis } }

/-- What comes of events one after the other. -/
def run (x : Exchange) (es : List Event) : Exchange := es.foldl step x

/-! ## Queues -/

/-- The reply to whoever is answered after this many others. -/
def replyAt (replies : List (Outcome Response)) (k : Nat) : Outcome Response :=
  (replies[k]?).getD (.error (.transport "no scripted reply left"))

/-- A queue hands out its first reply and keeps the others. -/
theorem answer_drop (replies : List (Outcome Response)) (k : Nat) (q : Request) :
    (Responder.queued (replies.drop k)).answer q
      = (replyAt replies k, .queued (replies.drop (k + 1))) := by
  rw [replyAt]
  cases h : replies.drop k with
  | nil =>
    have hk : replies.length ≤ k := List.drop_eq_nil_iff.mp h
    rw [List.getElem?_eq_none hk, List.drop_eq_nil_of_le (by omega)]
    rfl
  | cons a rest =>
    have ha : replies[k]? = some a := by
      rw [← List.head?_drop, h]
      rfl
    have hrest : replies.drop (k + 1) = rest := by
      rw [← List.drop_drop, h]
      rfl
    rw [ha, hrest]
    rfl

/-! ## What becomes of a send -/

/-- What may have become of a send, since the exchange was opened at a gateway. -/
inductive Fate (g : Gateway) (es : List Event) (x : Exchange) (n : Nat) (y : Sending) : Prop where
  /-- It is under way. -/
  | underway (trip : RoundTrip) (start : Nat) (htrip : x.trips n = some trip)
      (hhost : trip.host = y.transport.host)
      (hsince : trip.Since y.transport (g.hosts y.transport.host).delay start)
      (hresult : x.results n = none) (hanswered : n ∉ x.answered y.transport.host)
  /-- The host has answered it. -/
  | answered (htrip : x.trips n = none) (hanswered : n ∈ x.answered y.transport.host)
  /-- A deadline that is shorter than the delay of the host has cut it off. -/
  | cutOff (d : Duration) (htrip : x.trips n = none) (hd : some d ∈ y.transport.deadlines)
      (hshort : ∀ wait ∈ (g.hosts y.transport.host).delay, d.ticks < wait)
      (hresult : x.results n = some (.error (.timeout d.millis)))
      (hanswered : n ∉ x.answered y.transport.host)
  /-- It has been dropped from outside. -/
  | dropped (htrip : x.trips n = none) (hdrop : .drop n ∈ es) (hresult : x.results n = none)
      (hanswered : n ∉ x.answered y.transport.host)

/-- What an exchange keeps that was opened at a gateway, with a host that answers from a queue. -/
structure Serves (g : Gateway) (i : Nat) (replies : List (Outcome Response)) (es : List Event)
    (x : Exchange) : Prop where
  received : g.Receives x.gateway x.sends
  delays : ∀ j, (x.gateway.hosts j).delay = (g.hosts j).delay
  /-- The queue is short of as many replies as there are sends that it has answered. -/
  queue : (x.gateway.hosts i).responder = .queued (replies.drop (x.answered i).length)
  handedOut : ∀ k n, (x.answered i)[k]? = some n → x.results n = some (replyAt replies k)
  once : ∀ j, (x.answered j).Nodup
  known : ∀ j n, n ∈ x.answered j → ∃ y, x.sends[n]? = some y ∧ y.transport.host = j
  fates : ∀ n y, x.sends[n]? = some y → x.Fate g es n y
  fresh : ∀ n, x.sends.length ≤ n → x.trips n = none ∧ x.results n = none

variable {g : Gateway} {i n : Nat} {replies : List (Outcome Response)} {es : List Event}
  {x x' : Exchange} {y : Sending} {trip : RoundTrip}

/-- Nothing becomes of a send of which all records stay as they are. -/
theorem Fate.keep (h : x.Fate g es n y) (e : Event) (htrips : x'.trips n = x.trips n)
    (hresults : x'.results n = x.results n)
    (hans : n ∈ x'.answered y.transport.host ↔ n ∈ x.answered y.transport.host) :
    x'.Fate g (es ++ [e]) n y := by
  cases h with
  | underway trip start htrip hhost hsince hresult hanswered =>
    exact .underway trip start (htrips.trans htrip) hhost hsince (hresults.trans hresult)
      (mt hans.mp hanswered)
  | answered htrip hanswered => exact .answered (htrips.trans htrip) (hans.mpr hanswered)
  | cutOff d htrip hd hshort hresult hanswered =>
    exact .cutOff d (htrips.trans htrip) hd hshort (hresults.trans hresult) (mt hans.mp hanswered)
  | dropped htrip hdrop hresult hanswered =>
    exact .dropped (htrips.trans htrip) (List.mem_append_left _ hdrop) (hresults.trans hresult)
      (mt hans.mp hanswered)

/-- A send with a round trip is under way. -/
theorem Fate.of_trip (h : x.Fate g es n y) (htrip : x.trips n = some trip) :
    trip.host = y.transport.host ∧
      (∃ start, trip.Since y.transport (g.hosts y.transport.host).delay start) ∧
      x.results n = none ∧ n ∉ x.answered y.transport.host := by
  cases h with
  | underway trip' start htrip' hhost hsince hresult hanswered =>
    obtain rfl : trip' = trip := Option.some.inj (htrip'.symm.trans htrip)
    exact ⟨hhost, ⟨start, hsince⟩, hresult, hanswered⟩
  | answered hnone | cutOff _ hnone | dropped hnone => cases hnone.symm.trans htrip

/-- A send that its own host has not answered has been answered by none. -/
theorem Serves.unanswered (hs : Serves g i replies es x) (hn : x.sends[n]? = some y)
    (h : n ∉ x.answered y.transport.host) (j : Nat) : n ∉ x.answered j := by
  intro hj
  obtain ⟨z, hz, rfl⟩ := hs.known j n hj
  obtain rfl : y = z := Option.some.inj (hn.symm.trans hz)
  exact h hj

/-! ## One send at a time -/

/-- Between two exchanges nothing has become of any send but one, and nothing has been sent. -/
structure Concerns (n : Nat) (x x' : Exchange) : Prop where
  sends : x'.sends = x.sends
  received : x.gateway.Receives x'.gateway []
  delays : ∀ j, (x'.gateway.hosts j).delay = (x.gateway.hosts j).delay
  trips : ∀ m, m ≠ n → x'.trips m = x.trips m
  results : ∀ m, m ≠ n → x'.results m = x.results m
  answered : ∀ m j, m ≠ n → (m ∈ x'.answered j ↔ m ∈ x.answered j)

/-- It is enough to look at the queue and at the send that has gone on. -/
theorem Concerns.serves (h : Concerns n x x') (hs : Serves g i replies es x) (e : Event)
    (hn : x.sends[n]? = some y) (hfate : x'.Fate g (es ++ [e]) n y)
    (hqueue : (x'.gateway.hosts i).responder = .queued (replies.drop (x'.answered i).length))
    (hhanded : ∀ k m, (x'.answered i)[k]? = some m → x'.results m = some (replyAt replies k))
    (honce : ∀ j, (x'.answered j).Nodup)
    (hknown : ∀ j, n ∈ x'.answered j → y.transport.host = j) :
    Serves g i replies (es ++ [e]) x' where
  received := by
    rw [h.sends]
    exact hs.received.before h.received
  delays := fun j => (h.delays j).trans (hs.delays j)
  queue := hqueue
  handedOut := hhanded
  once := honce
  known := by
    intro j m hm
    rw [h.sends]
    by_cases hmn : m = n
    · subst hmn
      exact ⟨y, hn, hknown j hm⟩
    · exact hs.known j m ((h.answered m j hmn).mp hm)
  fates := by
    intro m z hz
    rw [h.sends] at hz
    by_cases hmn : m = n
    · subst hmn
      obtain rfl : y = z := Option.some.inj (hn.symm.trans hz)
      exact hfate
    · exact (hs.fates m z hz).keep e (h.trips m hmn) (h.results m hmn) (h.answered m _ hmn)
  fresh := by
    intro m hm
    rw [h.sends] at hm
    have hmn : m ≠ n := by
      rintro rfl
      exact absurd (List.getElem?_eq_some_iff.mp hn).1 (by omega)
    rw [h.trips m hmn, h.results m hmn]
    exact hs.fresh m hm

/-- If the send takes no reply, the queue stays as it is. -/
theorem Concerns.serves_of_unanswered (h : Concerns n x x') (hs : Serves g i replies es x)
    (e : Event) (hn : x.sends[n]? = some y) (hfate : x'.Fate g (es ++ [e]) n y)
    (hanswered : x'.answered = x.answered)
    (hresponder : (x'.gateway.hosts i).responder = (x.gateway.hosts i).responder)
    (hresult : ∀ j, n ∈ x.answered j → x'.results n = x.results n) :
    Serves g i replies (es ++ [e]) x' := by
  refine h.serves hs e hn hfate ?_ ?_ ?_ ?_
  · rw [hresponder, hanswered]
    exact hs.queue
  · intro k m hm
    rw [hanswered] at hm
    have hsame : x'.results m = x.results m := by
      by_cases hmn : m = n
      · subst hmn
        exact hresult i (List.mem_of_getElem? hm)
      · exact h.results m hmn
    rw [hsame]
    exact hs.handedOut k m hm
  · rw [hanswered]
    exact hs.once
  · intro j hj
    rw [hanswered] at hj
    obtain ⟨z, hz, hhost⟩ := hs.known j n hj
    obtain rfl : y = z := Option.some.inj (hn.symm.trans hz)
    exact hhost

/-! ## A send goes on -/

theorem concerns_advance (x : Exchange) (n : Nat) (trip : RoundTrip) :
    Concerns n x (x.advance n trip) where
  sends := rfl
  received := RoundTrip.receives_resume _ _ _
  delays := RoundTrip.delay_resume .none x.gateway trip
  trips := fun m hm => setAt_of_ne _ _ hm
  results := fun m hm => setAt_of_ne _ _ hm
  answered := by
    intro m j hm
    simp only [advance]
    split
    · by_cases hj : j = trip.host
      · subst hj
        simp [hm]
      · rw [setAt_of_ne _ _ hj]
    · exact Iff.rfl

section Due

variable (hdue : trip.isAnswered x.gateway = true)
include hdue

theorem answered_advance_of_due : (x.advance n trip).answered
    = setAt x.answered trip.host (x.answered trip.host ++ [n]) := by
  rw [advance, if_pos hdue]

theorem advance_of_due :
    (x.advance n trip).trips n = none ∧
      (x.advance n trip).results n
        = some ((x.gateway.hosts trip.host).answer trip.request).1 ∧
      (x.advance n trip).gateway.hosts
        = setAt x.gateway.hosts trip.host ((x.gateway.hosts trip.host).answer trip.request).2 := by
  simp only [advance, RoundTrip.resume_of_due .none hdue, setAt_same]
  exact ⟨rfl, rfl, rfl⟩

/-- What is left of the queue is what those who have been answered did not get. -/
theorem queue_advance_of_due
    (hqueue : (x.gateway.hosts i).responder = .queued (replies.drop (x.answered i).length)) :
    ((x.advance n trip).gateway.hosts i).responder
      = .queued (replies.drop ((x.advance n trip).answered i).length) := by
  rw [(advance_of_due hdue).2.2, answered_advance_of_due hdue]
  by_cases hi : i = trip.host
  · subst hi
    rw [setAt_same, setAt_same, List.length_append]
    simp only [Host.answer, hqueue, answer_drop]
    rfl
  · rw [setAt_of_ne _ _ hi, setAt_of_ne _ _ hi]
    exact hqueue

/-- Who is answered gets the reply that is next, and everybody else keeps his. -/
theorem handedOut_advance_of_due
    (hqueue : (x.gateway.hosts i).responder = .queued (replies.drop (x.answered i).length))
    (hhanded : ∀ k m, (x.answered i)[k]? = some m → x.results m = some (replyAt replies k))
    (hnew : n ∉ x.answered i) {k m : Nat} (hm : ((x.advance n trip).answered i)[k]? = some m) :
    (x.advance n trip).results m = some (replyAt replies k) := by
  have hold : (x.answered i)[k]? = some m →
      (x.advance n trip).results m = some (replyAt replies k) := by
    intro hold
    have hmn : m ≠ n := by
      rintro rfl
      exact hnew (List.mem_of_getElem? hold)
    rw [(concerns_advance x n trip).results m hmn]
    exact hhanded k m hold
  rw [answered_advance_of_due hdue] at hm
  by_cases hi : i = trip.host
  · subst hi
    rw [setAt_same, List.getElem?_append] at hm
    split at hm
    · exact hold hm
    · obtain ⟨hk, rfl⟩ : k = (x.answered trip.host).length ∧ n = m := by
        rw [List.getElem?_singleton] at hm
        split at hm
        · exact ⟨by omega, Option.some.inj hm⟩
        · cases hm
      rw [(advance_of_due hdue).2.1, hk]
      simp only [Host.answer, hqueue, answer_drop]
  · rw [setAt_of_ne _ _ hi] at hm
    exact hold hm

/-- A send whose answer is due gets the next reply of its queue. -/
theorem serves_advance_of_due (hs : Serves g i replies es x) (e : Event)
    (hn : x.sends[n]? = some y) (htrip : x.trips n = some trip) :
    Serves g i replies (es ++ [e]) (x.advance n trip) := by
  obtain ⟨hhost, -, -, hnew⟩ := (hs.fates n y hn).of_trip htrip
  have hans := answered_advance_of_due (n := n) hdue
  refine (concerns_advance x n trip).serves hs e hn ?_ (queue_advance_of_due hdue hs.queue) ?_ ?_ ?_
  · refine .answered (advance_of_due hdue).1 ?_
    rw [hans, ← hhost, setAt_same]
    exact List.mem_append_right _ List.mem_cons_self
  · intro k m
    exact handedOut_advance_of_due hdue hs.queue hs.handedOut (hs.unanswered hn hnew i)
  · intro j
    rw [hans]
    by_cases hj : j = trip.host
    · subst hj
      rw [setAt_same]
      apply (hs.once trip.host).append (List.nodup_singleton n)
      rw [List.disjoint_singleton]
      exact hs.unanswered hn hnew trip.host
    · rw [setAt_of_ne _ _ hj]
      exact hs.once j
  · intro j hj
    rw [hans] at hj
    by_cases hjh : j = trip.host
    · exact hhost.symm.trans hjh.symm
    · rw [setAt_of_ne _ _ hjh] at hj
      exact absurd hj (hs.unanswered hn hnew j)

end Due

/-- A send whose answer is not due takes nothing from a queue, whether or not it is cut off. -/
theorem serves_advance_of_early (hs : Serves g i replies es x) (e : Event)
    (hn : x.sends[n]? = some y) (htrip : x.trips n = some trip)
    (hearly : trip.isAnswered x.gateway = false) :
    Serves g i replies (es ++ [e]) (x.advance n trip) := by
  obtain ⟨hhost, ⟨start, hsince⟩, hresult, hnew⟩ := (hs.fates n y hn).of_trip htrip
  have hans : (x.advance n trip).answered = x.answered := by
    rw [advance, if_neg (Bool.not_eq_true _ ▸ hearly)]
  have hserves := (concerns_advance x n trip).serves_of_unanswered hs e hn
  cases hl : trip.limits.find? (Limit.hasPassed x.gateway) with
  | some l =>
    have hresume := RoundTrip.resume_of_passed .none hearly hl
    obtain ⟨hd, hshort⟩ := hsince.shorter_of_passed hearly hl
    refine hserves ?_ hans ?_ fun j hj => absurd hj (hs.unanswered hn hnew j)
    · refine .cutOff l.duration ?_ (List.reduceOption_mem_iff.mp hd) hshort ?_ ?_
      · simp only [advance, hresume, setAt_same]
        rfl
      · simp only [advance, hresume, setAt_same]
        rfl
      · rw [hans]
        exact hnew
    · simp only [advance, hresume]
      rfl
  | none =>
    have hresume := RoundTrip.resume_of_early .none hearly hl
    refine hserves ?_ hans ?_ fun j hj => absurd hj (hs.unanswered hn hnew j)
    · refine .underway trip start ?_ hhost hsince ?_ ?_
      · simp only [advance, hresume, setAt_same]
        rfl
      · simp only [advance, hresume, setAt_same]
        rfl
      · rw [hans]
        exact hnew
    · simp only [advance, hresume]

/-! ## Events -/

theorem serves_opening (h : (g.hosts i).responder = .queued replies) :
    Serves g i replies [] (opening g) where
  received := .refl g
  delays := fun _ => rfl
  queue := h
  handedOut := by
    intro k n hn
    cases hn
  once := fun _ => List.nodup_nil
  known := by
    intro j n hn
    cases hn
  fates := by
    intro n y hn
    cases hn
  fresh := fun _ _ => ⟨rfl, rfl⟩

theorem serves_send (hs : Serves g i replies es x) (t : Transport) (q : Request) :
    Serves g i replies (es ++ [.send t q]) (x.send t q) where
  received := hs.received.trans (RoundTrip.receives_start x.gateway t q)
  delays := fun j => (RoundTrip.delay_start x.gateway t q j).trans (hs.delays j)
  queue := by
    show (setAt x.gateway.hosts t.host _ i).responder
      = .queued (replies.drop (x.answered i).length)
    rw [← hs.queue]
    by_cases hi : i = t.host
    · rw [hi, setAt_same]
      rfl
    · rw [setAt_of_ne _ _ hi]
  handedOut := hs.handedOut
  once := hs.once
  known := by
    intro j n hn
    obtain ⟨y, hy, hj⟩ := hs.known j n hn
    exact ⟨y, List.getElem?_append_left (List.getElem?_eq_some_iff.mp hy).1 ▸ hy, hj⟩
  fates := by
    intro n y hy
    by_cases hn : n < x.sends.length
    · have hne : n ≠ x.sends.length := hn.ne
      have hsends : (x.send t q).sends = x.sends ++ [⟨t, q⟩] := rfl
      rw [hsends, List.getElem?_append_left hn] at hy
      exact (hs.fates n y hy).keep _ (setAt_of_ne _ _ hne) rfl Iff.rfl
    · -- the send has just begun
      obtain rfl : n = x.sends.length := by
        have hlength := (List.getElem?_eq_some_iff.mp hy).1
        simp only [send, List.length_append, List.length_singleton] at hlength
        omega
      obtain rfl : ⟨t, q⟩ = y := by simpa [send] using hy
      refine .underway _ x.gateway.now (setAt_same _ _ _) rfl ?_ (hs.fresh _ le_rfl).2 ?_
      · rw [← hs.delays t.host]
        exact RoundTrip.since_start x.gateway t q
      · intro hmem
        obtain ⟨z, hz, -⟩ := hs.known _ _ hmem
        rw [List.getElem?_eq_none le_rfl] at hz
        cases hz
  fresh := by
    intro n hn
    have hlength : x.sends.length < n := by
      simp only [send, List.length_append, List.length_singleton] at hn
      omega
    obtain ⟨htrip, hresult⟩ := hs.fresh n hlength.le
    exact ⟨(setAt_of_ne _ _ hlength.ne').trans htrip, hresult⟩

/-- An event that concerns neither hosts nor sends changes nothing. -/
theorem Serves.idle (hs : Serves g i replies es x) (e : Event) {g' : Gateway}
    (hhosts : g'.hosts = x.gateway.hosts) :
    Serves g i replies (es ++ [e]) { x with gateway := g' } where
  received := hs.received.before (Gateway.receives_of_hosts_eq hhosts)
  delays := by
    rw [hhosts]
    exact hs.delays
  queue := by
    rw [hhosts]
    exact hs.queue
  handedOut := hs.handedOut
  once := hs.once
  known := hs.known
  fates := fun n y hy => (hs.fates n y hy).keep e rfl rfl Iff.rfl
  fresh := hs.fresh

/-- Dropping a send undoes nothing that has become of it. -/
theorem serves_drop (hs : Serves g i replies es x) (n : Nat) :
    Serves g i replies (es ++ [.drop n]) (x.step (.drop n)) := by
  by_cases hlt : n < x.sends.length
  · have hconcerns : Concerns n x (x.step (.drop n)) :=
      ⟨rfl, .refl _, fun _ => rfl, fun m hm => setAt_of_ne _ _ hm, fun _ _ => rfl,
        fun _ _ _ => Iff.rfl⟩
    have hnone : (x.step (.drop n)).trips n = none := setAt_same _ _ _
    have hn := List.getElem?_eq_getElem hlt
    refine hconcerns.serves_of_unanswered hs _ hn ?_ rfl rfl fun _ _ => rfl
    cases hs.fates n _ hn with
    | underway trip start htrip hhost hsince hresult hanswered =>
      exact .dropped hnone (List.mem_append_right _ List.mem_cons_self) hresult hanswered
    | answered htrip hanswered => exact .answered hnone hanswered
    | cutOff d htrip hd hshort hresult hanswered =>
      exact .cutOff d hnone hd hshort hresult hanswered
    | dropped htrip hdrop hresult hanswered =>
      exact .dropped hnone (List.mem_append_left _ hdrop) hresult hanswered
  · -- nothing has been sent under this number
    have hsame : x.step (.drop n) = x := by
      have htrips : setAt x.trips n none = x.trips := by
        funext m
        by_cases hm : m = n
        · rw [hm, setAt_same, (hs.fresh n (by omega)).1]
        · exact setAt_of_ne _ _ hm
      rw [step, htrips]
    rw [hsame]
    exact hs.idle _ rfl

theorem serves_step (hs : Serves g i replies es x) (e : Event) :
    Serves g i replies (es ++ [e]) (x.step e) := by
  cases e with
  | send t q => exact serves_send hs t q
  | resume n =>
    cases htrip : x.trips n with
    | none =>
      rw [step, htrip]
      exact hs.idle _ rfl
    | some trip =>
      rw [step, htrip]
      have hlt : n < x.sends.length := by
        by_contra hge
        rw [(hs.fresh n (by omega)).1] at htrip
        cases htrip
      have hn := List.getElem?_eq_getElem hlt
      by_cases hdue : trip.isAnswered x.gateway = true
      · exact serves_advance_of_due hdue hs _ hn htrip
      · exact serves_advance_of_early hs _ hn htrip (Bool.eq_false_iff.mpr hdue)
  | drop n => exact serves_drop hs n
  | elapse millis => exact hs.idle _ rfl

theorem serves_run (h : (g.hosts i).responder = .queued replies) (es : List Event) :
    Serves g i replies es ((opening g).run es) := by
  induction es using List.reverseRecOn with
  | nil => exact serves_opening h
  | append_singleton es e ih =>
    rw [run, List.foldl_append]
    exact serves_step ih e

/-! ## The main result -/

/-- A host has handed out the replies of its queue. -/
structure HandsOut (g : Gateway) (i : Nat) (replies : List (Outcome Response)) (es : List Event)
    (x : Exchange) : Prop where
  /-- The host has noted all sends to it, whatever has become of them, as they came. -/
  requests : (x.gateway.hosts i).requests = arrivals i x.sends
  count : (x.gateway.hosts i).requests.length = x.sends.countP (·.transport.host == i)
  /-- Whoever was answered after `k` others has ended in the `k`-th reply, counted from zero. -/
  handedOut : ∀ k n, (x.answered i)[k]? = some n → x.results n = some (replyAt replies k)
  /-- Nobody is answered twice. -/
  once : (x.answered i).Nodup
  /-- All other replies are left. -/
  left : (x.gateway.hosts i).responder = .queued (replies.drop (x.answered i).length)
  /-- Every send is under way, has been answered, has been cut off or has been dropped. -/
  fates : ∀ n y, x.sends[n]? = some y → x.Fate g es n y
  /-- A send that goes on when its answer is due is the next one to be answered. -/
  next : ∀ n trip, x.trips n = some trip → trip.host = i → trip.isAnswered x.gateway = true →
    (x.step (.resume n)).answered i = x.answered i ++ [n]

/-- **A queue of replies is handed out in order.** However sends over any transports overlap, and
however many of them are cut off by deadlines or dropped from outside: a host that answers from a
queue notes every send to it on arrival, and the `k`-th send that it answers ends in the `k`-th
reply of the queue, or fails for want of one; a send that is given up before takes nothing from the
queue. -/
theorem queue_hands_out (g : Gateway) {i : Nat} {delay : Option Nat}
    {replies : List (Outcome Response)}
    (h : g.hosts i = .fresh (.queued replies) delay) (es : List Event) :
    HandsOut g i replies es ((opening g).run es) := by
  have hserves : Serves g i replies es ((opening g).run es) := serves_run (by rw [h]; rfl) es
  have hrequests : (((opening g).run es).gateway.hosts i).requests
      = arrivals i ((opening g).run es).sends := by
    rw [hserves.received i, h]
    rfl
  refine ⟨hrequests, ?_, hserves.handedOut, hserves.once i, hserves.queue, hserves.fates, ?_⟩
  · rw [hrequests, arrivals, List.length_map, List.countP_eq_length_filter]
  · rintro n trip htrip rfl hdue
    rw [step, htrip]
    show (advance _ n trip).answered trip.host = _
    rw [answered_advance_of_due hdue, setAt_same]

/-- A host that answers after five milliseconds and has two replies. -/
def twoReplies : Gateway :=
  { Gateway.start with
    hosts := fun _ => .fresh (.queued [.ok ⟨.ok, none⟩, .ok ⟨.invalidConnection, none⟩]) (some 5) }

/-- Of five sends the first is cut off after three milliseconds, and the third is dropped when its
answer is due. -/
def fiveSends : List Event :=
  [.send ⟨0, [some ⟨3000000⟩], 0⟩ .listConnections, .send default .listConnections, .elapse 3,
    .resume 0, .send default (.sendCommand ⟨"A"⟩ "ls"), .elapse 2, .resume 1, .elapse 3, .drop 2,
    .send ⟨0, [none, some ⟨9000000⟩], 0⟩ .listConnections, .elapse 5, .resume 3,
    .send default .listConnections, .elapse 5, .resume 4]

/-- Neither of them takes a reply: the two replies go to the second and the fourth send, and nothing
is left for the fifth. -/
theorem queue_hands_out_fiveSends :
    ((opening twoReplies).run fiveSends).results 0 = some (.error (.timeout 3)) ∧
      ((opening twoReplies).run fiveSends).results 1 = some (.ok ⟨.ok, none⟩) ∧
      ((opening twoReplies).run fiveSends).results 2 = none ∧
      ((opening twoReplies).run fiveSends).results 3 = some (.ok ⟨.invalidConnection, none⟩) ∧
      ((opening twoReplies).run fiveSends).results 4
        = some (.error (.transport "no scripted reply left")) ∧
      (((opening twoReplies).run fiveSends).gateway.hosts 0).requests.length = 5 := by
  have hhands := queue_hands_out twoReplies (i := 0) rfl fiveSends
  exact ⟨rfl, hhands.handedOut 0 1 rfl, rfl, hhands.handedOut 1 3 rfl, hhands.handedOut 2 4 rfl,
    hhands.count⟩

end Exchange

end MuxBridge
