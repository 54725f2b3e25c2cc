/-
# Calls keep track of their operations

Between two stretches of an operation its call says all that matters of it: over which transport it
goes, whether it has got its delegate yet, and what runs of factories have sent in its course.

* `Operation.due`: what an operation is to send itself, given the delegate that it got;
* `Operation.Tracks`: what the state of a call says about its operation so far;
* `Operation.reaches_resume`: a call that goes on keeps track of its operation, or answers it;
* `Operation.due_resume`: and it sends itself what becomes due with the delegate that it gets.
-/
import Mathlib.Data.List.ReduceOption
import MuxBridge.Proofs.Service.Requests

namespace MuxBridge

/-! ## What is due -/

namespace Operation

/-- The transport over which an operation asks for the connections. -/
def listsOver? : Operation → Option Transport
  | .list _ t _ | .find _ t _ _ => some t
  | _ => none

/-- What an operation is due to send itself, given the delegate that it got from a slot, if any. -/
def due (resolved : Option Delegate) : Operation → List Sending
  | .ensure .. | .owningSession _ => []
  | .list _ t _ | .find _ t _ _ => if resolved.isSome then [⟨t, .listConnections⟩] else []
  | .work c w => [⟨c.delegate.transport, w.request c.id⟩]

/-- What a run of a factory may send in the course of an operation. -/
def probe : Operation → List Sending
  | .ensure _ t _ | .list _ t _ | .find _ t _ _ => [⟨t, .listConnections⟩]
  | _ => []

/-- Whether an answer is one to an operation, given the delegate that it got from a slot. All
connections that are listed carry that delegate. -/
def Answers (op : Operation) (resolved : Option Delegate) (f : Finding) : Prop :=
  match op, f with
  | .ensure _ t _, .yielded (.delegate d given) => resolved = some d ∧ given = t
  | .list .., .yielded (.connections cs) => ∃ d, resolved = some d ∧ ∀ c ∈ cs, c.delegate = d
  | .find .., .found c? => ∃ d, resolved = some d ∧ ∀ c ∈ c?, c.delegate = d
  | .owningSession c, .session s => s = c.owningSession
  | .work .., .yielded (.achievement _) => True
  | _, _ => False

end Operation

/-- A round trip is on its way with a request, under the deadlines of a transport. -/
def RoundTrip.Carries (trip : RoundTrip) (x : Sending) : Prop :=
  trip.host = x.transport.host ∧ trip.request = x.request ∧
    trip.limits.map Limit.duration = x.transport.deadlines.reduceOption

/-! ## Round trips -/

namespace RoundTrip

theorem carries_start (g : Gateway) (t : Transport) (q : Request) :
    (start g t q).2.Carries ⟨t, q⟩ := by
  refine ⟨rfl, rfl, ?_⟩
  show ((t.deadlines.filterMap fun d => d.map (Limit.start g)).map Limit.duration) = _
  rw [List.map_filterMap, List.reduceOption]
  refine List.filterMap_congr ?_
  intro d _
  cases d <;> rfl

end RoundTrip

/-! ## Probes -/

namespace Resolution

variable {g g' : Gateway} {span : Span} {r r' : Resolution} {run : FactoryRun}

theorem probes_of_resumeRun_waiting (h : r.resumeRun g span run = (g', .waiting r')) :
    r'.probes = run.probes r.transport ++ run.sendings g r.transport := by
  unfold resumeRun at h
  split at h
  · next hrun =>
    rw [← Course.waiting.inj (Prod.mk.inj h).2]
    exact FactoryRun.probes_of_resume_waiting hrun
  · cases (Prod.mk.inj h).2

/-- The run that a call is in has sent what the call's run has sent so far. -/
theorem probes_of_inRun (h : r.inRun? g span = some (g', run)) :
    run.probes r.transport = r.probes := by
  cases hphase : r.phase with
  | running run' =>
    simp only [inRun?, hphase] at h
    simp only [probes, hphase, (Prod.mk.inj (Option.some.inj h)).2]
  | arriving | queued =>
    simp only [inRun?, hphase] at h
    simp only [probes, hphase]
    obtain ⟨⟨g₁, f⟩, -, hlaunch⟩ := Option.map_eq_some_iff.mp h
    have hrun : (g₁.launch span f).2 = run := congrArg Prod.snd hlaunch
    rw [← hrun]
    rfl

theorem probes_of_resume_waiting (h : r.resume g span = (g', .waiting r')) :
    r'.probes = r.probes ++ r.sendings g span := by
  have hun : ∃ g₁, r.resumeUnlimited g span = (g₁, .waiting r') := by
    unfold resume at h
    split at h
    · cases (Prod.mk.inj h).2
    · next g₁ r₁ hres =>
      split at h
      · refine ⟨g₁, ?_⟩
        rw [hres, Course.waiting.inj (Prod.mk.inj h).2]
      · cases (Prod.mk.inj h).2
  obtain ⟨g₁, hun⟩ := hun
  unfold sendings
  split
  · next g₂ run hrun =>
    rw [(resumeUnlimited_of_inRun hrun).2.2] at hun
    rw [probes_of_resumeRun_waiting hun, probes_of_inRun hrun]
  · next hrun =>
    obtain ⟨-, hbefore, hafter⟩ := resumeUnlimited_of_not_inRun hrun
    rw [probes_of_not_isRunning hbefore, probes_of_not_isRunning (hafter r' (by rw [hun]))]
    rfl

/-- One probe at most is sent in the course of a call. -/
theorem probes_sublist (g : Gateway) (span : Span) (r : Resolution) :
    (r.probes ++ r.sendings g span).Sublist [⟨r.transport, .listConnections⟩] := by
  unfold sendings
  split
  · next g₁ run hrun =>
    rw [← probes_of_inRun hrun]
    exact run.probes_sublist g₁ r.transport
  · next hrun =>
    rw [probes_of_not_isRunning (resumeUnlimited_of_not_inRun hrun).2.1]
    exact List.nil_sublist _

end Resolution

/-! ## Calls and their operations -/

/-- An outcome that is made of another one. -/
theorem exists_of_map_eq_ok {α β : Type} {o : Outcome α} {f : α → β} {b : β}
    (h : o.map f = .ok b) : ∃ a, o = .ok a ∧ f a = b := by
  cases o with
  | error e => cases h
  | ok a => exact ⟨a, rfl, Except.ok.inj h⟩

namespace Listing

/-- All connections of a listing carry its delegate. -/
theorem delegate_of_conclude {g : Gateway} {d : Delegate} {reply : Outcome Response}
    {cs : List Connection} (h : (conclude g d reply).2 = .ok cs) : ∀ c ∈ cs, c.delegate = d := by
  unfold conclude at h
  split at h
  · cases h
  · split at h
    · cases h
    · next es _ =>
      rw [← Except.ok.inj h]
      intro c hc
      obtain ⟨e, -, rfl⟩ := List.mem_map.mp hc
      rfl
    · rw [← Except.ok.inj h]
      intro c hc
      cases hc
    · cases h

end Listing

namespace Operation

/-- What the state of a call says about its operation, given the delegate that the operation has got
from a slot and what runs of factories have sent in its course. -/
def Tracks (op : Operation) (resolved : Option Delegate) (sent : List Sending) : Call → Prop
  | .resolution r =>
    (∃ i timeout, op = .ensure i r.transport timeout) ∧ resolved = none ∧ sent = r.probes
  | .listing (.resolving r) =>
    op.listsOver? = some r.transport ∧ resolved = none ∧ sent = r.probes
  | .listing (.asking d trip) =>
    ∃ t, op.listsOver? = some t ∧ resolved = some d ∧ trip.Carries ⟨t, .listConnections⟩
  | .dispatch d =>
    op = .work d.connection d.work ∧
      d.trip.Carries ⟨d.connection.delegate.transport, d.work.request d.connection.id⟩
  | _ => False

/-- What a call that has gone on says about its operation: it waits, or it has come to an answer. -/
def Reaches (op : Operation) (resolved : Option Delegate) (sent : List Sending) :
    Course Call (Outcome Yield) → Prop
  | .waiting call => op.Tracks resolved sent call
  | .ended o => ∀ y, o = .ok y → op.Answers resolved (op.finding y)

variable {op : Operation} {g : Gateway} {resolved : Option Delegate} {sent : List Sending}
  {call : Call} {t : Transport} {d : Delegate}

theorem probe_of_listsOver (h : op.listsOver? = some t) :
    op.probe = [⟨t, .listConnections⟩] := by
  cases op with
  | list | find => rw [← Option.some.inj h]; rfl
  | ensure | owningSession | work => cases h

theorem due_of_listsOver (h : op.listsOver? = some t) :
    op.due resolved = if resolved.isSome then [⟨t, .listConnections⟩] else [] := by
  cases op with
  | list | find => rw [← Option.some.inj h]; rfl
  | ensure | owningSession | work => cases h

/-- Connections of the delegate answer a listing, and so does the one that is looked for. -/
theorem answers_connections {cs : List Connection} (h : op.listsOver? = some t)
    (hcs : ∀ c ∈ cs, c.delegate = d) : op.Answers (some d) (op.finding (.connections cs)) := by
  cases op with
  | list => exact ⟨d, rfl, hcs⟩
  | find => exact ⟨d, rfl, fun c hc => hcs c (List.mem_of_find?_eq_some hc)⟩
  | ensure | owningSession | work => cases h

/-- A listing that asks the host goes on asking, or is answered. -/
theorem reaches_resumeTrip {trip : RoundTrip} (hop : op.listsOver? = some t)
    (htrip : trip.Carries ⟨t, .listConnections⟩) :
    op.Reaches (some d) sent
      ((Listing.resumeTrip g d trip).2.map .listing (·.map .connections)) := by
  unfold Listing.resumeTrip
  split
  · next h =>
    rw [(RoundTrip.eq_of_resume_waiting h).1]
    exact ⟨t, hop, rfl, htrip⟩
  · next g' reply h =>
    intro y hy
    obtain ⟨cs, hcs, rfl⟩ := exists_of_map_eq_ok (o := (Listing.conclude g' d reply).2) hy
    exact answers_connections hop (Listing.delegate_of_conclude hcs)

/-- A listing that gets its delegate asks the host with it. -/
theorem reaches_resume_resolving {r : Resolution} (hop : op.listsOver? = some r.transport) :
    op.Reaches (r.resolved? g .listing) (r.probes ++ r.sendings g .listing)
      (((Listing.resolving r).resume g).2.map .listing (·.map .connections)) := by
  rcases hres : r.resume g .listing with ⟨g', r' | e | d⟩
  · rw [Listing.resume_of_waiting hres, Resolution.resolved?_of_waiting hres]
    have htransport : r'.transport = r.transport := by
      rw [Resolution.eq_of_resume_waiting hres]
    exact ⟨by rw [htransport]; exact hop, rfl, (Resolution.probes_of_resume_waiting hres).symm⟩
  · rw [Listing.resume_of_error hres]
    intro y hy
    cases hy
  · rw [Listing.resume_of_ok hres, Resolution.resolved?_of_ok hres]
    exact reaches_resumeTrip hop (RoundTrip.carries_start _ _ _)

/-- A call that goes on keeps track of its operation, or answers it. -/
theorem reaches_resume (h : op.Tracks resolved sent call) :
    op.Reaches ((call.resolved? g).or resolved) (sent ++ call.factorySendings g)
      (call.resume g).2 := by
  cases call with
  | resolution r =>
    obtain ⟨⟨i, timeout, rfl⟩, rfl, rfl⟩ := h
    rw [Option.or_none]
    simp only [Call.resume, Call.resolved?, Call.factorySendings]
    rcases hres : r.resume g .none with ⟨g', r' | e | d⟩
    · have htransport : r'.transport = r.transport := by
        rw [Resolution.eq_of_resume_waiting hres]
      refine ⟨⟨i, timeout, by rw [htransport]⟩, Resolution.resolved?_of_waiting hres, ?_⟩
      exact (Resolution.probes_of_resume_waiting hres).symm
    · intro y hy
      cases hy
    · intro y hy
      rw [← Except.ok.inj hy, Resolution.resolved?_of_ok hres]
      exact ⟨rfl, rfl⟩
  | listing l =>
    cases l with
    | resolving r =>
      obtain ⟨hop, rfl, rfl⟩ := h
      rw [Option.or_none]
      exact reaches_resume_resolving hop
    | asking d trip =>
      obtain ⟨t, hop, rfl, htrip⟩ := h
      exact reaches_resumeTrip hop htrip
  | dispatch d =>
    obtain ⟨rfl, htrip⟩ := h
    simp only [Call.resume, Dispatch.resume]
    rcases hres : d.trip.resume g d.span with ⟨g', trip | reply⟩
    · rw [(RoundTrip.eq_of_resume_waiting hres).1]
      exact ⟨rfl, htrip⟩
    · intro y hy
      obtain ⟨a, -, rfl⟩ := exists_of_map_eq_ok (o := (d.conclude g' reply).2) hy
      trivial
  | roundTrip | rest => exact h.elim

/-- What a call sends itself as it goes on becomes due with the delegate that it gets. -/
theorem due_resume (h : op.Tracks resolved sent call) :
    op.due resolved ++ call.ownSendings g = op.due ((call.resolved? g).or resolved) := by
  cases call with
  | resolution r =>
    obtain ⟨⟨i, timeout, rfl⟩, rfl, -⟩ := h
    rfl
  | listing l =>
    cases l with
    | resolving r =>
      obtain ⟨hop, rfl, -⟩ := h
      rw [due_of_listsOver hop, due_of_listsOver hop, Option.or_none]
      rfl
    | asking d trip =>
      obtain ⟨t, hop, rfl, -⟩ := h
      simp [Call.ownSendings, Listing.sendings, Call.resolved?]
  | dispatch d =>
    obtain ⟨rfl, -⟩ := h
    rfl
  | roundTrip | rest => exact h.elim

/-- Runs of factories send one probe at most in the course of a call. -/
theorem probe_resume (h : op.Tracks resolved sent call) (hsent : sent.Sublist op.probe) :
    (sent ++ call.factorySendings g).Sublist op.probe := by
  cases call with
  | resolution r =>
    obtain ⟨⟨i, timeout, rfl⟩, -, rfl⟩ := h
    exact r.probes_sublist g .none
  | listing l =>
    cases l with
    | resolving r =>
      obtain ⟨hop, -, rfl⟩ := h
      rw [probe_of_listsOver hop]
      exact r.probes_sublist g .listing
    | asking d trip =>
      simpa [Call.factorySendings] using hsent
  | dispatch d => simpa [Call.factorySendings] using hsent
  | roundTrip | rest => exact h.elim

/-! ## Operations that begin -/

theorem startSendings_eq_due (op : Operation) : op.startSendings = op.due none := by
  cases op <;> rfl

theorem receives_start (g : Gateway) (n : Nat) (op : Operation) :
    g.Receives (op.start g n).1 op.startSendings := by
  cases op with
  | work c w => exact Dispatch.receives_start g c w
  | ensure | list | find | owningSession => exact .refl g

theorem tracks_start {n : Nat} (h : (op.start g n).2.state? = some call) :
    op.Tracks none [] call := by
  cases op with
  | ensure i t timeout =>
    rw [← Option.some.inj h]
    exact ⟨⟨i, timeout, rfl⟩, rfl, rfl⟩
  | list i t timeout | find i t timeout =>
    rw [← Option.some.inj h]
    exact ⟨rfl, rfl, rfl⟩
  | owningSession c => cases h
  | work c w =>
    rw [← Option.some.inj h]
    exact ⟨rfl, RoundTrip.carries_start _ _ _⟩

theorem answers_start {n : Nat} {f : Finding} (h : (op.start g n).2.result? = some f) :
    op.Answers none f := by
  cases op with
  | owningSession c =>
    rw [← Option.some.inj h]
    rfl
  | ensure | list | find | work => cases h

end Operation

end MuxBridge
