/-
# What is sent arrives

Whatever a call does, the hosts receive the requests that it sends, each at the host of its
transport, and nothing else: `Gateway.Receives` relates a gateway to a later one by the requests in
between. Replies, deadlines, turns and delegates have no part in it.

* `Gateway.Receives.trans`: requests are received one after the other;
* `Call.receives_resume`: a call that goes on sends what `Call.factorySendings` and
  `Call.ownSendings` say.
-/
import MuxBridge.Proofs.Crowd.Runs
import MuxBridge.Proofs.Service.Basic

namespace MuxBridge

/-! ## Requests that arrive -/

/-- The requests that arrive at a host. -/
def arrivals (i : Nat) (l : List Sending) : List Request :=
  (l.filter (·.transport.host == i)).map Sending.request

@[simp] theorem arrivals_nil (i : Nat) : arrivals i [] = [] := rfl

@[simp] theorem arrivals_append (i : Nat) (l l' : List Sending) :
    arrivals i (l ++ l') = arrivals i l ++ arrivals i l' := by
  simp [arrivals]

/-- Between two gateways the hosts have received these requests, and nothing else. -/
def Gateway.Receives (g g' : Gateway) (l : List Sending) : Prop :=
  ∀ i, (g'.hosts i).requests = (g.hosts i).requests ++ arrivals i l

namespace Gateway

variable {g g' g'' : Gateway} {l l' : List Sending}

theorem Receives.trans (h : g.Receives g' l) (h' : g'.Receives g'' l') :
    g.Receives g'' (l ++ l') := by
  intro i
  rw [h' i, h i, arrivals_append, List.append_assoc]

theorem Receives.refl (g : Gateway) : g.Receives g [] := by
  intro i
  rw [arrivals_nil, List.append_nil]

/-- What happens before nothing is received. -/
theorem Receives.after (h : g.Receives g' []) (h' : g'.Receives g'' l) : g.Receives g'' l :=
  h.trans h'

/-- What happens after everything has been received. -/
theorem Receives.before (h : g.Receives g' l) (h' : g'.Receives g'' []) : g.Receives g'' l := by
  have htrans := h.trans h'
  rwa [List.append_nil] at htrans

/-- Nothing is received while the hosts stay the same. -/
theorem receives_of_hosts_eq (h : g'.hosts = g.hosts) : g.Receives g' [] := by
  intro i
  rw [h, arrivals_nil, List.append_nil]

theorem receives_report (g : Gateway) (span : Span) (e : LogEvent) :
    g.Receives (g.report span e) [] :=
  receives_of_hosts_eq rfl

theorem receives_changeSlot (g : Gateway) (i : Nat) (f : Slot → Slot) :
    g.Receives (g.changeSlot i f) [] :=
  receives_of_hosts_eq rfl

theorem receives_register (g : Gateway) (i : Nat) (f : Factory) :
    g.Receives (g.register i f).1 [] := by
  refine receives_of_hosts_eq ?_
  unfold register
  split <;> rfl

/-- A host that is replaced by one that remembers the same has received nothing. -/
theorem receives_setHost {i : Nat} {h : Host} (hh : h.requests = (g.hosts i).requests) :
    g.Receives (g.setHost i h) [] := by
  intro j
  rw [arrivals_nil, List.append_nil]
  by_cases hj : j = i
  · subst hj
    simp [setHost, hh]
  · simp [setHost, hj]

end Gateway

/-! ## Round trips -/

namespace RoundTrip

theorem receives_start (g : Gateway) (t : Transport) (q : Request) :
    g.Receives (start g t q).1 [⟨t, q⟩] := by
  intro i
  by_cases hi : i = t.host
  · subst hi
    simp [start, Gateway.setHost, Host.receive, arrivals]
  · simp [start, Gateway.setHost, arrivals, hi, Ne.symm hi]

theorem receives_resume (g : Gateway) (span : Span) (r : RoundTrip) :
    g.Receives (r.resume g span).1 [] := by
  unfold resume
  split
  · exact Gateway.receives_setHost (Host.requests_answer _ _)
  · split
    · exact g.receives_report span _
    · exact .refl g

end RoundTrip

/-! ## Runs of factories -/

namespace FactoryRun

theorem receives_resume (g : Gateway) (span : Span) (t : Transport) (run : FactoryRun) :
    g.Receives (run.resume g span t).1 (run.sendings g t) := by
  cases run with
  | resting a time =>
    simp only [resume, sendings]
    by_cases htime : time ≤ g.now
    · by_cases hprobe : a.probe = true
      · -- the rest is over: the probe is sent, and its reply may be there at once
        rw [if_pos htime, if_pos hprobe, if_pos ⟨htime, hprobe⟩]
        exact (RoundTrip.receives_start g t _).before (RoundTrip.receives_resume _ span _)
      · rw [if_pos htime, if_neg hprobe, if_neg fun h => hprobe h.2]
        exact .refl g
    · rw [if_neg htime, if_neg fun h => htime h.1]
      exact .refl g
  | probing a trip => exact RoundTrip.receives_resume g span trip

/-- What a run has sent so far. -/
def probes (t : Transport) : FactoryRun → List Sending
  | .resting .. => []
  | .probing .. => [⟨t, .listConnections⟩]

/-- A run that has not ended sends nothing that is not among its probes. -/
theorem probes_of_resume_waiting {g g' : Gateway} {span : Span} {t : Transport}
    {run run' : FactoryRun} (h : run.resume g span t = (g', .waiting run')) :
    run'.probes t = run.probes t ++ run.sendings g t := by
  have hprobing : ∀ (g : Gateway) a trip, resumeProbe g span a trip = (g', .waiting run') →
      run'.probes t = [⟨t, .listConnections⟩] := by
    intro g a trip h
    unfold resumeProbe at h
    rcases htrip : trip.resume g span with ⟨g₁, trip' | o⟩
    · rw [htrip] at h
      rw [← Course.waiting.inj (Prod.mk.inj h).2]
      rfl
    · rw [htrip] at h
      cases (Prod.mk.inj h).2
  cases run with
  | resting a time =>
    simp only [resume] at h
    by_cases htime : time ≤ g.now
    · by_cases hprobe : a.probe = true
      · -- the probe has just been sent
        rw [if_pos htime, if_pos hprobe] at h
        simpa [probes, sendings, htime, hprobe] using hprobing _ a _ h
      · rw [if_pos htime, if_neg hprobe] at h
        cases (Prod.mk.inj h).2
    · rw [if_neg htime] at h
      rw [← Course.waiting.inj (Prod.mk.inj h).2]
      simp [probes, sendings, htime]
  | probing a trip =>
    simpa [probes, sendings] using hprobing g a trip h

/-- A run sends one probe at most. -/
theorem probes_sublist (g : Gateway) (t : Transport) (run : FactoryRun) :
    (run.probes t ++ run.sendings g t).Sublist [⟨t, .listConnections⟩] := by
  cases run with
  | resting a time =>
    simp only [probes, sendings, List.nil_append]
    split
    · exact .refl _
    · exact List.nil_sublist _
  | probing a trip => exact .refl _

end FactoryRun

/-! ## Resolutions -/

namespace Resolution

/-- What the run of a call has sent so far, if the call is in one. -/
def probes (r : Resolution) : List Sending :=
  match r.phase with
  | .running run => run.probes r.transport
  | _ => []

/-- A call that is in no run has sent nothing so far. -/
theorem probes_of_not_isRunning {r : Resolution} (h : r.isRunning = false) : r.probes = [] := by
  unfold probes
  split
  · next hp => simp [isRunning, hp] at h
  · rfl

variable (g : Gateway) (span : Span) (r : Resolution)

theorem receives_concludeRun (o : Outcome Blueprint) :
    g.Receives (r.concludeRun g span o).1 [] := by
  cases o with
  | error e => exact Gateway.receives_of_hosts_eq rfl
  | ok b => exact Gateway.receives_of_hosts_eq rfl

theorem receives_resumeRun (run : FactoryRun) :
    g.Receives (r.resumeRun g span run).1 (run.sendings g r.transport) := by
  have hrun := FactoryRun.receives_resume g span r.transport run
  unfold resumeRun
  split
  · next h =>
    rw [h] at hrun
    exact hrun
  · next h =>
    rw [h] at hrun
    exact hrun.before (r.receives_concludeRun _ span _)

theorem receives_resumeUnlimited :
    g.Receives (r.resumeUnlimited g span).1 (r.sendings g span) := by
  unfold sendings
  split
  · next g' run h =>
    obtain ⟨hhosts, -, hresume⟩ := resumeUnlimited_of_inRun h
    rw [hresume]
    exact (Gateway.receives_of_hosts_eq hhosts).after (receives_resumeRun g' span r run)
  · next h => exact Gateway.receives_of_hosts_eq (resumeUnlimited_of_not_inRun h).1

theorem receives_resume : g.Receives (r.resume g span).1 (r.sendings g span) := by
  have hun := r.receives_resumeUnlimited g span
  unfold resume
  split
  · next h =>
    rw [h] at hun
    exact hun
  · next h =>
    rw [h] at hun
    split
    · exact hun
    · -- the deadline ends the call, but not what it has sent before
      exact hun.before (Gateway.receives_of_hosts_eq rfl)

end Resolution

/-! ## Listings and work -/

namespace Listing

variable (g : Gateway)

theorem receives_conclude (d : Delegate) (reply : Outcome Response) :
    g.Receives (conclude g d reply).1 [] := by
  refine Gateway.receives_of_hosts_eq ?_
  unfold conclude
  split
  · rfl
  · split <;> rfl

theorem receives_resumeTrip (d : Delegate) (trip : RoundTrip) :
    g.Receives (resumeTrip g d trip).1 [] := by
  have htrip := trip.receives_resume g .listing
  unfold resumeTrip
  split
  · next h =>
    rw [h] at htrip
    exact htrip
  · next h =>
    rw [h] at htrip
    exact htrip.before (receives_conclude _ d _)

end Listing

namespace Dispatch

variable (g : Gateway)

theorem receives_start (c : Connection) (w : Work) :
    g.Receives (start g c w).1 [⟨c.delegate.transport, w.request c.id⟩] :=
  (g.receives_report _ _).after (RoundTrip.receives_start _ _ _)

theorem receives_conclude (d : Dispatch) (reply : Outcome Response) :
    g.Receives (d.conclude g reply).1 [] := by
  refine Gateway.receives_of_hosts_eq ?_
  unfold conclude
  split
  · rfl
  · split
    · rfl
    · unfold judge
      split
      · rfl
      · rfl
      · rfl
      · unfold openedIn
        dsimp only
        split <;> rfl
      · rfl
      · rfl

theorem receives_resume (d : Dispatch) : g.Receives (d.resume g).1 [] := by
  have htrip := d.trip.receives_resume g d.span
  unfold resume
  split
  · next h =>
    rw [h] at htrip
    exact htrip
  · next h =>
    rw [h] at htrip
    exact htrip.before (d.receives_conclude _ _)

end Dispatch

/-! ## Calls -/

section Resolving

variable {g g' : Gateway} {span : Span} {r : Resolution}

namespace Resolution

theorem resolved?_of_ok {d : Delegate} (h : r.resume g span = (g', .ended (.ok d))) :
    r.resolved? g span = some d := by
  rw [resolved?, h]
  rfl

theorem resolved?_of_error {e : Failure} (h : r.resume g span = (g', .ended (.error e))) :
    r.resolved? g span = none := by
  rw [resolved?, h]
  rfl

theorem resolved?_of_waiting {r' : Resolution} (h : r.resume g span = (g', .waiting r')) :
    r.resolved? g span = none := by
  rw [resolved?, h]
  rfl

end Resolution

namespace Listing

theorem resume_of_waiting {r' : Resolution} (h : r.resume g .listing = (g', .waiting r')) :
    (resolving r).resume g = (g', .waiting (.resolving r')) := by
  simp only [resume, h]

theorem resume_of_error {e : Failure} (h : r.resume g .listing = (g', .ended (.error e))) :
    (resolving r).resume g = (g', .ended (.error e)) := by
  simp only [resume, h]

theorem resume_of_ok {d : Delegate} (h : r.resume g .listing = (g', .ended (.ok d))) :
    (resolving r).resume g = resumeTrip (ask g' r.transport).1 d (ask g' r.transport).2 := by
  simp only [resume, h]
  rfl

theorem receives_ask (g : Gateway) (t : Transport) :
    g.Receives (ask g t).1 [⟨t, .listConnections⟩] :=
  (g.receives_report _ _).after (RoundTrip.receives_start _ _ _)

theorem receives_resume_resolving (g : Gateway) (r : Resolution) :
    g.Receives ((resolving r).resume g).1
      (r.sendings g .listing ++ (resolving r).sendings g) := by
  have hr := r.receives_resume g .listing
  rcases hres : r.resume g .listing with ⟨g', r' | e | d⟩
  · rw [hres] at hr
    simpa [resume_of_waiting hres, sendings, Resolution.resolved?_of_waiting hres] using hr
  · rw [hres] at hr
    simpa [resume_of_error hres, sendings, Resolution.resolved?_of_error hres] using hr
  · rw [hres] at hr
    have hask := (receives_ask g' r.transport).before
      (receives_resumeTrip (ask g' r.transport).1 d (ask g' r.transport).2)
    simpa [resume_of_ok hres, sendings, Resolution.resolved?_of_ok hres] using hr.trans hask

end Listing

end Resolving

/-- **A call that goes on** sends what its run of a factory sends and what it sends itself. -/
theorem Call.receives_resume (g : Gateway) (call : Call) :
    g.Receives (call.resume g).1 (call.factorySendings g ++ call.ownSendings g) := by
  cases call with
  | resolution r =>
    simp only [ownSendings, List.append_nil]
    exact r.receives_resume g .none
  | listing l =>
    cases l with
    | resolving r => exact Listing.receives_resume_resolving g r
    | asking d trip => exact Listing.receives_resumeTrip g d trip
  | dispatch d => exact d.receives_resume g
  | roundTrip trip => exact trip.receives_resume g .none
  | rest time => exact .refl g

end MuxBridge
