/-
# Replies of a wrong kind

A success is only as good as its payload. A listing, a command or a new window that is answered
with success and the payload of another kind of request ends as malformed, and asks no delegate for
anything. A change of visibility does not look at the payload of its reply: whatever a success
carries, the change is taken as made.

* `Dispatch.resume_of_lookup?_none`: who asks the delegate for no window does not depend on which
  windows the delegate knows;
* `Operation.misfit`: what an operation ends in when its reply is of a wrong kind;
* `Service.malformed_iff_ne_visibility`: an operation with such a reply ends as malformed unless it
  changes the visibility of a window.
-/
import MuxBridge.Proofs.Service.Accounts

namespace MuxBridge

/-! ## Windows that are looked up -/

namespace Dispatch

variable {g g' : Gateway} {d : Dispatch} {reply : Outcome Response} {tab : TabId}

/-- The same work on a connection whose delegate knows other sessions and windows. -/
def withDirectory (d : Dispatch) (directory : Directory) : Dispatch :=
  { d with connection := { d.connection with
      delegate := { d.connection.delegate with directory := directory } } }

theorem reply?_of_ended (h : d.trip.resume g d.span = (g', .ended reply)) :
    d.reply? g = some reply := by
  rw [reply?, h]
  rfl

theorem reply?_of_waiting {trip : RoundTrip} (h : d.trip.resume g d.span = (g', .waiting trip)) :
    d.reply? g = none := by
  rw [reply?, h]
  rfl

theorem resume_of_ended (h : d.trip.resume g d.span = (g', .ended reply)) :
    d.resume g = ((d.conclude g' reply).1, .ended (d.conclude g' reply).2) := by
  simp only [resume, h]

theorem conclude_of_asked?_none (h : d.work.asked? reply = none) (directory : Directory) :
    (d.withDirectory directory).conclude g reply = d.conclude g reply := by
  obtain ⟨c, w, trip⟩ := d
  cases reply with
  | error e => rfl
  | ok r =>
    simp only [Work.asked?] at h
    simp only [conclude]
    cases hresult : r.result with
    | error e => rfl
    | ok p? =>
      rw [hresult] at h
      rcases p? with _ | es | output | _ | tab
      · cases w <;> rfl
      · cases w <;> rfl
      · -- the output of a command is all that is looked at
        cases w <;> cases output <;> rfl
      · cases w <;> rfl
      · cases w with
        | window => cases h
        | command | visibility => rfl

theorem conclude_of_asked?_some (h : d.work.asked? reply = some tab) :
    (d.conclude g reply).2
      = .ok (.opened (d.connection.delegate.directory.window? tab)) := by
  cases reply with
  | error e => cases h
  | ok r =>
    simp only [Work.asked?] at h
    split at h
    · next hwork hresult =>
      rw [← Option.some.inj h]
      simp only [conclude, hresult, judge, hwork, openedIn]
      split
      · next hwindow => rw [hwindow]
      · next hwindow => rw [hwindow]
    · cases h

/-- Work that asks the delegate for no window goes on in the same way whatever the delegate
knows. -/
theorem resume_of_lookup?_none (h : d.lookup? g = none) (directory : Directory) :
    (d.withDirectory directory).resume g
      = ((d.resume g).1, (d.resume g).2.map (·.withDirectory directory) id) := by
  rcases htrip : d.trip.resume g d.span with ⟨g', trip | reply⟩
  · have htrip' : (d.withDirectory directory).trip.resume g (d.withDirectory directory).span
        = (g', .waiting trip) := htrip
    simp only [resume, htrip, htrip']
    rfl
  · have htrip' : (d.withDirectory directory).trip.resume g (d.withDirectory directory).span
        = (g', .ended reply) := htrip
    rw [lookup?, reply?_of_ended htrip] at h
    rw [resume_of_ended htrip, resume_of_ended htrip', conclude_of_asked?_none h]
    rfl

/-- Work that asks the delegate for a window yields what the delegate knows of it. -/
theorem resume_of_lookup?_some (h : d.lookup? g = some tab) :
    (d.resume g).2
      = .ended (.ok (.opened (d.connection.delegate.directory.window? tab))) := by
  obtain ⟨reply, hreply, hasked⟩ := Option.bind_eq_some_iff.mp h
  rcases htrip : d.trip.resume g d.span with ⟨g', trip | reply'⟩
  · rw [reply?_of_waiting htrip] at hreply
    cases hreply
  · rw [reply?_of_ended htrip] at hreply
    rw [resume_of_ended htrip, Option.some.inj hreply, conclude_of_asked?_some hasked]

end Dispatch

/-! ## Misfits -/

/-- A success with a payload that answers another kind of request. -/
def Response.Misfits (k : Kind) (r : Response) : Prop :=
  r.status = .ok ∧ ∃ p, r.payload = some p ∧ p.kind ≠ k

theorem Response.Misfits.result {k : Kind} {r : Response} (h : r.Misfits k) :
    ∃ p, r.result = .ok (some p) ∧ p.kind ≠ k := by
  obtain ⟨hstatus, p, hpayload, hkind⟩ := h
  refine ⟨p, ?_, hkind⟩
  rw [Response.result, hstatus, hpayload]
  rfl

/-- What work comes to when its reply is a success of a wrong kind. -/
def Work.misfit : Work → Outcome Achievement
  | .command _ => .error (.incomplete "command output")
  | .visibility .. => .ok .visibilitySet
  | .window _ => .error (.incomplete "tab id")

namespace Operation

/-- The kind of the request that an operation makes itself. -/
def kind? : Operation → Option Kind
  | .list .. | .find .. => some .listConnections
  | .work c w => some (w.request c.id).kind
  | _ => none

/-- What an operation ends in when its reply is a success of a wrong kind. -/
def misfit : Operation → Outcome Finding
  | .work _ w => w.misfit.map fun a => .yielded (.achievement a)
  | _ => .error (.incomplete "connection list")

end Operation

section Misfits

variable {g : Gateway} {r : Response}

theorem Listing.conclude_of_misfits (d : Delegate) (h : r.Misfits .listConnections) :
    conclude g d (.ok r) = (g, .error (.incomplete "connection list")) := by
  obtain ⟨p, hresult, hkind⟩ := h.result
  simp only [conclude, hresult]
  cases p with
  | listConnections es => exact absurd rfl hkind
  | sendCommand | setWindowVisible | createWindow => rfl

theorem Dispatch.conclude_of_misfits {d : Dispatch}
    (h : r.Misfits (d.work.request d.connection.id).kind) :
    d.conclude g (.ok r) = (g, d.work.misfit) := by
  obtain ⟨p, hresult, hkind⟩ := h.result
  obtain ⟨c, w, trip⟩ := d
  simp only [conclude, hresult]
  cases w with
  | command =>
    cases p with
    | sendCommand => exact absurd rfl hkind
    | listConnections | setWindowVisible | createWindow => rfl
  | visibility => rfl
  | window =>
    cases p with
    | createWindow => exact absurd rfl hkind
    | listConnections | sendCommand | setWindowVisible => rfl

/-- No window is asked for. -/
theorem Work.asked?_of_misfits {w : Work} {c : ConnectionId} (h : r.Misfits (w.request c).kind) :
    w.asked? (.ok r) = none := by
  obtain ⟨p, hresult, hkind⟩ := h.result
  simp only [asked?, hresult]
  cases w with
  | command | visibility => rfl
  | window =>
    cases p with
    | createWindow => exact absurd rfl hkind
    | listConnections | sendCommand | setWindowVisible => rfl

end Misfits

/-! ## Calls that take their replies -/

namespace Listing

variable {g : Gateway} {d : Delegate} {trip : RoundTrip} {reply : Outcome Response}

theorem resumeTrip_of_reply (h : (trip.resume g .listing).2.result? = some reply) :
    ∃ g', (resumeTrip g d trip).2 = .ended (conclude g' d reply).2 := by
  rcases htrip : trip.resume g .listing with ⟨g', trip' | reply'⟩
  · rw [htrip] at h
    cases h
  · rw [htrip] at h
    refine ⟨g', ?_⟩
    simp only [resumeTrip, htrip, Option.some.inj h]

/-- A listing that takes its reply ends with what the reply says. -/
theorem resume_of_reply? {l : Listing} (h : l.reply? g = some reply) :
    ∃ g' d, (l.resume g).2 = .ended (conclude g' d reply).2 := by
  cases l with
  | resolving r =>
    rcases hres : r.resume g .listing with ⟨g', r' | e | d⟩
    · simp [reply?, hres] at h
    · simp [reply?, hres] at h
    · simp only [reply?, hres] at h
      obtain ⟨g'', hresume⟩ := resumeTrip_of_reply (d := d) h
      exact ⟨g'', d, by rw [resume_of_ok hres, hresume]⟩
  | asking d trip =>
    obtain ⟨g', hresume⟩ := resumeTrip_of_reply (d := d) h
    exact ⟨g', d, hresume⟩

end Listing

theorem Dispatch.resume_of_reply? {g : Gateway} {d : Dispatch} {reply : Outcome Response}
    (h : d.reply? g = some reply) : ∃ g', (d.resume g).2 = .ended (d.conclude g' reply).2 := by
  rcases htrip : d.trip.resume g d.span with ⟨g', trip | reply'⟩
  · rw [reply?_of_waiting htrip] at h
    cases h
  · rw [reply?_of_ended htrip] at h
    exact ⟨g', by rw [resume_of_ended htrip, Option.some.inj h]⟩

namespace Call

variable {g : Gateway}

theorem resume_listing_of_ended {l : Listing} {o : Outcome (List Connection)}
    (h : (l.resume g).2 = .ended o) :
    (Call.resume g (.listing l)).2 = .ended (o.map .connections) := by
  simp only [resume, h, Course.map]

theorem resume_dispatch_of_ended {d : Dispatch} {o : Outcome Achievement}
    (h : (d.resume g).2 = .ended o) :
    (Call.resume g (.dispatch d)).2 = .ended (o.map .achievement) := by
  simp only [resume, h, Course.map]

end Call

namespace Operation

variable {op : Operation} {g : Gateway} {call : Call} {resolved : Option Delegate}
  {sent : List Sending} {k : Kind} {r : Response} {reply : Outcome Response}

/-- A call that takes its reply ends. -/
theorem ended_of_reply? (hreply : call.reply? g = some reply) :
    ∃ o, (call.resume g).2 = .ended o := by
  cases call with
  | listing l =>
    obtain ⟨g', d, hresume⟩ := Listing.resume_of_reply? hreply
    exact ⟨_, Call.resume_listing_of_ended hresume⟩
  | dispatch d =>
    obtain ⟨g', hresume⟩ := Dispatch.resume_of_reply? hreply
    exact ⟨_, Call.resume_dispatch_of_ended hresume⟩
  | resolution | roundTrip | rest => cases hreply

theorem lookups_of_reply?_none (hreply : call.reply? g = none) : call.lookups g = [] := by
  cases call with
  | dispatch d =>
    have hlookup : d.lookup? g = none := by
      rw [Dispatch.lookup?, show d.reply? g = none from hreply]
      rfl
    simp only [Call.lookups, hlookup, Option.toList_none]
  | resolution | listing | roundTrip | rest => rfl

/-- A call that takes a reply of a wrong kind ends its operation without any lookup. -/
theorem misfit_of_reply? (h : op.Tracks resolved sent call) (hk : op.kind? = some k)
    (hreply : call.reply? g = some (.ok r)) (hr : r.Misfits k) :
    (∃ o, (call.resume g).2 = .ended o ∧ o.map op.finding = op.misfit) ∧
      call.lookups g = [] := by
  cases call with
  | listing l =>
    obtain ⟨t, hop⟩ : ∃ t, op.listsOver? = some t := by
      cases l with
      | resolving r => exact ⟨_, h.1⟩
      | asking d trip => exact ⟨_, h.choose_spec.1⟩
    obtain ⟨hkind, hmisfit⟩ : op.kind? = some .listConnections ∧
        op.misfit = .error (.incomplete "connection list") := by
      cases op with
      | list | find => exact ⟨rfl, rfl⟩
      | ensure | owningSession | work => cases hop
    rw [hkind] at hk
    rw [← Option.some.inj hk] at hr
    obtain ⟨g', d, hresume⟩ := Listing.resume_of_reply? hreply
    rw [Listing.conclude_of_misfits d hr] at hresume
    refine ⟨⟨_, Call.resume_listing_of_ended hresume, ?_⟩, rfl⟩
    rw [hmisfit]
    rfl
  | dispatch d =>
    obtain ⟨rfl, -⟩ := h
    rw [← Option.some.inj hk] at hr
    obtain ⟨g', hresume⟩ := Dispatch.resume_of_reply? hreply
    rw [Dispatch.conclude_of_misfits hr] at hresume
    refine ⟨⟨_, Call.resume_dispatch_of_ended hresume, ?_⟩, ?_⟩
    · cases d.work <;> rfl
    · have hlookup : d.lookup? g = none := by
        rw [Dispatch.lookup?, show d.reply? g = some (.ok r) from hreply]
        exact Work.asked?_of_misfits hr
      simp only [Call.lookups, hlookup, Option.toList_none]
  | resolution | roundTrip | rest => cases hreply

end Operation

/-! ## The invariant -/

namespace Service

/-- What has come of an operation by the reply to it, if there is one. -/
structure Heeds (s : Service) (n : Nat) : Prop where
  /-- Whoever has taken its reply is no longer under way. -/
  gone : s.replied n ≠ none → s.live n = none
  /-- Nobody looks a window up before it has a reply. -/
  silent : s.replied n = none → s.lookups n = []
  misfits : ∀ op r k, s.operations[n]? = some op → op.kind? = some k →
    s.replied n = some (.ok r) → r.Misfits k → s.ended n = some op.misfit ∧ s.lookups n = []

/-- What a service has heard from hosts, and what has come of it. -/
structure Heard (s : Service) : Prop where
  heeds : ∀ n, s.Heeds n
  fresh : ∀ n, s.operations.length ≤ n → s.replied n = none

variable {g : Gateway} {s s' : Service} {n : Nat} {op : Operation} {call : Call}

/-- Nothing has come of an operation without a reply. -/
theorem heeds_of_unheard (hreplied : s.replied n = none) (hlookups : s.lookups n = []) :
    s.Heeds n where
  gone := fun h => absurd hreplied h
  silent := fun _ => hlookups
  misfits := by
    intro op r k _ _ hreply
    cases hreplied.symm.trans hreply

/-- Nothing happens to an operation of which all records stay as they are. -/
theorem Heeds.keep (h : s.Heeds n) (hoperations : s'.operations[n]? = s.operations[n]?)
    (hlive : s'.live n = s.live n) (hreplied : s'.replied n = s.replied n)
    (hlookups : s'.lookups n = s.lookups n) (hended : s'.ended n = s.ended n) : s'.Heeds n := by
  constructor
  · rw [hreplied, hlive]
    exact h.gone
  · rw [hreplied, hlookups]
    exact h.silent
  · rw [hoperations, hreplied, hended, hlookups]
    exact h.misfits

/-! ## Occurrences keep the invariant -/

theorem heard_opening (g : Gateway) : (opening g).Heard where
  heeds := fun _ => heeds_of_unheard rfl rfl
  fresh := fun _ _ => rfl

/-- An operation that begins has no reply. -/
theorem heard_enroll (hs : s.Heard) (op : Operation) : (s.enroll op).Heard where
  heeds := by
    intro m
    by_cases hm : m = s.operations.length
    · have hnone : s.replied m = none := hs.fresh m hm.ge
      exact heeds_of_unheard hnone ((hs.heeds m).silent hnone)
    · have hturn := turnOf_enroll s op
      exact (hs.heeds m).keep (hturn.operations m hm) (hturn.live m hm) rfl rfl (hturn.ended m hm)
  fresh := by
    intro m hm
    exact hs.fresh m ((turnOf_enroll s op).longer.trans hm)

section Advance

variable (hop : s.operations[n]? = some op) (hcall : s.live n = some call)
include hop hcall

theorem replied_advance (hnone : s.replied n = none) :
    (s.advance n).replied n = call.reply? s.gateway := by
  rw [advance_eq hop hcall]
  simp only [setAt_same, hnone, Option.or_none]

theorem lookups_advance (hsilent : s.lookups n = []) :
    (s.advance n).lookups n = call.lookups s.gateway := by
  rw [advance_eq hop hcall]
  simp only [setAt_same, hsilent, List.nil_append]

theorem heard_of_others_advance {m : Nat} (hm : m ≠ n) :
    (s.advance n).replied m = s.replied m ∧ (s.advance n).lookups m = s.lookups m := by
  rw [advance_eq hop hcall]
  exact ⟨setAt_of_ne _ _ hm, setAt_of_ne _ _ hm⟩

/-- An operation that goes on ends if it takes its reply, and as a misfit if that is one. -/
theorem heeds_advance (hs : s.Heeds n) (hsound : s.Sound n op) : (s.advance n).Heeds n := by
  have hnone : s.replied n = none := by
    by_contra hn
    rw [hs.gone hn] at hcall
    cases hcall
  have hreplied := replied_advance hop hcall hnone
  have hlookups := lookups_advance hop hcall (hs.silent hnone)
  constructor
  · intro hn
    rw [hreplied] at hn
    obtain ⟨reply, hreply⟩ := Option.ne_none_iff_exists'.mp hn
    obtain ⟨o, ho⟩ := Operation.ended_of_reply? hreply
    rw [live_advance hop hcall, ho]
    rfl
  · intro hn
    rw [hreplied] at hn
    rw [hlookups]
    exact Operation.lookups_of_reply?_none hn
  · intro op' r k hop' hk hreply hr
    obtain rfl : op = op' := by simpa [advance_eq hop hcall, hop] using hop'
    rw [hreplied] at hreply
    obtain ⟨⟨o, ho, hmisfit⟩, hsilent⟩ :=
      Operation.misfit_of_reply? (hsound.tracks call hcall) hk hreply hr
    rw [ended_advance hop hcall, hlookups, ho]
    exact ⟨congrArg some hmisfit, hsilent⟩

end Advance

theorem heard_advance (hs : s.Heard) (hkept : s.Kept g) (n : Nat) : (s.advance n).Heard := by
  cases hcall : s.live n with
  | none => rwa [advance_of_none hcall]
  | some call =>
    obtain ⟨op, hop⟩ := hkept.exists_of_live hcall
    have hturn := turnOf_advance hop hcall
    constructor
    · intro m
      by_cases hm : m = n
      · subst hm
        exact heeds_advance hop hcall (hs.heeds m) (hkept.sound m op hop)
      · obtain ⟨hreplied, hlookups⟩ := heard_of_others_advance hop hcall hm
        exact (hs.heeds m).keep (hturn.operations m hm) (hturn.live m hm) hreplied hlookups
          (hturn.ended m hm)
    · intro m hm
      have hne : m ≠ n := by
        have hbegun := hturn.begun
        omega
      rw [(heard_of_others_advance hop hcall hne).1]
      exact hs.fresh m (hturn.longer.trans hm)

theorem heard_abandon (hs : s.Heard) (n : Nat) : (s.step (.abandon n)).Heard := by
  cases hcall : s.live n with
  | none => simpa only [step, hcall] using hs
  | some call =>
    simp only [step, hcall]
    refine ⟨?_, hs.fresh⟩
    intro m
    by_cases hm : m = n
    · subst hm
      exact ⟨fun _ => setAt_same _ _ _, (hs.heeds m).silent, (hs.heeds m).misfits⟩
    · exact (hs.heeds m).keep rfl (setAt_of_ne _ _ hm) rfl rfl rfl

theorem heard_step (hs : s.Heard) (hkept : s.Kept g) (o : Occurrence) : (s.step o).Heard := by
  cases o with
  | begin op => exact heard_advance (heard_enroll hs op) (kept_enroll hkept op) _
  | resume n => exact heard_advance hs hkept n
  | abandon n => exact heard_abandon hs n
  | register | reset | elapse | retune =>
    exact ⟨fun m => (hs.heeds m).keep rfl rfl rfl rfl rfl, hs.fresh⟩

theorem heard_run (hs : s.Heard) (hkept : s.Kept g) (os : List Occurrence) : (s.run os).Heard := by
  induction os generalizing s with
  | nil => exact hs
  | cons o os ih => exact ih (heard_step hs hkept o) (kept_step hkept o)

/-! ## Malformed successes -/

/-- A misfit is malformed unless it is about visibility. -/
theorem misfit_malformed_iff {k : Kind} (hk : op.kind? = some k) :
    (∃ expected, op.misfit = .error (.incomplete expected)) ↔ k ≠ .setWindowVisible := by
  cases op with
  | ensure | owningSession => cases hk
  | list | find =>
    rw [← Option.some.inj hk]
    exact ⟨fun _ => by decide, fun _ => ⟨_, rfl⟩⟩
  | work c w =>
    rw [← Option.some.inj hk]
    cases w with
    | command | window => exact ⟨fun _ => by simp [Work.request, Request.kind], fun _ => ⟨_, rfl⟩⟩
    | visibility =>
      refine ⟨?_, fun h => absurd rfl h⟩
      rintro ⟨expected, h⟩
      cases h

theorem misfit_of_visibility (hk : op.kind? = some .setWindowVisible) :
    op.misfit = .ok (.yielded (.achievement .visibilitySet)) := by
  cases op with
  | work c w =>
    cases w with
    | visibility => rfl
    | command | window => simp [Operation.kind?, Work.request, Request.kind] at hk
  | ensure | list | find | owningSession => simp [Operation.kind?] at hk

/-- **A success of a wrong kind is malformed** for every operation but a change of visibility, which
takes it for its own: whatever else goes on in a service, an operation that is answered with success
and the payload of another kind looks no window up, and it ends as malformed exactly if it does not
show or hide a window. If it does, it ends as if the window had been shown or hidden. -/
theorem malformed_iff_ne_visibility (g : Gateway) (os : List Occurrence) {n : Nat} {op : Operation}
    {k : Kind} {r : Response} (hop : ((opening g).run os).operations[n]? = some op)
    (hk : op.kind? = some k) (hreply : ((opening g).run os).replied n = some (.ok r))
    (hr : r.Misfits k) :
    ((opening g).run os).lookups n = [] ∧
      ((∃ expected, ((opening g).run os).ended n = some (.error (.incomplete expected))) ↔
        k ≠ .setWindowVisible) ∧
      (k = .setWindowVisible → ((opening g).run os).ended n
        = some (.ok (.yielded (.achievement .visibilitySet)))) := by
  have hheard := heard_run (heard_opening g) (kept_opening g) os
  obtain ⟨hended, hlookups⟩ := (hheard.heeds n).misfits op r k hop hk hreply hr
  refine ⟨hlookups, ?_, ?_⟩
  · rw [hended, ← misfit_malformed_iff hk]
    simp only [Option.some.injEq]
  · rintro rfl
    rw [hended, misfit_of_visibility hk]

/-! ## A host that answers astray -/

/-- A host that reports a new window whatever it is asked, and a slot with a delegate. -/
def astray : Gateway :=
  { Gateway.start with
    hosts := fun _ => .fresh (.replying (.success (.createWindow ⟨"7"⟩))) (some 0)
    slots := fun _ => ⟨none, some default, .free⟩ }

/-- A window is to be hidden. -/
def hideWindow : Operation := .work default (.visibility ⟨"@1"⟩ false)

/-- A listing that is told of a new window ends as malformed. -/
theorem malformed_of_listing_astray :
    ((opening astray).run [.begin (.list 0 default none)]).replied 0
        = some (.ok (.success (.createWindow ⟨"7"⟩))) ∧
      ∃ expected, ((opening astray).run [.begin (.list 0 default none)]).ended 0
        = some (.error (.incomplete expected)) :=
  ⟨rfl, ((malformed_iff_ne_visibility astray [.begin (.list 0 default none)] rfl rfl rfl
    ⟨rfl, _, rfl, by decide⟩).2.1).mpr (by decide)⟩

/-- A window counts as hidden because another one was opened. -/
theorem hidden_of_reply_astray :
    ((opening astray).run [.begin hideWindow]).replied 0
        = some (.ok (.success (.createWindow ⟨"7"⟩))) ∧
      Payload.kind (.createWindow ⟨"7"⟩) ≠ .setWindowVisible ∧
      ((opening astray).run [.begin hideWindow]).ended 0
        = some (.ok (.yielded (.achievement .visibilitySet))) :=
  ⟨rfl, by decide, rfl⟩

end Service

end MuxBridge
