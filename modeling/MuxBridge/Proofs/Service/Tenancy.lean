/-
# Delegates stay where they are installed

Operations may share their slots in any way, and may go on, expire or be dropped at any time. Who
runs the factory of a slot has the turn until the run is over, and the slot has no delegate as long;
so nobody else installs one meanwhile, and a delegate that is installed stays until the slot is
emptied.

* `Gateway.Spares`: a stretch of a call takes no turn away from anybody else;
* `Resolution.handles_resume`: what a call for a delegate does to the slots as it goes on;
* `Service.lodged_run`: whoever runs a factory has the turn, whatever happens;
* `Service.shares_run`: operations that get a delegate from a slot which is not emptied get the one
  that is installed in the end.
-/
import MuxBridge.Proofs.Service.Accounts

namespace MuxBridge

/-! ## What stretches leave alone -/

/-- Between two gateways everybody but one caller has kept the turn of a slot without a delegate,
and the slot has got none. -/
def Gateway.Spares (but : Nat) (g g' : Gateway) : Prop :=
  ∀ i c, c ≠ but → (g.slots i).turn.holder = some c → (g.slots i).delegate = none →
    (g'.slots i).turn.holder = some c ∧ (g'.slots i).delegate = none

/-- Between two gateways a slot has kept its delegate, if it had one. -/
def Gateway.Keeps (i : Nat) (g g' : Gateway) : Prop :=
  ∀ d, (g.slots i).delegate = some d → (g'.slots i).delegate = some d

namespace Gateway

variable {a i : Nat} {g g' g'' : Gateway} {f : Slot → Slot}

theorem Spares.trans (h : g.Spares a g') (h' : g'.Spares a g'') : g.Spares a g'' := by
  intro i c hc hholder hnone
  obtain ⟨hholder, hnone⟩ := h i c hc hholder hnone
  exact h' i c hc hholder hnone

theorem Keeps.trans (h : g.Keeps i g') (h' : g'.Keeps i g'') : g.Keeps i g'' :=
  fun d hd => h' d (h d hd)

theorem spares_of_slots_eq (h : g'.slots = g.slots) : g.Spares a g' := by
  intro i c _ hholder hnone
  rw [h]
  exact ⟨hholder, hnone⟩

theorem keeps_of_slots_eq (h : g'.slots = g.slots) : g.Keeps i g' := by
  intro d hd
  rw [h]
  exact hd

/-- It is enough to look at the slot that is changed. -/
theorem spares_changeSlot (h : ∀ c, c ≠ a → (g.slots i).turn.holder = some c →
    (g.slots i).delegate = none →
    (f (g.slots i)).turn.holder = some c ∧ (f (g.slots i)).delegate = none) :
    g.Spares a (g.changeSlot i f) := by
  intro j c hc hholder hnone
  by_cases hj : j = i
  · subst hj
    rw [slots_changeSlot]
    exact h c hc hholder hnone
  · simp only [changeSlot, setAt_of_ne _ _ hj]
    exact ⟨hholder, hnone⟩

theorem keeps_changeSlot {j : Nat} (h : j = i → ∀ d, (g.slots i).delegate = some d →
    (f (g.slots i)).delegate = some d) : g.Keeps j (g.changeSlot i f) := by
  intro d hd
  by_cases hj : j = i
  · subst hj
    rw [slots_changeSlot]
    exact h rfl d hd
  · simpa only [changeSlot, setAt_of_ne _ _ hj] using hd

theorem spares_register (g : Gateway) (i : Nat) (f : Factory) : g.Spares a (g.register i f).1 := by
  unfold register
  split
  · next s hs =>
    refine spares_changeSlot (f := fun _ => s) ?_
    intro c _ hholder hnone
    unfold Slot.register at hs
    split at hs
    · cases hs
    · rw [← Except.ok.inj hs]
      exact ⟨hholder, hnone⟩
  · exact spares_of_slots_eq rfl

theorem keeps_register (g : Gateway) (j : Nat) (f : Factory) : g.Keeps i (g.register j f).1 := by
  unfold register
  split
  · next s hs =>
    refine keeps_changeSlot (f := fun _ => s) ?_
    intro _ d hd
    unfold Slot.register at hs
    split at hs
    · cases hs
    · rw [← Except.ok.inj hs]
      exact hd
  · exact keeps_of_slots_eq rfl

theorem spares_reset (g : Gateway) (i : Nat) : g.Spares a (g.reset i) :=
  spares_changeSlot fun _ _ hholder _ => ⟨hholder, rfl⟩

end Gateway

/-! ## Calls for a delegate -/

namespace Resolution

variable {g g' : Gateway} {span : Span} {r : Resolution} {f : Factory} {run : FactoryRun}

/-- A call that runs the factory has the turn of its slot, and the slot has no delegate. -/
def Lodges (g : Gateway) (r : Resolution) : Prop :=
  ∀ run, r.phase = .running run →
    (g.slots r.slot).turn.holder = some r.caller ∧ (g.slots r.slot).delegate = none

theorem Lodges.spared {a : Nat} (h : r.Lodges g) (hg : g.Spares a g') (ha : r.caller ≠ a) :
    r.Lodges g' := by
  intro run hrun
  obtain ⟨hholder, hnone⟩ := h run hrun
  exact hg r.slot r.caller ha hholder hnone

/-- What a call does to the slots as it goes on: it takes no turn from anybody else, no delegate
gets lost, and the one that it gets is installed. -/
structure Handles (g : Gateway) (r : Resolution)
    (p : Gateway × Course Resolution (Outcome Delegate)) : Prop where
  spares : g.Spares r.caller p.1
  keeps : ∀ i, g.Keeps i p.1
  installs : ∀ d, p.2 = .ended (.ok d) → (p.1.slots r.slot).delegate = some d
  waits : ∀ r', p.2 = .waiting r' → r'.slot = r.slot ∧ r'.caller = r.caller ∧ r'.Lodges p.1

/-- What happens before matters only as far as it changes slots. -/
theorem Handles.after {p : Gateway × Course Resolution (Outcome Delegate)}
    (h : r.Handles g' p) (hspares : g.Spares r.caller g') (hkeeps : ∀ i, g.Keeps i g') :
    r.Handles g p :=
  ⟨hspares.trans h.spares, fun i => (hkeeps i).trans (h.keeps i), h.installs, h.waits⟩

theorem Handles.after_of_slots_eq {p : Gateway × Course Resolution (Outcome Delegate)}
    (h : r.Handles g' p) (hslots : g'.slots = g.slots) : r.Handles g p :=
  h.after (Gateway.spares_of_slots_eq hslots) fun _ => Gateway.keeps_of_slots_eq hslots

theorem handles_ended {o : Outcome Delegate} (hspares : g.Spares r.caller g')
    (hkeeps : ∀ i, g.Keeps i g') (h : ∀ d, o = .ok d → (g'.slots r.slot).delegate = some d) :
    r.Handles g (g', .ended o) := by
  refine ⟨hspares, hkeeps, fun d hd => h d (Course.ended.inj hd), ?_⟩
  intro r' hr'
  cases hr'

theorem handles_waiting (phase : Phase) (hspares : g.Spares r.caller g')
    (hkeeps : ∀ i, g.Keeps i g') (h : Lodges g' { r with phase := phase }) :
    r.Handles g (g', .waiting { r with phase := phase }) := by
  refine ⟨hspares, hkeeps, ?_, ?_⟩
  · intro d hd
    cases hd
  · intro r' hr'
    rw [← Course.waiting.inj hr']
    exact ⟨rfl, rfl, h⟩

theorem spares_leave (g : Gateway) (r : Resolution) : g.Spares r.caller (r.leave g) := by
  refine Gateway.spares_changeSlot ?_
  intro c hc hholder hnone
  have hne : (g.slots r.slot).turn.holder ≠ some r.caller := by
    rw [hholder]
    exact fun h => hc (Option.some.inj h)
  exact ⟨(Turn.holder_leave_of_ne hne).trans hholder, hnone⟩

theorem keeps_leave (g : Gateway) (r : Resolution) (i : Nat) : g.Keeps i (r.leave g) :=
  Gateway.keeps_changeSlot fun _ _ hd => hd

theorem holder_of_hasTurn (h : r.hasTurn g = true) :
    (g.slots r.slot).turn.holder = some r.caller := by
  simpa [hasTurn] using h

section Turn

variable (hholder : (g.slots r.slot).turn.holder = some r.caller)
include hholder

/-- The delegate of a run is installed before the turn passes on. -/
theorem handles_concludeRun (span : Span) (hnone : (g.slots r.slot).delegate = none)
    (o : Outcome Blueprint) :
    r.Handles g ((r.concludeRun g span o).1, .ended (r.concludeRun g span o).2) := by
  cases o with
  | error e =>
    refine handles_ended (r.spares_leave g) (r.keeps_leave g) ?_
    intro d hd
    cases hd
  | ok b =>
    have hinstalls : g.Spares r.caller (g.changeSlot r.slot
        (·.install (b.build g.delegates r.transport))) := by
      refine Gateway.spares_changeSlot ?_
      intro c hc hother _
      -- nobody else has the turn, so no one can mind
      exact absurd (Option.some.inj (hother.symm.trans hholder)) hc
    have hkeeps : ∀ i, g.Keeps i (g.changeSlot r.slot
        (·.install (b.build g.delegates r.transport))) := by
      intro i
      refine Gateway.keeps_changeSlot ?_
      intro _ d hd
      rw [hnone] at hd
      cases hd
    refine handles_ended (hinstalls.trans (r.spares_leave _))
      (fun i => (hkeeps i).trans (r.keeps_leave _ i)) ?_
    intro d hd
    rw [← Except.ok.inj hd]
    simp [concludeRun, leave, Gateway.build]

theorem handles_resumeRun (span : Span) (hnone : (g.slots r.slot).delegate = none)
    (run : FactoryRun) :
    r.Handles g (r.resumeRun g span run) := by
  unfold resumeRun
  rcases hrun : run.resume g span r.transport with ⟨g', run' | o⟩
  · have hslots : g'.slots = g.slots := (FactoryRun.traffic_eq hrun).slots
    refine handles_waiting (.running run') (Gateway.spares_of_slots_eq hslots)
      (fun _ => Gateway.keeps_of_slots_eq hslots) ?_
    intro _ _
    rw [hslots]
    exact ⟨hholder, hnone⟩
  · have hslots : g'.slots = g.slots := (FactoryRun.traffic_eq hrun).slots
    have hconclude := handles_concludeRun (g := g') (r := r)
      (by rw [hslots]; exact hholder) span (by rw [hslots]; exact hnone) o
    exact hconclude.after_of_slots_eq hslots

theorem handles_takeTurn (span : Span) (f : Factory) : r.Handles g (r.takeTurn g span f) := by
  cases hd : (g.slots r.slot).delegate with
  | some d =>
    rw [takeTurn_of_some hd]
    refine handles_ended (r.spares_leave g) (r.keeps_leave g) ?_
    intro d' hd'
    rw [← Except.ok.inj hd']
    exact r.keeps_leave g r.slot d hd
  | none =>
    rw [takeTurn_of_none hd]
    have hrun := handles_resumeRun (g := (g.launch span f).1) hholder span hd (g.launch span f).2
    exact hrun.after_of_slots_eq rfl

end Turn

theorem handles_arrive (g : Gateway) (span : Span) (r : Resolution) :
    r.Handles g (r.arrive g span) := by
  have hsame : g.Spares r.caller g ∧ ∀ i, g.Keeps i g :=
    ⟨Gateway.spares_of_slots_eq rfl, fun _ => Gateway.keeps_of_slots_eq rfl⟩
  unfold arrive
  split
  · next hd =>
    refine handles_ended hsame.1 hsame.2 ?_
    intro d' hd'
    rw [← Except.ok.inj hd']
    exact hd
  · refine handles_ended hsame.1 hsame.2 ?_
    intro d hd
    cases hd
  · next f _ _ =>
    -- the call lines up, and goes on at once if nobody is in front of it
    have hspares : g.Spares r.caller (g.changeSlot r.slot (·.enter r.caller)) := by
      refine Gateway.spares_changeSlot ?_
      intro c _ hholder hnone
      rw [Slot.turn_enter, Turn.enter_of_holder_some hholder]
      exact ⟨rfl, hnone⟩
    have hkeeps : ∀ i, g.Keeps i (g.changeSlot r.slot (·.enter r.caller)) :=
      fun _ => Gateway.keeps_changeSlot fun _ _ hd => hd
    dsimp only
    split
    · next hturn => exact (handles_takeTurn (holder_of_hasTurn hturn) span f).after hspares hkeeps
    · refine handles_waiting (.queued f) hspares hkeeps ?_
      intro run hrun
      cases hrun

theorem handles_resumeUnlimited (span : Span) (h : r.Lodges g) :
    r.Handles g (r.resumeUnlimited g span) := by
  cases hp : r.phase with
  | arriving =>
    simp only [resumeUnlimited, hp]
    exact handles_arrive g span r
  | queued f =>
    simp only [resumeUnlimited, hp]
    split
    · next hturn => exact handles_takeTurn (holder_of_hasTurn hturn) span f
    · exact handles_waiting r.phase (Gateway.spares_of_slots_eq rfl)
        (fun _ => Gateway.keeps_of_slots_eq rfl) h
  | running run =>
    simp only [resumeUnlimited, hp]
    obtain ⟨hholder, hnone⟩ := h run hp
    exact handles_resumeRun hholder span hnone run

/-- What a call does to the slots as it goes on, whether it expires or not. -/
theorem handles_resume (span : Span) (h : r.Lodges g) : r.Handles g (r.resume g span) := by
  have hun := handles_resumeUnlimited span h
  unfold resume
  rcases hres : r.resumeUnlimited g span with ⟨g', r' | o⟩
  · rw [hres] at hun
    obtain ⟨-, hcaller, -⟩ := hun.waits r' rfl
    dsimp only
    split
    · exact hun
    · next l _ =>
      -- the deadline has passed: the call gives its place up
      have hspares : g'.Spares r.caller (r'.leave g') := by
        rw [← hcaller]
        exact r'.spares_leave g'
      refine handles_ended (hun.spares.trans hspares)
        (fun i => (hun.keeps i).trans (r'.keeps_leave g' i)) ?_
      intro d hd
      cases hd
  · rw [hres] at hun
    exact hun

/-- A call gets a delegate exactly if it ends with it. -/
theorem resolved?_eq_some {d : Delegate} :
    r.resolved? g span = some d ↔ (r.resume g span).2 = .ended (.ok d) := by
  rcases hres : r.resume g span with ⟨g', r' | e | d'⟩
  · simp [resolved?_of_waiting hres]
  · simp [resolved?_of_error hres]
  · simp [resolved?_of_ok hres]

end Resolution

/-! ## Calls -/

theorem Course.state?_eq_some {σ α : Type} {c : Course σ α} {s : σ} :
    c.state? = some s ↔ c = .waiting s := by
  cases c <;> simp [state?]

/-- A call that waits as a part of another one. -/
theorem waiting_of_map {σ τ α β : Type} {c : Course σ α} {f : σ → τ} {k : α → β} {t : τ}
    (h : c.map f k = .waiting t) : ∃ s, c = .waiting s ∧ f s = t := by
  cases c with
  | waiting s => exact ⟨s, rfl, Course.waiting.inj h⟩
  | ended a => cases h

/-- The call for a delegate that a call is in. -/
def Call.resolution? : Call → Option Resolution
  | .resolution r | .listing (.resolving r) => some r
  | _ => none

namespace Listing

theorem slots_conclude (g : Gateway) (d : Delegate) (reply : Outcome Response) :
    (conclude g d reply).1.slots = g.slots := by
  unfold conclude
  split
  · rfl
  · split <;> rfl

theorem slots_resumeTrip (g : Gateway) (d : Delegate) (trip : RoundTrip) :
    (resumeTrip g d trip).1.slots = g.slots := by
  have htrip := (trip.traffic_resume g .listing).slots
  unfold resumeTrip
  split
  · next h =>
    rw [h] at htrip
    exact htrip
  · next h =>
    rw [h] at htrip
    exact (slots_conclude _ d _).trans htrip

theorem asking_of_resumeTrip {g : Gateway} {d : Delegate} {trip : RoundTrip} {l : Listing}
    (h : (resumeTrip g d trip).2 = .waiting l) : ∃ trip', l = .asking d trip' := by
  unfold resumeTrip at h
  split at h
  · exact ⟨_, (Course.waiting.inj h).symm⟩
  · cases h

end Listing

namespace Dispatch

theorem slots_conclude (g : Gateway) (d : Dispatch) (reply : Outcome Response) :
    (d.conclude g reply).1.slots = g.slots := by
  unfold conclude
  split
  · rfl
  · split
    · rfl
    · unfold judge openedIn
      dsimp only
      split
      · rfl
      · rfl
      · rfl
      · split <;> rfl
      · rfl
      · rfl

theorem slots_resume (g : Gateway) (d : Dispatch) : (d.resume g).1.slots = g.slots := by
  have htrip := (d.trip.traffic_resume g d.span).slots
  unfold resume
  split
  · next h =>
    rw [h] at htrip
    exact htrip
  · next h =>
    rw [h] at htrip
    exact (d.slots_conclude _ _).trans htrip

end Dispatch

namespace Call

variable {g : Gateway} {call : Call} {r : Resolution}

/-- What a call does to the slots as it goes on, when it is in one for a delegate. -/
structure Handles (g : Gateway) (call : Call) (r : Resolution) : Prop where
  spares : g.Spares r.caller (call.resume g).1
  keeps : ∀ i, g.Keeps i (call.resume g).1
  installs : ∀ d, call.resolved? g = some d → ((call.resume g).1.slots r.slot).delegate = some d
  waits : ∀ call' r', (call.resume g).2 = .waiting call' → call'.resolution? = some r' →
    r'.slot = r.slot ∧ r'.caller = r.caller ∧ r'.Lodges (call.resume g).1

/-- A call that gets a delegate goes on without touching the slots any more. -/
theorem handles_of_slots_eq {p : Gateway × Course Resolution (Outcome Delegate)}
    (h : r.Handles g p) (hslots : (call.resume g).1.slots = p.1.slots)
    (hresolved : ∀ d, call.resolved? g = some d → p.2 = .ended (.ok d))
    (hwaits : ∀ call' r', (call.resume g).2 = .waiting call' → call'.resolution? = some r' →
      p.2 = .waiting r') : call.Handles g r where
  spares := h.spares.trans (Gateway.spares_of_slots_eq hslots)
  keeps := fun i => (h.keeps i).trans (Gateway.keeps_of_slots_eq hslots)
  installs := by
    intro d hd
    rw [hslots]
    exact h.installs d (hresolved d hd)
  waits := by
    intro call' r' hcall' hr'
    obtain ⟨hslot, hcaller, hlodges⟩ := h.waits r' (hwaits call' r' hcall' hr')
    refine ⟨hslot, hcaller, ?_⟩
    intro run hrun
    rw [hslots]
    exact hlodges run hrun

/-- A call that is in one for a delegate does to the slots what that one does. -/
theorem handles_resume (hr : call.resolution? = some r) (h : r.Lodges g) : call.Handles g r := by
  cases call with
  | resolution r₀ =>
    obtain rfl : r₀ = r := Option.some.inj hr
    refine handles_of_slots_eq (Resolution.handles_resume .none h) rfl
      (fun d hd => Resolution.resolved?_eq_some.mp hd) ?_
    intro call' r' hcall' hr'
    obtain ⟨r'', hres, rfl⟩ := waiting_of_map (c := (r₀.resume g .none).2) hcall'
    rw [hres, Option.some.inj hr']
  | listing l =>
    cases l with
    | resolving r₀ =>
      obtain rfl : r₀ = r := Option.some.inj hr
      refine handles_of_slots_eq (Resolution.handles_resume .listing h) ?_
        (fun d hd => Resolution.resolved?_eq_some.mp hd) ?_
      · rcases hres : r₀.resume g .listing with ⟨g', r' | e | d⟩
        · simp only [resume, Listing.resume_of_waiting hres]
        · simp only [resume, Listing.resume_of_error hres]
        · -- the host is asked, which touches no slot
          simp only [resume, Listing.resume_of_ok hres]
          exact Listing.slots_resumeTrip _ d _
      · intro call' r' hcall' hr'
        obtain ⟨l, hl, rfl⟩ := waiting_of_map (c := ((Listing.resolving r₀).resume g).2) hcall'
        rcases hres : r₀.resume g .listing with ⟨g', r'' | e | d⟩
        · rw [Listing.resume_of_waiting hres] at hl
          rw [← Course.waiting.inj hl] at hr'
          rw [Option.some.inj hr']
        · rw [Listing.resume_of_error hres] at hl
          cases hl
        · rw [Listing.resume_of_ok hres] at hl
          obtain ⟨trip, rfl⟩ := Listing.asking_of_resumeTrip hl
          cases hr'
    | asking => cases hr
  | dispatch | roundTrip | rest => cases hr

/-- A call that is in none for a delegate does nothing to the slots, and gets into none. -/
theorem resume_of_resolution?_none (hr : call.resolution? = none) :
    (call.resume g).1.slots = g.slots ∧ call.resolved? g = none ∧
      ∀ call', (call.resume g).2 = .waiting call' → call'.resolution? = none := by
  cases call with
  | resolution r => cases hr
  | listing l =>
    cases l with
    | resolving r => cases hr
    | asking d trip =>
      refine ⟨Listing.slots_resumeTrip g d trip, rfl, ?_⟩
      intro call' hcall'
      obtain ⟨l, hl, rfl⟩ := waiting_of_map (c := (Listing.resumeTrip g d trip).2) hcall'
      obtain ⟨trip', rfl⟩ := Listing.asking_of_resumeTrip hl
      rfl
  | dispatch d =>
    refine ⟨d.slots_resume g, rfl, ?_⟩
    intro call' hcall'
    obtain ⟨d', -, rfl⟩ := waiting_of_map (c := (d.resume g).2) hcall'
    rfl
  | roundTrip trip =>
    refine ⟨(trip.traffic_resume g .none).slots, rfl, ?_⟩
    intro call' hcall'
    obtain ⟨trip', -, rfl⟩ := waiting_of_map (c := (trip.resume g .none).2) hcall'
    rfl
  | rest time =>
    refine ⟨rfl, rfl, ?_⟩
    intro call' hcall'
    simp only [resume] at hcall'
    split at hcall'
    · cases hcall'
    · rw [← Course.waiting.inj hcall']
      rfl

/-- Dropping a call takes no turn from anybody else, and no delegate gets lost. -/
theorem spares_abandon (g : Gateway) (call : Call) {n : Nat}
    (h : ∀ r, call.resolution? = some r → r.caller = n) :
    g.Spares n (call.abandon g) ∧ ∀ i, g.Keeps i (call.abandon g) := by
  cases hr : call.resolution? with
  | none =>
    have hsame : call.abandon g = g := by
      cases call with
      | resolution r => cases hr
      | listing l =>
        cases l with
        | resolving r => cases hr
        | asking => rfl
      | dispatch | roundTrip | rest => rfl
    rw [hsame]
    exact ⟨Gateway.spares_of_slots_eq rfl, fun _ => Gateway.keeps_of_slots_eq rfl⟩
  | some r =>
    have hleave : call.abandon g = r.leave g := by
      cases call with
      | resolution r₀ => rw [← Option.some.inj hr]; rfl
      | listing l =>
        cases l with
        | resolving r₀ => rw [← Option.some.inj hr]; rfl
        | asking => cases hr
      | dispatch | roundTrip | rest => cases hr
    rw [hleave, ← h r hr]
    exact ⟨r.spares_leave g, r.keeps_leave g⟩

end Call

/-! ## Services -/

/-- The slot from which an operation gets a delegate. -/
def Operation.slot? : Operation → Option Nat
  | .ensure i _ _ | .list i _ _ | .find i _ _ _ => some i
  | .owningSession _ | .work .. => none

namespace Service

/-- Everybody in a call for a delegate goes by the number of the operation, at its slot, and has the
turn of the slot while running its factory. -/
def Lodged (s : Service) : Prop :=
  ∀ n call r, s.live n = some call → call.resolution? = some r →
    (s.operations[n]?.bind Operation.slot? = some r.slot) ∧ r.caller = n ∧ r.Lodges s.gateway

variable {g : Gateway} {s s' : Service} {n i : Nat} {op : Operation} {call : Call}

theorem lodged_opening (g : Gateway) : (opening g).Lodged := by
  intro n call r hcall
  cases hcall

/-- It is enough to look at the operation whose turn it was. -/
theorem Lodged.kept (h : s.Lodged) (hspares : s.gateway.Spares n s'.gateway)
    (hoperations : ∀ m, m ≠ n → s'.operations[m]? = s.operations[m]?)
    (hlive : ∀ m, m ≠ n → s'.live m = s.live m)
    (hn : ∀ call r, s'.live n = some call → call.resolution? = some r →
      (s'.operations[n]?.bind Operation.slot? = some r.slot) ∧ r.caller = n ∧
        r.Lodges s'.gateway) : s'.Lodged := by
  intro m call r hcall hr
  by_cases hm : m = n
  · subst hm
    exact hn call r hcall hr
  · rw [hlive m hm] at hcall
    obtain ⟨hslot, hcaller, hlodges⟩ := h m call r hcall hr
    refine ⟨?_, hcaller, hlodges.spared hspares (by rw [hcaller]; exact hm)⟩
    rw [hoperations m hm]
    exact hslot

/-- Nobody minds what takes no turn away from anybody. -/
theorem Lodged.withGateway (h : s.Lodged) (hspares : ∀ a, s.gateway.Spares a g) :
    { s with gateway := g }.Lodged := by
  intro m call r hcall hr
  obtain ⟨hslot, hcaller, hlodges⟩ := h m call r hcall hr
  exact ⟨hslot, hcaller, hlodges.spared (hspares (r.caller + 1)) (Nat.succ_ne_self _).symm⟩

theorem lodged_enroll (h : s.Lodged) (op : Operation) : (s.enroll op).Lodged := by
  have hturn := turnOf_enroll s op
  have hslots : (s.enroll op).gateway.slots = s.gateway.slots := by
    cases op <;> rfl
  refine h.kept (Gateway.spares_of_slots_eq hslots) hturn.operations hturn.live ?_
  intro call r hcall hr
  rw [live_enroll] at hcall
  have hop : (s.enroll op).operations[s.operations.length]? = some op := by simp [enroll]
  rw [hop]
  cases op with
  | ensure j t timeout | list j t timeout | find j t timeout =>
    rw [← Option.some.inj hcall] at hr
    rw [← Option.some.inj hr]
    refine ⟨rfl, rfl, ?_⟩
    intro run hrun
    cases hrun
  | owningSession => cases hcall
  | work =>
    rw [← Option.some.inj hcall] at hr
    cases hr

/-- What an operation does to the slots as it goes on. -/
structure Visits (n : Nat) (s s' : Service) : Prop where
  lodged : s'.Lodged
  spares : s.gateway.Spares n s'.gateway
  keeps : ∀ i, s.gateway.Keeps i s'.gateway
  others : ∀ m, m ≠ n → s'.resolved m = s.resolved m
  installs : ∀ d, s'.resolved n = some d → s.resolved n = some d ∨
    ∃ i, s'.operations[n]?.bind Operation.slot? = some i ∧
      (s'.gateway.slots i).delegate = some d

theorem visits_advance (h : s.Lodged) (hop : s.operations[n]? = some op)
    (hcall : s.live n = some call) : Visits n s (s.advance n) := by
  have hturn := turnOf_advance hop hcall
  have hgateway : (s.advance n).gateway = (call.resume s.gateway).1 := by
    rw [advance_eq hop hcall]
  have hoperations : (s.advance n).operations = s.operations := by
    rw [advance_eq hop hcall]
  have hresolved := resolved_advance hop hcall
  have hwaiting : ∀ call', (s.advance n).live n = some call' →
      (call.resume s.gateway).2 = .waiting call' := by
    intro call' hcall'
    rw [live_advance hop hcall] at hcall'
    exact Course.state?_eq_some.mp hcall'
  cases hr : call.resolution? with
  | none =>
    obtain ⟨hslots, hnone, hwaits⟩ := Call.resume_of_resolution?_none (g := s.gateway) hr
    have hspares : s.gateway.Spares n (s.advance n).gateway := by
      rw [hgateway]
      exact Gateway.spares_of_slots_eq hslots
    refine ⟨?_, hspares, ?_, hturn.resolved, ?_⟩
    · refine h.kept hspares hturn.operations hturn.live ?_
      intro call' r' hcall' hr'
      rw [hwaits call' (hwaiting call' hcall')] at hr'
      cases hr'
    · rw [hgateway]
      exact fun i => Gateway.keeps_of_slots_eq hslots
    · intro d hd
      rw [hresolved, hnone] at hd
      exact .inl hd
  | some r =>
    obtain ⟨hslot, hcaller, hlodges⟩ := h n call r hcall hr
    have hhandles := Call.handles_resume hr hlodges
    have hspares : s.gateway.Spares n (s.advance n).gateway := by
      rw [hgateway, ← hcaller]
      exact hhandles.spares
    refine ⟨?_, hspares, ?_, hturn.resolved, ?_⟩
    · refine h.kept hspares hturn.operations hturn.live ?_
      intro call' r' hcall' hr'
      obtain ⟨hslot', hcaller', hlodges'⟩ := hhandles.waits call' r' (hwaiting call' hcall') hr'
      rw [hoperations, hgateway, hslot', hcaller']
      exact ⟨hslot, hcaller, hlodges'⟩
    · rw [hgateway]
      exact hhandles.keeps
    · intro d hd
      rw [hresolved] at hd
      cases hgot : call.resolved? s.gateway with
      | none =>
        rw [hgot] at hd
        exact .inl hd
      | some d' =>
        rw [hgot] at hd
        refine .inr ⟨r.slot, ?_, ?_⟩
        · rw [hoperations]
          exact hslot
        · rw [hgateway, ← Option.some.inj hd]
          exact hhandles.installs d' hgot

/-! ## Occurrences -/

theorem lodged_advance (h : s.Lodged) (hkept : s.Kept g) (n : Nat) : (s.advance n).Lodged := by
  cases hcall : s.live n with
  | none => rwa [advance_of_none hcall]
  | some call =>
    obtain ⟨op, hop⟩ := hkept.exists_of_live hcall
    exact (visits_advance h hop hcall).lodged

theorem lodged_abandon (h : s.Lodged) (n : Nat) : (s.step (.abandon n)).Lodged := by
  cases hcall : s.live n with
  | none => simpa only [step, hcall] using h
  | some call =>
    simp only [step, hcall]
    obtain ⟨hspares, -⟩ := Call.spares_abandon s.gateway call
      fun r hr => (h n call r hcall hr).2.1
    refine h.kept hspares (fun _ _ => rfl) (fun m hm => setAt_of_ne _ _ hm) ?_
    intro call' r hcall'
    cases (setAt_same s.live n none).symm.trans hcall'

theorem lodged_step (h : s.Lodged) (hkept : s.Kept g) (o : Occurrence) : (s.step o).Lodged := by
  cases o with
  | begin op => exact lodged_advance (lodged_enroll h op) (kept_enroll hkept op) _
  | resume n => exact lodged_advance h hkept n
  | abandon n => exact lodged_abandon h n
  | register i f => exact h.withGateway fun _ => s.gateway.spares_register i f
  | reset i => exact h.withGateway fun _ => s.gateway.spares_reset i
  | elapse | retune => exact h.withGateway fun _ => Gateway.spares_of_slots_eq rfl

/-- Whoever runs a factory has the turn, whatever happens. -/
theorem lodged_run (h : s.Lodged) (hkept : s.Kept g) (os : List Occurrence) :
    (s.run os).Lodged := by
  induction os generalizing s with
  | nil => exact h
  | cons o os ih => exact ih (lodged_step h hkept o) (kept_step hkept o)

/-! ## Delegates that are shared -/

/-- Since an earlier service, who has got a delegate from a slot has got the one that is installed
there now. -/
def Shares (i : Nat) (s s' : Service) : Prop :=
  ∀ n d, s'.operations[n]?.bind Operation.slot? = some i → s.resolved n = none →
    s'.resolved n = some d → (s'.gateway.slots i).delegate = some d

theorem shares_refl (i : Nat) (s : Service) : Shares i s s := by
  intro n d _ hnone hsome
  cases hnone.symm.trans hsome

theorem Shares.keep {s₀ : Service} (h : Shares i s₀ s) (hkeeps : s.gateway.Keeps i s'.gateway)
    (hoperations : s'.operations = s.operations) (hresolved : s'.resolved = s.resolved) :
    Shares i s₀ s' := by
  intro n d hslot hnone hsome
  rw [hoperations] at hslot
  rw [hresolved] at hsome
  exact hkeeps d (h n d hslot hnone hsome)

section Shares

variable {s₀ : Service}

theorem shares_enroll (h : Shares i s₀ s) (hkept : s.Kept g) (op : Operation) :
    Shares i s₀ (s.enroll op) := by
  have hslots : (s.enroll op).gateway.slots = s.gateway.slots := by
    cases op <;> rfl
  intro n d hslot hnone hsome
  have hsome : s.resolved n = some d := hsome
  have hn : n < s.operations.length := by
    by_contra hlonger
    rw [(hkept.fresh n (by omega)).2.1] at hsome
    cases hsome
  rw [(turnOf_enroll s op).operations n (by omega)] at hslot
  rw [hslots]
  exact h n d hslot hnone hsome

theorem shares_advance (h : Shares i s₀ s) (hlodged : s.Lodged) (hkept : s.Kept g) (n : Nat) :
    Shares i s₀ (s.advance n) := by
  cases hcall : s.live n with
  | none => rwa [advance_of_none hcall]
  | some call =>
    obtain ⟨op, hop⟩ := hkept.exists_of_live hcall
    have hvisits := visits_advance hlodged hop hcall
    have hoperations : (s.advance n).operations = s.operations := by
      rw [advance_eq hop hcall]
    intro m d hslot hnone hsome
    have hbefore : s.resolved m = some d → ((s.advance n).gateway.slots i).delegate = some d := by
      intro hsome
      rw [hoperations] at hslot
      exact hvisits.keeps i d (h m d hslot hnone hsome)
    by_cases hm : m = n
    · subst hm
      rcases hvisits.installs d hsome with hsome | ⟨j, hj, hinstalled⟩
      · exact hbefore hsome
      · rw [← Option.some.inj (hj.symm.trans hslot)]
        exact hinstalled
    · rw [hvisits.others m hm] at hsome
      exact hbefore hsome

theorem shares_abandon (h : Shares i s₀ s) (hlodged : s.Lodged) (n : Nat) :
    Shares i s₀ (s.step (.abandon n)) := by
  cases hcall : s.live n with
  | none => simpa only [step, hcall] using h
  | some call =>
    simp only [step, hcall]
    obtain ⟨-, hkeeps⟩ := Call.spares_abandon s.gateway call
      fun r hr => (hlodged n call r hcall hr).2.1
    exact h.keep (hkeeps i) rfl rfl

theorem shares_step (h : Shares i s₀ s) (hlodged : s.Lodged) (hkept : s.Kept g) {o : Occurrence}
    (ho : o ≠ .reset i) : Shares i s₀ (s.step o) := by
  cases o with
  | begin op =>
    exact shares_advance (shares_enroll h hkept op) (lodged_enroll hlodged op)
      (kept_enroll hkept op) _
  | resume n => exact shares_advance h hlodged hkept n
  | abandon n => exact shares_abandon h hlodged n
  | register j f => exact h.keep (s.gateway.keeps_register j f) rfl rfl
  | reset j =>
    refine h.keep (Gateway.keeps_changeSlot ?_) rfl rfl
    rintro rfl
    exact absurd rfl ho
  | elapse | retune => exact h.keep (Gateway.keeps_of_slots_eq rfl) rfl rfl

/-- Operations that get a delegate from a slot which is not emptied get the one that is installed in
the end. -/
theorem shares_run (h : Shares i s₀ s) (hlodged : s.Lodged) (hkept : s.Kept g)
    {os : List Occurrence} (hos : Occurrence.reset i ∉ os) : Shares i s₀ (s.run os) := by
  induction os generalizing s with
  | nil => exact h
  | cons o os ih =>
    rw [List.mem_cons, not_or] at hos
    exact ih (shares_step h hlodged hkept (Ne.symm hos.1)) (lodged_step hlodged hkept o)
      (kept_step hkept o) hos.2

end Shares

end Service

end MuxBridge
