/-
# Calls in their runs

What becomes of a run of the factory once it has begun. A call that goes on is in a run if it was in
one before or launches one; the run then ends with a result, or waits on, or is dropped together
with its call. A dropped run executes nothing any more and leaves no record, so such losses are
counted along the way, at the happenings in which they occur.

* `Resolution.resumeUnlimited_of_inRun`: a call that is in a run does nothing but go on with it;
* `Resolution.resume_of_losesRun`: a call that loses its run is told that its deadline has passed;
* `Resolution.run_balance`: what becomes of the run of a call that goes on;
* `begun_run`: the runs that have begun are those that have ended, those that were dropped, and the
  one under way.
-/
import MuxBridge.Proofs.Crowd.Handover

namespace MuxBridge

namespace Resolution

variable {g g' : Gateway} {span : Span} {r : Resolution} {f : Factory} {run : FactoryRun}

/-! ## Going on with a run -/

/-- Whoever has the turn and finds no delegate launches a run. -/
theorem takeTurn_of_none (hd : (g.slots r.slot).delegate = none) :
    r.takeTurn g span f = r.resumeRun (g.launch span f).1 span (g.launch span f).2 := by
  simp only [takeTurn, hd]
  rfl

/-- Whoever has the turn and finds the delegate passes the turn on. -/
theorem takeTurn_of_some {d : Delegate} (hd : (g.slots r.slot).delegate = some d) :
    r.takeTurn g span f = (r.leave g, .ended (.ok d)) := by
  simp only [takeTurn, hd]

/-- A call that launches a run does nothing else before. -/
theorem resumeUnlimited_of_launching (h : r.launching? g = some (g', f)) :
    g'.hosts = g.hosts ∧ g'.now = g.now ∧
      r.resumeUnlimited g span = r.resumeRun (g'.launch span f).1 span (g'.launch span f).2 := by
  unfold launching? at h
  split at h
  · next hd hp =>
    -- on arrival: nobody is in front
    dsimp only at h
    split at h
    · next hturn =>
      obtain ⟨f', hf, hpair⟩ := Option.map_eq_some_iff.mp h
      obtain ⟨rfl, rfl⟩ := Prod.mk.inj hpair
      have hd' : ((g.changeSlot r.slot (·.enter r.caller)).slots r.slot).delegate = none := by
        simpa using hd
      refine ⟨rfl, rfl, ?_⟩
      simp only [resumeUnlimited, hp, arrive, hd, hf, hturn, if_true]
      exact takeTurn_of_none hd'
    · cases h
  · next hd hp =>
    -- behind others who have gone
    split at h
    · next hturn =>
      obtain ⟨rfl, rfl⟩ := Prod.mk.inj (Option.some.inj h)
      refine ⟨rfl, rfl, ?_⟩
      simp only [resumeUnlimited, hp, hturn, if_true]
      exact takeTurn_of_none hd
    · cases h
  · cases h

/-- A call that is in a run goes on with it. -/
theorem resumeUnlimited_of_inRun (h : r.inRun? g span = some (g', run)) :
    g'.hosts = g.hosts ∧ g'.now = g.now ∧
      r.resumeUnlimited g span = r.resumeRun g' span run := by
  unfold inRun? at h
  split at h
  · next hp =>
    obtain ⟨rfl, rfl⟩ := Prod.mk.inj (Option.some.inj h)
    refine ⟨rfl, rfl, ?_⟩
    simp only [resumeUnlimited, hp]
  · obtain ⟨⟨g₁, f⟩, hlaunching, hlaunch⟩ := Option.map_eq_some_iff.mp h
    obtain ⟨hhosts, hnow, hresume⟩ := resumeUnlimited_of_launching (r := r) (g := g) hlaunching
    have hlaunch : g₁.launch span f = (g', run) := hlaunch
    have hhosts' : (g₁.launch span f).1.hosts = g.hosts := hhosts
    have hnow' : (g₁.launch span f).1.now = g.now := hnow
    rw [hlaunch] at hhosts' hnow' hresume
    exact ⟨hhosts', hnow', hresume⟩

/-- A call that is in no run asks no host, and is in no run afterwards. -/
theorem resumeUnlimited_of_not_inRun (h : r.inRun? g span = none) :
    (r.resumeUnlimited g span).1.hosts = g.hosts ∧ r.isRunning = false ∧
      ∀ r', (r.resumeUnlimited g span).2 = .waiting r' → r'.isRunning = false := by
  cases hp : r.phase with
  | arriving =>
    simp only [inRun?, hp, Option.map_eq_none_iff, launching?] at h
    simp only [resumeUnlimited, hp, arrive, isRunning]
    cases hd : (g.slots r.slot).delegate with
    | some d => simp
    | none =>
      cases hf : (g.slots r.slot).factory with
      | none => simp [Gateway.report]
      | some f =>
        simp only [hd, hf] at h
        split at h
        · cases h
        · next hturn =>
          simp only [hturn]
          refine ⟨rfl, trivial, ?_⟩
          intro r' hr'
          rw [← Course.waiting.inj hr']
  | queued f =>
    simp only [inRun?, hp, Option.map_eq_none_iff, launching?] at h
    simp only [resumeUnlimited, hp, isRunning]
    by_cases hturn : r.hasTurn g = true
    · cases hd : (g.slots r.slot).delegate with
      | some d =>
        rw [if_pos hturn, takeTurn_of_some hd]
        exact ⟨rfl, trivial, fun r' hr' => by cases hr'⟩
      | none => simp [hd, hturn] at h
    · rw [if_neg hturn]
      refine ⟨rfl, trivial, ?_⟩
      intro r' hr'
      rw [← Course.waiting.inj hr', hp]
  | running run => simp [inRun?, hp] at h

/-! ## What becomes of a run -/

/-- Whether a call that goes on loses its run: the run has not ended, and the deadline of the call
has passed. -/
def losesRun (g : Gateway) (span : Span) (r : Resolution) : Bool :=
  (r.inRun? g span).isSome && (r.nextResult? g span).isNone && r.limit.any (Limit.hasPassed g)

end Resolution

/-- Whether a call waits on in a run. -/
def Course.keepsRun {α : Type} : Course Resolution α → Bool
  | .waiting r => r.isRunning
  | .ended _ => false

namespace Resolution

variable {g g' : Gateway} {span : Span} {r r' : Resolution} {run : FactoryRun}

/-- A call that goes on is in a run if it was in one before or launches one, and never both. -/
theorem toNat_isSome_inRun (g : Gateway) (span : Span) (r : Resolution) :
    (r.inRun? g span).isSome.toNat = r.isRunning.toNat + (r.launching? g).isSome.toNat := by
  cases hp : r.phase with
  | arriving => simp [inRun?, isRunning, hp]
  | queued f => simp [inRun?, isRunning, hp]
  | running run => simp [inRun?, isRunning, hp, Crowd.launching?_of_running hp]

/-- A call that is in no run is in none when it waits on. -/
theorem keepsRun_of_not_inRun (h : r.inRun? g span = none) :
    (r.resume g span).2.keepsRun = false := by
  obtain ⟨-, -, hafter⟩ := resumeUnlimited_of_not_inRun h
  unfold resume
  rcases hu : r.resumeUnlimited g span with ⟨g₁, r₁ | o⟩
  · dsimp only
    split
    · exact hafter r₁ (by rw [hu])
    · rfl
  · rfl

/-- A call whose run waits on waits on with it, or is given up when its deadline has passed. -/
theorem resume_of_run_waiting {g₁ : Gateway} {run' : FactoryRun}
    (h : r.inRun? g span = some (g', run))
    (hr : run.resume g' span r.transport = (g₁, .waiting run')) :
    (r.resume g span).2 = match r.limit.filter (Limit.hasPassed g) with
      | none => .waiting { r with phase := .running run' }
      | some l => .ended (.error (.resolutionTimeout l.duration.millis)) := by
  obtain ⟨-, hnow, hresume⟩ := resumeUnlimited_of_inRun h
  have hu : r.resumeUnlimited g span = (g₁, .waiting { r with phase := .running run' }) := by
    simp only [hresume, resumeRun, hr]
  have hpassed : Limit.hasPassed g₁ = Limit.hasPassed g := by
    funext l
    simp only [Limit.hasPassed, (FactoryRun.traffic_eq hr).now, hnow]
  simp only [resume, hu, hpassed]
  cases r.limit.filter (Limit.hasPassed g) <;> rfl

/-- A call whose run ends ends with it, whatever its deadline. -/
theorem resume_of_run_ended {g₁ : Gateway} {o : Outcome Blueprint}
    (h : r.inRun? g span = some (g', run))
    (hr : run.resume g' span r.transport = (g₁, .ended o)) :
    r.resume g span = ((r.concludeRun g₁ span o).1, .ended (r.concludeRun g₁ span o).2) := by
  obtain ⟨-, -, hresume⟩ := resumeUnlimited_of_inRun h
  simp only [resume, hresume, resumeRun, hr]

theorem nextResult?_of_inRun (h : r.inRun? g span = some (g', run)) :
    r.nextResult? g span = (run.resume g' span r.transport).2.result? := by
  simp only [nextResult?, h, Option.bind_some]

/-- A call that loses its run is told that its deadline has passed. -/
theorem resume_of_losesRun (h : r.losesRun g span = true) :
    ∃ l, r.limit = some l ∧
      (r.resume g span).2 = .ended (.error (.resolutionTimeout l.duration.millis)) := by
  simp only [losesRun, Bool.and_eq_true, Option.isNone_iff_eq_none] at h
  obtain ⟨⟨hin, hresult⟩, hlate⟩ := h
  obtain ⟨⟨g', run⟩, hin⟩ := Option.isSome_iff_exists.mp hin
  obtain ⟨l, hl, hpassed⟩ := (Option.any_eq_true _ _).mp hlate
  rw [nextResult?_of_inRun hin] at hresult
  rcases hr : run.resume g' span r.transport with ⟨g₁, run' | o⟩
  · refine ⟨l, hl, ?_⟩
    rw [resume_of_run_waiting hin hr, hl, Option.filter_some_pos hpassed]
  · rw [hr] at hresult
    cases hresult

/-- The run of a call that goes on has a result, or is lost, or is the one in which the call waits
on. -/
theorem fate_of_inRun (h : r.inRun? g span = some (g', run)) :
    (r.nextResult? g span).isSome.toNat + (r.losesRun g span).toNat
      + (r.resume g span).2.keepsRun.toNat = 1 := by
  rcases hr : run.resume g' span r.transport with ⟨g₁, run' | o⟩
  · -- the run waits on, so everything hangs on the deadline
    rw [resume_of_run_waiting h hr]
    simp only [losesRun, h, nextResult?_of_inRun h, hr, Course.result?]
    rcases r.limit with _ | l
    · simp [Course.keepsRun, isRunning]
    · by_cases hlate : l.hasPassed g = true
      · simp [Option.filter, hlate, Course.keepsRun]
      · simp [Option.filter, hlate, Course.keepsRun, isRunning]
  · rw [resume_of_run_ended h hr]
    simp [losesRun, nextResult?_of_inRun h, hr, Course.result?, Course.keepsRun]

/-- **The balance of a call that goes on**: the run that it was in or launches has a result, or is
lost, or is the one in which the call waits on. -/
theorem run_balance (g : Gateway) (span : Span) (r : Resolution) :
    r.isRunning.toNat + (r.launching? g).isSome.toNat
      = (r.nextResult? g span).isSome.toNat + (r.losesRun g span).toNat
        + (r.resume g span).2.keepsRun.toNat := by
  rw [← toNat_isSome_inRun g span r]
  rcases h : r.inRun? g span with _ | ⟨g', run⟩
  · have hresult : r.nextResult? g span = none := by
      simp only [nextResult?, h, Option.bind_none]
    rw [keepsRun_of_not_inRun h, hresult, losesRun, h]
    rfl
  · rw [fate_of_inRun h]
    rfl

end Resolution

namespace Crowd

variable {i : Nat} {h : Happening} {c : Crowd} {front back : List Resolution} {r : Resolution}

/-! ## Runs that are dropped -/

/-- Whether a call loses its run to its own deadline in what happens. -/
def cutsRun (i : Nat) (c : Crowd) : Happening → Bool
  | .call span t timeout => (c.newcomer i t timeout).losesRun c.gateway span
  | .resume span a => (c.splitAt a).2.head?.any (·.losesRun c.gateway span)
  | _ => false

/-- Whether a call is dropped from outside in the middle of its run in what happens. -/
def discardsRun (c : Crowd) : Happening → Bool
  | .abandon a => (c.splitAt a).2.head?.any (·.isRunning)
  | _ => false

/-- How often something is the case in the course of a run of the crowd. -/
def tally (i : Nat) (p : Crowd → Happening → Bool) (c : Crowd) : List Happening → Nat
  | [] => 0
  | h :: hs => (p c h).toNat + tally i p (c.step i h) hs

/-- What is never the case is counted as zero. -/
theorem tally_eq_zero {p : Crowd → Happening → Bool} {hs : List Happening}
    (hp : ∀ h ∈ hs, ∀ c, p c h = false) : tally i p c hs = 0 := by
  induction hs generalizing c with
  | nil => rfl
  | cons h hs ih =>
    rw [tally, hp h List.mem_cons_self, ih fun h' hh => hp h' (List.mem_cons_of_mem _ hh)]
    rfl

/-- How many calls run the factory. -/
def running (c : Crowd) : Nat := c.live.countP (·.isRunning)

theorem running_of_live (hl : c.live = front ++ r :: back) :
    c.running = (front ++ back).countP (·.isRunning) + r.isRunning.toNat := by
  simp only [running, hl, List.countP_append, List.countP_cons]
  cases r.isRunning <;> simp [Nat.add_assoc]

theorem running_settle (c : Crowd) (front back : List Resolution) (a : Nat)
    (x : Gateway × Course Resolution (Outcome Delegate)) :
    (c.settle front back a x).running
      = (front ++ back).countP (·.isRunning) + x.2.keepsRun.toNat := by
  obtain ⟨g, r' | o⟩ := x
  · exact running_of_live rfl
  · rfl

/-- A call that goes on leaves the balance of all runs as it was, but for the run that it loses. -/
theorem begun_advance (c : Crowd) (span : Span) (front : List Resolution) (r : Resolution)
    (back : List Resolution) :
    (c.advance span front r back).begun.length + c.results.length
        + ((front ++ back).countP (·.isRunning) + r.isRunning.toNat)
      = c.begun.length + (c.advance span front r back).results.length
        + (c.advance span front r back).running + (r.losesRun c.gateway span).toNat := by
  have hbegun : (c.advance span front r back).begun.length
      = c.begun.length + (r.launching? c.gateway).isSome.toNat := by
    unfold advance
    rcases r.resume c.gateway span with ⟨g, r' | o⟩ <;>
      cases r.launching? c.gateway <;> simp [note, noteResult]
  have hresults : (c.advance span front r back).results.length
      = c.results.length + (r.nextResult? c.gateway span).isSome.toNat := by
    unfold advance
    rcases r.resume c.gateway span with ⟨g, r' | o⟩ <;>
      cases r.nextResult? c.gateway span <;> simp [note, noteResult]
  have hrunning : (c.advance span front r back).running
      = (front ++ back).countP (·.isRunning) + (r.resume c.gateway span).2.keepsRun.toNat := by
    rw [advance, running_settle]
  have hbalance := r.run_balance c.gateway span
  omega

/-- What happens leaves the balance of all runs as it was, but for those that are dropped. -/
theorem begun_step (i : Nat) (c : Crowd) (h : Happening) :
    (c.step i h).begun.length + c.results.length + c.running
      = c.begun.length + (c.step i h).results.length + (c.step i h).running
        + ((c.cutsRun i h).toNat + (c.discardsRun h).toNat) := by
  cases h with
  | call span t timeout =>
    -- who comes is in no run yet
    have hadvance := begun_advance { c with arrivals := c.arrivals ++ [c.newcomer i t timeout] }
      span c.live (c.newcomer i t timeout) []
    have hidle : (c.newcomer i t timeout).isRunning = false := rfl
    rw [List.append_nil, hidle] at hadvance
    exact hadvance
  | resume span a =>
    simp only [step, cutsRun, discardsRun]
    split
    · next front r back hsplit =>
      obtain ⟨hl, -, -⟩ := splitAt_eq hsplit
      rw [running_of_live hl, hsplit]
      exact begun_advance c span front r back
    · next hsplit => simp [hsplit]
  | abandon a =>
    simp only [step, cutsRun, discardsRun]
    split
    · next front r back hsplit =>
      obtain ⟨hl, -, -⟩ := splitAt_eq hsplit
      rw [running_of_live hl, hsplit]
      simp only [running, List.head?_cons, Option.any_some, Bool.toNat_false]
      omega
    · next hsplit => simp [hsplit]
  | register | reset | elapse | meanwhile => rfl

/-- **The balance of all runs**: those that have begun are those that have ended, those that were
dropped, by the deadline of their call or from outside, and those under way. -/
theorem begun_run (i : Nat) (c : Crowd) (hs : List Happening) :
    (c.run i hs).begun.length + c.results.length + c.running
      = c.begun.length + (c.run i hs).results.length + (c.run i hs).running
        + (tally i (cutsRun i) c hs + tally i discardsRun c hs) := by
  induction hs generalizing c with
  | nil => rfl
  | cons h hs ih =>
    have hstep := begun_step i c h
    have hrest := ih (c.step i h)
    show ((c.step i h).run i hs).begun.length + _ + _
      = _ + ((c.step i h).run i hs).results.length + ((c.step i h).run i hs).running + _
    simp only [tally]
    omega

end Crowd

end MuxBridge
