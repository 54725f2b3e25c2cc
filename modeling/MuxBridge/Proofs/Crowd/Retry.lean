/-
# Retries

What has come of a contention when all calls have ended. Callers who wait patiently at a slot share
the cost of a factory that fails at first: as many of them as there are failures get an error each,
and the rest get one delegate.

* `results_of_attempts`: what a factory that asks no host comes to is what its attempts say;
* `contended_retries`: who gets what, and how often the factory runs.
-/
import MuxBridge.Proofs.Crowd.Contention
import MuxBridge.Proofs.Crowd.Progress

namespace MuxBridge

/-- A run that asks no host ends in its outcome when its time has come. -/
theorem FactoryRun.resume_resting {g : Gateway} {span : Span} {t : Transport} {a : Attempt}
    {time : Nat} (hp : a.probe = false) :
    FactoryRun.resume g span t (.resting a time)
      = if time ≤ g.now then (g, .ended a.outcome) else (g, .waiting (.resting a time)) := by
  simp [resume, hp]

namespace Crowd

variable {i : Nat} {h : Happening} {c c' : Crowd} {front back : List Resolution}
  {r : Resolution} {f : Factory} {errors : List Failure} {bp : Blueprint}

/-! ## Who gets what -/

/-- Callers with these transports, and no others, come to a gateway in this order and wait, each
for as long as it takes. It does not take forever: no run of the factory asks a host that never
answers, unless it does so with a deadline. -/
structure Contention (i : Nat) (g : Gateway) (schedule : Nat → Happening) (ts : List Transport) :
    Prop where
  patient : ∀ k, (schedule k).isPatient = true
  fair : (opening g).Fair i schedule
  awaited : (opening g).Awaited i schedule
  came : ∃ K, ((List.range K).map schedule).filterMap Happening.transport? = ts ∧
    ∀ k, K ≤ k → (schedule k).transport? = none

theorem arrivals_step (i : Nat) (c : Crowd) (h : Happening) :
    (c.step i h).arrivals.map (·.transport)
      = c.arrivals.map (·.transport) ++ h.transport?.toList := by
  cases h with
  | call span t timeout =>
    simp [step, arrivals_advance, newcomer, Resolution.start, Happening.transport?]
  | resume span a =>
    simp only [step, Happening.transport?, Option.toList_none, List.append_nil]
    split
    · rw [arrivals_advance]
    · rfl
  | abandon a =>
    simp only [step, Happening.transport?, Option.toList_none, List.append_nil]
    split <;> rfl
  | register | reset | elapse | meanwhile => simp [step, Happening.transport?]

/-- The callers that have come are those whose calls have happened. -/
theorem arrivals_run (i : Nat) (c : Crowd) (hs : List Happening) :
    (c.run i hs).arrivals.map (·.transport)
      = c.arrivals.map (·.transport) ++ hs.filterMap Happening.transport? := by
  induction hs generalizing c with
  | nil => simp [run]
  | cons h hs ih =>
    -- a run takes its first step first
    show ((c.step i h).run i hs).arrivals.map (·.transport) = _
    rw [ih, arrivals_step, List.append_assoc]
    cases ht : h.transport? <;> simp [ht]

/-- After the last call all callers have come. -/
theorem Contention.arrivals {g : Gateway} {schedule : Nat → Happening} {ts : List Transport}
    (hc : Contention i g schedule ts) :
    ∃ K, ∀ k, K ≤ k → ((opening g).after i schedule k).arrivals.map (·.transport) = ts ∧
      (schedule k).transport? = none := by
  obtain ⟨K, hts, hlast⟩ := hc.came
  refine ⟨K, ?_⟩
  intro k hk
  refine ⟨?_, hlast k hk⟩
  rw [after, arrivals_run]
  induction k, hk using Nat.le_induction with
  | base => exact hts
  | succ k hk ih =>
    rw [List.range_succ, List.map_append, List.filterMap_append, ← List.append_assoc, ih]
    simp [hlast k hk]

/-- The crowd at any time of a contention. -/
theorem Contention.contended {g : Gateway} {schedule : Nat → Happening} {ts : List Transport}
    (hc : Contention i g schedule ts) (errors : List Failure) (bp : Blueprint)
    (hslot : g.slots i = ⟨some f, none, .free⟩) (k : Nat) :
    ((opening g).after i schedule k).Entered i ∧
      Contended i f errors bp ((opening g).after i schedule k) := by
  refine run_induction _ ?_ (entered_opening g) (contended_opening hslot)
  intro h hh c c' he hcontended hm
  obtain ⟨j, -, rfl⟩ := List.mem_map.mp hh
  exact hm.contended (hc.patient j) he hcontended

/-- When nobody is under way, every caller has ended once. -/
theorem Contended.ended_perm (hc : Contended i f errors bp c) (hlive : c.live = []) :
    (c.ended.map (·.caller)).Perm (List.range c.arrivals.length) := by
  rw [List.perm_ext_iff_of_nodup hc.orderly.endedOnce List.nodup_range]
  intro a
  rw [List.mem_range]
  constructor
  · intro ha
    obtain ⟨e, he, rfl⟩ := List.mem_map.mp ha
    exact (hc.orderly.gone e he).1
  · intro ha
    rcases hc.calm.covered a ha with ha | ha
    · simp [callers, hlive] at ha
    · exact ha

/-- What has come of a contention when nobody is under way any more. -/
theorem Retrying.outcome (hr : Retrying i errors bp c) (hlive : c.live = []) :
    c.begun.map (·.caller) = List.range (min c.arrivals.length (errors.length + 1)) ∧
    ((c.slot i).delegate.isSome ↔ errors.length < c.arrivals.length) ∧
    ∃ d, (∀ e ∈ c.ended, e.outcome = failingFirst errors d e.caller) ∧
      ∀ q, c.arrivals[errors.length]? = some q →
        (c.slot i).delegate = some d ∧ d = bp.build d.number q.transport := by
  rcases hr with ⟨k, hf⟩ | ⟨d, hs⟩
  · have hline := hf.line
    have harrived := hf.arrived
    have hfailed := hf.failed
    have hbegun := hf.begun
    -- all who came have paid for a failure
    have hk : c.arrivals.length = k := by
      rw [callers, hlive, List.map_nil, eq_comm, List.range'_eq_nil_iff] at hline
      omega
    rw [hlive, List.countP_nil, Nat.add_zero] at hbegun
    refine ⟨?_, ?_, default, ?_, ?_⟩
    · rw [hbegun, hk, Nat.min_eq_left (by omega)]
    · rw [hf.delegate]
      simp only [Option.isSome_none, Bool.false_eq_true, false_iff]
      omega
    · intro e he
      obtain ⟨error, herror, ho⟩ := hf.ended e he
      rw [ho, failingFirst_of_some herror]
    · intro q hq
      have hlt := (List.getElem?_eq_some_iff.mp hq).1
      omega
  · obtain ⟨q, hq, hd⟩ := hs.built
    have hlt := (List.getElem?_eq_some_iff.mp hq).1
    refine ⟨?_, ?_, d, hs.ended, ?_⟩
    · rw [hs.begun, Nat.min_eq_right (by omega)]
    · rw [hs.delegate]
      exact iff_of_true rfl hlt
    · intro q' hq'
      rw [← Option.some.inj (hq.symm.trans hq')]
      exact ⟨hs.delegate, hd⟩

/-! ## Factories that ask no host -/

/-- Runs follow one another, each one in the next attempt of the factory. -/
structure Plain (f : Factory) (c : Crowd) : Prop where
  begun : c.begun.length = c.results.length + c.live.countP (·.isRunning)
  resting : ∀ r ∈ c.live, ∀ run, r.phase = .running run →
    ∃ time, run = .resting (f.attempt c.results.length) time
  results : ∀ k o, c.results[k]? = some o → o = (f.attempt k).outcome

theorem Plain.keep (hc : c.Plain f) (hbegun : c'.begun = c.begun)
    (hresults : c'.results = c.results)
    (hrunning : c'.live.countP (·.isRunning) = c.live.countP (·.isRunning))
    (hlive : ∀ r ∈ c'.live, r ∈ c.live ∨ r.isRunning = false) : c'.Plain f where
  begun := by
    rw [hbegun, hresults, hrunning]
    exact hc.begun
  resting := by
    intro r hr run hp
    rw [hresults]
    rcases hlive r hr with hr | hr
    · exact hc.resting r hr run hp
    · rw [Resolution.isRunning_of_running hp] at hr
      cases hr
  results := by
    rw [hresults]
    exact hc.results

/-- A run has ended in what its attempt says. -/
theorem Plain.conclude {g : Gateway} {span : Span} {run : FactoryRun} {o : Outcome Blueprint}
    (hc : c.Plain f) (hprobe : ∀ n, (f.attempt n).probe = false) (he : c.Entered i)
    (ho : c.Orderly i) (hl : c.live = front ++ r :: back) (hp : r.phase = .running run)
    (hr : run.resume c.gateway span r.transport = (g, .ended o)) (hlive : c'.live = front ++ back)
    (hbegun : c'.begun = c.begun) (hresults : c'.results = c.results ++ [o]) : c'.Plain f := by
  obtain ⟨hone, hzero⟩ := countP_around he ho hl (Resolution.isRunning_of_running hp)
  -- the run under way is the one after those that have ended
  obtain ⟨time, rfl⟩ := hc.resting r (mem_of_live hl) run hp
  have houtcome : o = (f.attempt c.results.length).outcome := by
    rw [FactoryRun.resume_resting (hprobe _)] at hr
    split at hr
    · exact (Course.ended.inj (Prod.mk.inj hr).2).symm
    · cases (Prod.mk.inj hr).2
  exact {
    begun := by
      rw [hbegun, hlive, hzero, hc.begun, hone, hresults, List.length_append,
        List.length_singleton]
    resting := by
      intro q hq run' hrun'
      rw [hlive] at hq
      have hidle := List.countP_eq_zero.mp hzero q hq
      rw [Resolution.isRunning_of_running hrun'] at hidle
      exact absurd rfl hidle
    results := by
      intro k o' hk
      rw [hresults] at hk
      rcases Nat.lt_trichotomy k c.results.length with hlt | rfl | hlt
      · rw [List.getElem?_append_left hlt] at hk
        exact hc.results k o' hk
      · rw [List.getElem?_concat_length] at hk
        rw [← Option.some.inj hk, houtcome]
      · rw [List.getElem?_eq_none (by simp; omega)] at hk
        cases hk }

/-- A run begins with the attempt whose turn it is. -/
theorem Plain.launch {a : Attempt} {time : Nat} {f' : Factory} (hc : c.Plain f)
    (ho : c.Orderly i) (hl : c.live = front ++ r :: back) (hp : r.phase = .queued f')
    (hfirst : c.callers.head? = some r.caller) (ha : a = f.attempt c.begun.length)
    (hlive : c'.live = front ++ { r with phase := .running (.resting a time) } :: back)
    (hbegun : c'.begun = c.begun ++ [⟨r.caller, f'⟩]) (hresults : c'.results = c.results) :
    c'.Plain f := by
  have hzero := ho.countP_isRunning_eq_zero hl hp hfirst
  have hlength : c.begun.length = c.results.length := by rw [hc.begun, hzero, Nat.add_zero]
  exact {
    begun := by
      rw [hbegun, List.length_append, List.length_singleton, hlength, hresults,
        countP_of_launched hl hlive hzero]
    resting := by
      intro q hq run' hrun'
      rw [hlive] at hq
      rcases mem_of_replaced hl hq with hq | rfl
      · have hidle := List.countP_eq_zero.mp hzero q hq
        rw [Resolution.isRunning_of_running hrun'] at hidle
        exact absurd rfl hidle
      · rw [← Phase.running.inj hrun', hresults, ha, hlength]
        exact ⟨time, rfl⟩
    results := by
      rw [hresults]
      exact hc.results }

/-- Every patient move keeps the runs of such a factory in order. -/
theorem Move.plain {g : Gateway} (hm : Move i h c c') (hpatient : h.isPatient = true)
    (hprobe : ∀ n, (f.attempt n).probe = false) (hruns : g.runs f.serial = 0) (he : c.Entered i)
    (ho : c.Orderly i) (hc : c.Calm i f) (hg : c.Counted g) (hp : c.Plain f) : c'.Plain f := by
  cases hm with
  | greet | refuse | register | reject | elapse | meanwhile =>
    exact hp.keep rfl rfl rfl (fun q hq => .inl hq)
  | @enter span t timeout f' hh hd hf =>
    refine hp.keep rfl rfl ?_ ?_
    · simp [Resolution.isRunning_of_queued]
    · intro q hq
      rcases List.mem_append.mp hq with hq | hq
      · exact .inl hq
      · rw [List.mem_singleton.mp hq]
        exact .inr rfl
  | find hl hp' =>
    refine hp.keep rfl rfl ?_ (fun q hq => .inl (mem_of_around hl hq))
    simp [hl, Resolution.isRunning_of_queued hp', List.countP_append]
  | @launch span front r back f' a hl hp' ht hd ha =>
    have hfirst := (ho.hasTurn_iff (he r (mem_of_live hl)).1).mp ht
    have hf' := hc.queued r (mem_of_live hl) f' hp'
    refine hp.launch ho hl hp' hfirst ?_ rfl rfl rfl
    rw [ha, hf', hc.runs_eq hg, hruns, Nat.zero_add]
  | @work span front r back run g' run' hl hp' hr =>
    obtain ⟨time, rfl⟩ := hp.resting r (mem_of_live hl) run hp'
    have hsame : run' = .resting (f.attempt c.results.length) time := by
      rw [FactoryRun.resume_resting (hprobe _)] at hr
      split at hr
      · cases (Prod.mk.inj hr).2
      · exact (Course.waiting.inj (Prod.mk.inj hr).2).symm
    have hlive : front ++ { r with phase := .running run' } :: back = c.live := by
      rw [hl, hsame, ← hp']
    refine hp.keep rfl rfl ?_ ?_
    · rw [settle_waiting, hlive]
    · rw [settle_waiting, hlive]
      exact fun q hq => .inl hq
  | fail span hl hp' hr | install span hl hp' hr =>
    exact hp.conclude hprobe he ho hl hp' hr rfl rfl rfl
  | @expire span front r back l hl hlim =>
    rw [hc.unlimited r (mem_of_live hl)] at hlim
    cases hlim
  | abandon hh | reset hh =>
    subst hh
    cases hpatient

/-- The runs of a factory that has not run before and asks no host end in what its attempts say,
one after the other. -/
theorem results_of_attempts {g : Gateway} (hs : List Happening)
    (hslot : g.slots i = ⟨some f, none, .free⟩) (hruns : g.runs f.serial = 0)
    (hprobe : ∀ n, (f.attempt n).probe = false) (hpatient : ∀ h ∈ hs, h.isPatient = true) (k : Nat)
    (o : Outcome Blueprint) (hk : ((opening g).run i hs).results[k]? = some o) :
    o = (f.attempt k).outcome := by
  have hrun := orderly_induction hs (P := fun c => c.Calm i f ∧ c.Counted g ∧ c.Plain f) ?_
    (entered_opening (i := i) g) (orderly_opening (by rw [hslot]))
    ⟨calm_opening (by rw [hslot]), counted_opening g, ?_⟩
  · obtain ⟨-, -, -, -, hplain⟩ := hrun
    exact hplain.results k o hk
  · rintro h hh c c' he ho ⟨hc, hg, hp⟩ hm
    exact ⟨hm.calm (hpatient h hh) hc, hm.counted hg,
      hm.plain (hpatient h hh) hprobe hruns he ho hc hg hp⟩
  · exact {
      begun := rfl
      resting := by simp [opening]
      results := by simp [opening] }

/-! ## Many callers and many errors -/

/-- **Contended retries.** Callers without a deadline come to a slot that has a factory and no
delegate, in any order of steps and at any times. If the first runs of the factory end in these
errors and the next one in success, then after some time all calls have ended, each of them once,
and nothing changes any more: the callers of the first runs have got these errors, in the order in
which they came; all others have got one delegate, which is in the slot and is built for the caller
behind those. The factory has run for the first callers only, once for each error and once more,
unless there were not as many callers; there is a delegate iff there were more callers than
errors. -/
theorem contended_retries (i : Nat) (g : Gateway) (f : Factory) (schedule : Nat → Happening)
    (ts : List Transport) (errors : List Failure) (bp : Blueprint)
    (hslot : g.slots i = ⟨some f, none, .free⟩) (hcontention : Contention i g schedule ts)
    (hresults : ∀ k, ((opening g).after i schedule k).Results errors bp) :
    ∃ K, ∀ k, K ≤ k →
      let c := (opening g).after i schedule k
      let runs := min ts.length (errors.length + 1)
      c.live = [] ∧ (c.ended.map (·.caller)).Perm (List.range ts.length) ∧
      (c.gateway.factoryCalls = g.factoryCalls + runs ∧
        c.gateway.runs f.serial = g.runs f.serial + runs ∧
        c.begun.map (·.caller) = List.range runs) ∧
      ((c.slot i).delegate.isSome ↔ errors.length < ts.length) ∧
      ∃ d, (∀ e ∈ c.ended, e.outcome = failingFirst errors d e.caller) ∧
        ∀ t, ts[errors.length]? = some t →
          (c.slot i).delegate = some d ∧ d = bp.build d.number t := by
  obtain ⟨K, harrivals⟩ := hcontention.arrivals
  obtain ⟨K', hK', hlive⟩ := everyone_ends (entered_opening g) (orderly_opening (by rw [hslot]))
    hcontention.fair hcontention.awaited (fun j hj => (harrivals j hj).2)
  refine ⟨K', ?_⟩
  intro k hk c runs
  obtain ⟨he, hc⟩ := hcontention.contended errors bp hslot k
  have hts : c.arrivals.map (·.transport) = ts := (harrivals k (hK'.trans hk)).1
  have hlength : c.arrivals.length = ts.length := by rw [← hts, List.length_map]
  obtain ⟨hbegun, hsome, d, hended, hd⟩ := (hc.retrying (hresults k)).outcome (hlive k hk)
  have hruns : c.begun.length = runs := by
    rw [← List.length_map (·.caller), hbegun, List.length_range, hlength]
  have hcounted : c.Counted g :=
    (counted_opening g).run (entered_opening (i := i) g) ((List.range k).map schedule)
  refine ⟨hlive k hk, ?_, ⟨?_, ?_, ?_⟩, ?_, d, hended, ?_⟩
  · rw [← hlength]
    exact hc.ended_perm (hlive k hk)
  · rw [← hruns]
    exact hcounted.all
  · rw [← hruns]
    exact hc.calm.runs_eq hcounted
  · rw [hbegun, hlength]
  · rw [hsome, hlength]
  · intro t ht
    rw [← hts, List.getElem?_map, Option.map_eq_some_iff] at ht
    obtain ⟨q, hq, rfl⟩ := ht
    exact hd q hq

/-- A factory that fails once. -/
def failingOnce : Factory :=
  ⟨0, fun n => ⟨10, false, failingFirst [.noFactory] ⟨none, .empty⟩ n⟩⟩

/-- A gateway with that factory. -/
def failingGateway : Gateway :=
  Gateway.start.changeSlot 0 fun s => { s with factory := failingOnce }

/-- Three callers come, and then take steps in turn while time passes. -/
def threeInTurn : Nat → Happening
  | 0 => .call .none ⟨0, [], 0⟩ none
  | 1 => .call .none ⟨1, [], 0⟩ none
  | 2 => .call .none ⟨2, [], 0⟩ none
  | k + 3 => if k % 4 = 0 then .elapse 10 else .resume .none (k % 4 - 1)

theorem threeInTurn_add_three (k : Nat) :
    threeInTurn (k + 3) = if k % 4 = 0 then .elapse 10 else .resume .none (k % 4 - 1) := rfl

theorem transport?_threeInTurn (k : Nat) : (threeInTurn (k + 3)).transport? = none := by
  rw [threeInTurn_add_three]
  split <;> rfl

theorem arrivals_threeInTurn (k : Nat) :
    ((opening failingGateway).after 0 threeInTurn k).arrivals.length ≤ 3 := by
  induction k with
  | zero => exact Nat.zero_le _
  | succ k ih =>
    have hstep := congrArg List.length
      (arrivals_step 0 ((opening failingGateway).after 0 threeInTurn k) (threeInTurn k))
    rw [List.length_map, List.length_append, List.length_map, ← after_succ] at hstep
    match k with
    | 0 | 1 | 2 => decide
    | k + 3 =>
      rw [transport?_threeInTurn] at hstep
      simp only [Option.toList_none, List.length_nil, Nat.add_zero] at hstep
      omega

theorem orderly_threeInTurn (k : Nat) :
    ((opening failingGateway).after 0 threeInTurn k).Entered 0 ∧
      ((opening failingGateway).after 0 threeInTurn k).Orderly 0 :=
  orderly_after (entered_opening _) (orderly_opening (by decide)) threeInTurn k

theorem fair_threeInTurn : (opening failingGateway).Fair 0 threeInTurn where
  clock := by
    have hclock :
        ∀ j, j ≤ ((opening failingGateway).after 0 threeInTurn (4 * j + 3)).gateway.now := by
      intro j
      induction j with
      | zero => exact Nat.zero_le _
      | succ j ih =>
        have htick : threeInTurn (4 * j + 3) = .elapse 10 := by simp [threeInTurn]
        have hstep : ((opening failingGateway).after 0 threeInTurn (4 * j + 4)).gateway.now
            = ((opening failingGateway).after 0 threeInTurn (4 * j + 3)).gateway.now + 10 := by
          rw [after_succ, now_step (orderly_threeInTurn _).1, htick]
          rfl
        have hle := now_le_after (entered_opening (i := 0) failingGateway)
          (orderly_opening (by decide)) threeInTurn (show 4 * j + 4 ≤ 4 * (j + 1) + 3 by omega)
        omega
    exact fun time => ⟨4 * time + 3, hclock time⟩
  resumed := by
    intro k r hr
    -- there are three callers, and each has its place in every round of four
    have harrived := (orderly_threeInTurn k).2.arrived r.caller (List.mem_map_of_mem hr)
    have hthree := arrivals_threeInTurn k
    refine ⟨4 * k + (r.caller + 1) + 3, by omega, .none, ?_⟩
    have hmod : (4 * k + (r.caller + 1)) % 4 = r.caller + 1 := by omega
    simp [threeInTurn, hmod]

theorem awaited_threeInTurn : (opening failingGateway).Awaited 0 threeInTurn := by
  refine awaited_of_hosts (fun _ => nofun) ?_
  intro k hosts built hk
  -- no host ever changes
  match k with
  | 0 | 1 | 2 => cases hk
  | k + 3 =>
    rw [threeInTurn_add_three] at hk
    split at hk <;> cases hk

/-- The first of three callers gets the error, and the others get the delegate. -/
theorem contended_retries_threeInTurn :
    failingGateway.slots 0 = ⟨some failingOnce, none, .free⟩ ∧
    Contention 0 failingGateway threeInTurn [⟨0, [], 0⟩, ⟨1, [], 0⟩, ⟨2, [], 0⟩] ∧
    (∀ k, ((opening failingGateway).after 0 threeInTurn k).Results [.noFactory] ⟨none, .empty⟩) ∧
    ∃ K, ∀ k, K ≤ k →
      ((opening failingGateway).after 0 threeInTurn k).gateway.factoryCalls = 2 ∧
      ∃ d, (((opening failingGateway).after 0 threeInTurn k).slot 0).delegate = some d ∧
        d.transport = ⟨1, [], 0⟩ := by
  have hslot : failingGateway.slots 0 = ⟨some failingOnce, none, .free⟩ := rfl
  have hpatient : ∀ k, (threeInTurn k).isPatient = true := by
    intro k
    match k with
    | 0 | 1 | 2 => rfl
    | k + 3 =>
      rw [threeInTurn_add_three]
      split <;> rfl
  have hcontention :
      Contention 0 failingGateway threeInTurn [⟨0, [], 0⟩, ⟨1, [], 0⟩, ⟨2, [], 0⟩] := {
    patient := hpatient
    fair := fair_threeInTurn
    awaited := awaited_threeInTurn
    came := by
      refine ⟨3, rfl, ?_⟩
      intro k hk
      obtain ⟨j, rfl⟩ := Nat.exists_eq_add_of_le' hk
      exact transport?_threeInTurn j }
  have hresults : ∀ k, ((opening failingGateway).after 0 threeInTurn k).Results [.noFactory]
      ⟨none, .empty⟩ := by
    intro k j _ o ho
    refine results_of_attempts _ hslot rfl (fun _ => rfl) ?_ j o ho
    intro h hh
    obtain ⟨k', -, rfl⟩ := List.mem_map.mp hh
    exact hpatient k'
  refine ⟨hslot, hcontention, hresults, ?_⟩
  obtain ⟨K, hK⟩ := contended_retries 0 failingGateway failingOnce threeInTurn _ [.noFactory]
    ⟨none, .empty⟩ hslot hcontention hresults
  refine ⟨K, ?_⟩
  intro k hk
  obtain ⟨-, -, ⟨hcalls, -⟩, -, d, -, hd⟩ := hK k hk
  obtain ⟨hdelegate, hbuilt⟩ := hd ⟨1, [], 0⟩ rfl
  refine ⟨hcalls, d, hdelegate, ?_⟩
  rw [hbuilt]
  rfl

end Crowd

end MuxBridge
