/-
# Agreement

As long as the slot is not emptied, all callers who get a delegate get the same one. A call can
begin a run only while there is no delegate, and only the call that has the turn runs the factory;
so nobody is left to install a second delegate once there is a first.

* `Crowd.Counted`: the counters of the gateway agree with the record of runs;
* `Crowd.Agreed`: while a run is under way there is no delegate, and who has got one has got the
  one in the slot;
* `delegate_agreement`: one delegate for all, from the factory that was offered first.
-/
import MuxBridge.Proofs.Crowd.Handover
import MuxBridge.Proofs.Crowd.Origin

namespace MuxBridge

/-- Who waits for the turn does not run the factory. -/
theorem Resolution.not_isRunning_of_awaitsTurn {g : Gateway} {r : Resolution}
    (hr : r.awaitsTurn g = true) : r.isRunning = false := by
  unfold awaitsTurn at hr
  unfold isRunning
  split
  · next hp => rw [hp] at hr; cases hr
  · rfl

theorem Resolution.isRunning_of_running {r : Resolution} {run : FactoryRun}
    (hp : r.phase = .running run) : r.isRunning = true := by
  rw [isRunning, hp]

theorem Resolution.isRunning_of_queued {r : Resolution} {f : Factory}
    (hp : r.phase = .queued f) : r.isRunning = false := by
  rw [isRunning, hp]

namespace Crowd

variable {i : Nat} {h : Happening} {c c' : Crowd} {front back : List Resolution} {r : Resolution}

/-! ## Runs are counted -/

/-- Since it was like another one, the gateway has counted the runs on record, in all and for each
factory. -/
structure Counted (g : Gateway) (c : Crowd) : Prop where
  all : c.gateway.factoryCalls = g.factoryCalls + c.begun.length
  each : ∀ n, c.gateway.runs n = g.runs n + c.begun.countP (·.factory.serial == n)

theorem Counted.keep {g : Gateway} (hc : c.Counted g)
    (hcalls : c'.gateway.factoryCalls = c.gateway.factoryCalls)
    (hruns : c'.gateway.runs = c.gateway.runs) (hbegun : c'.begun = c.begun) : c'.Counted g where
  all := by
    rw [hcalls, hbegun]
    exact hc.all
  each := by
    rw [hruns, hbegun]
    exact hc.each

/-- Every move counts the run that it begins. -/
theorem Move.counted {g : Gateway} (hm : Move i h c c') (hc : c.Counted g) : c'.Counted g := by
  cases hm with
  | @launch span front r back f a hl hp ht hd ha =>
    constructor
    · simp [note, Gateway.countRun, Gateway.report, hc.all, Nat.add_assoc]
    · intro n
      by_cases hn : n = f.serial
      · subst hn
        simp [note, Gateway.countRun, Gateway.report, hc.each, Nat.add_assoc]
      · have hne : (f.serial == n) = false := by
          rw [beq_eq_false_iff_ne]
          exact Ne.symm hn
        simp [note, Gateway.countRun, Gateway.report, hc.each, hn, hne]
  | work span hl hp hr | fail span hl hp hr | install span hl hp hr hd =>
    have htraffic := FactoryRun.traffic_eq hr
    exact hc.keep htraffic.factoryCalls htraffic.runs rfl
  | greet | refuse | enter | find | expire | abandon | register | reject | reset | elapse
  | meanwhile =>
    exact hc.keep rfl rfl rfl

/-- The gateway goes on counting. -/
theorem Counted.run {g : Gateway} (hc : c.Counted g) (he : c.Entered i) (hs : List Happening) :
    (c.run i hs).Counted g :=
  (run_induction hs (fun _ _ _ _ _ hc hm => hm.counted hc) he hc).2

theorem counted_opening (g : Gateway) : (opening g).Counted g where
  all := rfl
  each := fun _ => rfl

/-! ## One run at a time -/

/-- At most one run is under way. -/
theorem Orderly.countP_isRunning_le (hc : c.Orderly i) (he : c.Entered i) :
    c.live.countP (·.isRunning) ≤ 1 := by
  rcases hl : c.live with _ | ⟨r, rest⟩
  · simp
  · have hrest : rest.countP (·.isRunning) = 0 := by
      rw [List.countP_eq_zero]
      intro q hq
      rw [Resolution.not_isRunning_of_awaitsTurn (hc.awaitsTurn_of_tail he hl hq)]
      exact Bool.false_ne_true
    rw [List.countP_cons, hrest]
    split <;> omega

/-- Who runs the factory is the only one. -/
theorem countP_around (he : c.Entered i) (ho : c.Orderly i) (hl : c.live = front ++ r :: back)
    (hr : r.isRunning = true) :
    c.live.countP (·.isRunning) = 1 ∧ (front ++ back).countP (·.isRunning) = 0 := by
  have hle := ho.countP_isRunning_le he
  simp only [hl, List.countP_append, List.countP_cons, hr, if_true] at hle ⊢
  omega

/-- While the first in the line has not begun, nobody runs the factory. -/
theorem Orderly.countP_isRunning_eq_zero {f : Factory} (ho : c.Orderly i)
    (hl : c.live = front ++ r :: back) (hp : r.phase = .queued f)
    (hfirst : c.callers.head? = some r.caller) : c.live.countP (·.isRunning) = 0 := by
  rw [List.countP_eq_zero]
  intro q hq
  rcases hphase : q.phase with _ | f' | run
  · simp [Resolution.isRunning, hphase]
  · simp [Resolution.isRunning, hphase]
  · -- who runs the factory is the first in the line, and that one still waits
    have hfirst' := ho.first_of_running hq hphase
    rw [hfirst] at hfirst'
    rw [ho.eq_of_caller_eq (mem_of_live hl) hq (Option.some.inj hfirst'), hphase] at hp
    cases hp

/-- A run that starts while there is none is the only one. -/
theorem countP_of_launched {run : FactoryRun} (hl : c.live = front ++ r :: back)
    (hlive : c'.live = front ++ { r with phase := .running run } :: back)
    (hzero : c.live.countP (·.isRunning) = 0) : c'.live.countP (·.isRunning) = 1 := by
  have hrunning : ({ r with phase := .running run } : Resolution).isRunning = true := rfl
  simp only [hl, List.countP_append, List.countP_cons] at hzero
  simp only [hlive, List.countP_append, List.countP_cons, hrunning, if_true]
  omega

/-! ## One delegate for all -/

/-- The slot has not been emptied, and all agree on what is in it. -/
structure Agreed (i : Nat) (c : Crowd) : Prop where
  resetAt : c.resetAt = 0
  factory : (c.slot i).factory = c.offers.head?
  /-- Who runs the factory is the first to get a delegate. -/
  running : ∀ r ∈ c.live, ∀ run, r.phase = .running run → (c.slot i).delegate = none
  /-- Who has got a delegate has got the one in the slot. -/
  got : ∀ e ∈ c.ended, ∀ d, e.outcome = .ok d → (c.slot i).delegate = some d

/-- The slot is as before, and whoever has got a delegate since has found it there. -/
theorem Agreed.keep (hc : c.Agreed i) (hreset : c'.resetAt = c.resetAt)
    (hfactory : (c'.slot i).factory = (c.slot i).factory)
    (hdelegate : (c'.slot i).delegate = (c.slot i).delegate) (hoffers : c'.offers = c.offers)
    (hlive : ∀ r ∈ c'.live, ∀ run, r.phase = .running run → (c.slot i).delegate = none)
    (hended : c'.ended = c.ended ∨
      ∃ e, c'.ended = c.ended ++ [e] ∧ ∀ d, e.outcome = .ok d → (c.slot i).delegate = some d) :
    c'.Agreed i where
  resetAt := hreset.trans hc.resetAt
  factory := by
    rw [hfactory, hoffers]
    exact hc.factory
  running := by
    rw [hdelegate]
    exact hlive
  got := by
    rw [hdelegate]
    rcases hended with hended | ⟨e, hended, he⟩
    · rw [hended]
      exact hc.got
    · rw [hended]
      intro e' he' d ho
      rcases List.mem_append.mp he' with he' | he'
      · exact hc.got e' he' d ho
      · rw [List.mem_singleton.mp he'] at ho
        exact he d ho

/-- Who installs a delegate leaves nobody behind who runs the factory. -/
theorem Agreed.install {d : Delegate} {e : Ending} {run : FactoryRun} (hc : c.Agreed i)
    (ho : c.Orderly i) (hl : c.live = front ++ r :: back) (hp : r.phase = .running run)
    (hreset : c'.resetAt = c.resetAt) (hfactory : (c'.slot i).factory = (c.slot i).factory)
    (hdelegate : (c'.slot i).delegate = some d) (hoffers : c'.offers = c.offers)
    (hlive : c'.live = front ++ back) (hended : c'.ended = c.ended ++ [e])
    (houtcome : e.outcome = .ok d) : c'.Agreed i where
  resetAt := hreset.trans hc.resetAt
  factory := by
    rw [hfactory, hoffers]
    exact hc.factory
  running := by
    intro q hq run' hrun'
    rw [hlive] at hq
    -- two calls would have the turn at the same time
    obtain ⟨hq, hne⟩ := ho.mem_without hl hq
    have hholder := ho.running r (mem_of_live hl) run hp
    have hholder' := ho.running q hq run' hrun'
    rw [hholder] at hholder'
    exact absurd (Option.some.inj hholder').symm hne
  got := by
    have hnone := hc.running r (mem_of_live hl) run hp
    intro e' he' d' ho'
    rw [hended] at he'
    rcases List.mem_append.mp he' with he' | he'
    · -- Nobody had got a delegate while there was none.
      rw [hc.got e' he' d' ho'] at hnone
      cases hnone
    · rw [List.mem_singleton.mp he', houtcome] at ho'
      rw [hdelegate, Except.ok.inj ho']

/-- Every move but a reset keeps the agreement. -/
theorem Move.agreed (hm : Move i h c c') (hreset : h ≠ .reset) (ho : c.Orderly i)
    (hc : c.Agreed i) : c'.Agreed i := by
  cases hm with
  | @greet _ _ _ d hh hd =>
    refine hc.keep rfl rfl rfl rfl hc.running (.inr ⟨_, rfl, ?_⟩)
    intro d' ho'
    rw [← Except.ok.inj ho']
    exact hd
  | refuse hh hd hf =>
    exact hc.keep rfl rfl rfl rfl hc.running (.inr ⟨_, rfl, fun d ho' => by cases ho'⟩)
  | enter hh hd hf =>
    refine hc.keep rfl (by simp [slot]) (by simp [slot]) rfl ?_ (.inl rfl)
    exact fun _ _ _ _ => hd
  | @find front r back f d hl hp ht hd =>
    refine hc.keep rfl (by simp [slot]) (by simp [slot]) rfl ?_ (.inr ⟨_, rfl, ?_⟩)
    · exact fun q hq => hc.running q (mem_of_around hl hq)
    · intro d' ho'
      rw [← Except.ok.inj ho']
      exact hd
  | launch span hl hp ht hd =>
    exact hc.keep rfl rfl rfl rfl (fun _ _ _ _ => hd) (.inl rfl)
  | @work span front r back run g run' hl hp hr =>
    have hslots := (FactoryRun.traffic_eq hr).slots
    refine hc.keep rfl (by simp [slot, hslots]) (by simp [slot, hslots]) rfl ?_ (.inl rfl)
    exact fun _ _ _ _ => hc.running r (mem_of_live hl) run hp
  | fail span hl hp hr =>
    have hslots := (FactoryRun.traffic_eq hr).slots
    refine hc.keep rfl (by simp [slot, hslots]) (by simp [slot, hslots]) rfl ?_
      (.inr ⟨_, rfl, fun d ho' => by cases ho'⟩)
    exact fun q hq => hc.running q (mem_of_around hl hq)
  | install span hl hp hr hd =>
    have hslots := (FactoryRun.traffic_eq hr).slots
    exact hc.install ho hl hp rfl (by simp [slot, hslots]) (by simp [slot]) rfl rfl rfl rfl
  | expire span hl hr ht =>
    refine hc.keep rfl (by simp [slot]) (by simp [slot]) rfl ?_
      (.inr ⟨_, rfl, fun d ho' => by cases ho'⟩)
    exact fun q hq => hc.running q (mem_of_around hl hq)
  | abandon hh hl =>
    refine hc.keep rfl (by simp [slot]) (by simp [slot]) rfl ?_ (.inl rfl)
    exact fun q hq => hc.running q (mem_of_around hl hq)
  | @register attempt f hh hf hn =>
    -- the slot is empty, so this is the first offer
    have hnone : c.offers = [] := by
      rw [← List.head?_eq_none_iff, ← hc.factory]
      exact hn
    exact {
      resetAt := hc.resetAt
      factory := by simp [slot, hnone]
      running := by
        intro q hq run hrun
        simpa [slot] using hc.running q hq run hrun
      got := by
        intro e he d hok
        simpa [slot] using hc.got e he d hok }
  | @reject attempt f f' hh hf hs =>
    have hhead : c.offers.head? = some f' := by
      rw [← hc.factory]
      exact hs
    exact {
      resetAt := hc.resetAt
      factory := by
        show (c.slot i).factory = (c.offers ++ [f]).head?
        rw [hs, List.head?_append, hhead]
        rfl
      running := hc.running
      got := hc.got }
  | reset hh => exact absurd hh hreset
  | elapse | meanwhile => exact hc.keep rfl rfl rfl rfl hc.running (.inl rfl)

theorem agreed_start : start.Agreed i where
  resetAt := rfl
  factory := rfl
  running := by simp [start, opening]
  got := by simp [start, opening]

/-- A delegate that is installed stays, and no run begins any more. -/
theorem Move.settled {d : Delegate} (hm : Move i h c c') (hreset : h ≠ .reset)
    (hc : c.Agreed i) (hd : (c.slot i).delegate = some d) :
    (c'.slot i).delegate = some d ∧ c'.begun = c.begun := by
  cases hm with
  | launch span hl hp ht hn =>
    rw [hd] at hn
    cases hn
  -- no run is under way beside a delegate
  | @work span front r back run g run' hl hp hr | @fail span front r back run g e hl hp hr
  | @install span front r back run g b d' hl hp hr hd' =>
    have hn := hc.running r (mem_of_live hl) run hp
    rw [hd] at hn
    cases hn
  | reset hh => exact absurd hh hreset
  | enter | find | expire | abandon | register =>
    refine ⟨?_, rfl⟩
    simpa [slot] using hd
  | greet | refuse | reject | elapse | meanwhile => exact ⟨hd, rfl⟩

/-- Everything that keeps a slot in agreement, as long as it is not emptied. -/
theorem agreed_run (hs : List Happening) (hreset : ∀ h ∈ hs, h ≠ .reset) :
    (start.run i hs).Agreed i :=
  (orderly_induction hs (fun h hh _ _ _ ho hc hm => hm.agreed (hreset h hh) ho hc)
    (entered_opening _) (orderly_opening rfl) agreed_start).2.2

/-- A delegate that is installed stays through a run, in which no run of the factory begins. -/
theorem Agreed.settled {d : Delegate} (he : c.Entered i) (ho : c.Orderly i) (hc : c.Agreed i)
    (hd : (c.slot i).delegate = some d) (hs : List Happening) (hreset : ∀ h ∈ hs, h ≠ .reset) :
    (c.run i hs).Agreed i ∧ ((c.run i hs).slot i).delegate = some d ∧
      (c.run i hs).begun = c.begun := by
  have hrun := orderly_induction hs
    (P := fun c' => c'.Agreed i ∧ (c'.slot i).delegate = some d ∧ c'.begun = c.begun) ?_ he ho
    ⟨hc, hd, rfl⟩
  · exact hrun.2.2
  · rintro h hh c₁ c₂ - ho₁ ⟨hc₁, hd₁, hb₁⟩ hm
    obtain ⟨hd₂, hb₂⟩ := hm.settled (hreset h hh) hc₁ hd₁
    exact ⟨hm.agreed (hreset h hh) ho₁ hc₁, hd₂, hb₂.trans hb₁⟩

/-- **Agreement**, for a slot that is never emptied, of all calls that have been made and that may
still come. Who has got a delegate has got the one in the slot. Once there is one, it stays, all who
get one get it, and the factory does not run again. At no time does more than one run go on, and
every run that the gateway has counted is of the first factory offered. -/
theorem delegate_agreement (i : Nat) (before after : List Happening)
    (hreset : ∀ h ∈ before ++ after, h ≠ .reset) :
    let c := start.run i before
    let c' := c.run i after
    (∀ e ∈ c.ended, ∀ d, e.outcome = .ok d → (c.slot i).delegate = some d) ∧
    (∀ d, (c.slot i).delegate = some d →
      (c'.slot i).delegate = some d ∧
        (∀ e ∈ c'.ended, ∀ d', e.outcome = .ok d' → d' = d) ∧
        c'.begun = c.begun ∧ c'.gateway.factoryCalls = c.gateway.factoryCalls ∧
        c'.gateway.runs = c.gateway.runs) ∧
    c.live.countP (·.isRunning) ≤ 1 ∧
    (c.gateway.factoryCalls = c.begun.length ∧
      ∀ b ∈ c.begun, c.offers.head? = some b.factory) := by
  intro c c'
  have hbefore : ∀ h ∈ before, h ≠ .reset := fun h hh => hreset h (List.mem_append_left _ hh)
  have hafter : ∀ h ∈ after, h ≠ .reset := fun h hh => hreset h (List.mem_append_right _ hh)
  obtain ⟨he, ho⟩ := orderly_run i before
  have hc : c.Agreed i := agreed_run before hbefore
  have hcounted : c.Counted .start :=
    (counted_opening .start).run (entered_opening (i := i) .start) before
  refine ⟨hc.got, ?_, ho.countP_isRunning_le he, ?_, ?_⟩
  · intro d hd
    obtain ⟨hc', hd', hbegun⟩ := hc.settled he ho hd after hafter
    have hcounted' : c'.Counted .start := hcounted.run he after
    refine ⟨hd', ?_, hbegun, ?_, ?_⟩
    · intro e he' d' hok
      have hgot := hc'.got e he' d' hok
      rw [hd'] at hgot
      exact (Option.some.inj hgot).symm
    · rw [hcounted'.all, hcounted.all, hbegun]
    · funext n
      rw [hcounted'.each, hcounted.each, hbegun]
  · rw [hcounted.all]
    exact Nat.zero_add _
  · -- without a reset every caller came after the last one
    intro b hb
    obtain ⟨-, hiff⟩ := (dated_run i before).begun b hb
    rw [← hc.factory]
    exact hiff.mpr (by rw [hc.resetAt]; exact Nat.zero_le _)

/-- Three callers, the first of whom fails, and the second of whom is cut off by its deadline. -/
def threeCallers : List Happening :=
  [.register fun n => ⟨10, false, if n = 0 then .error .noFactory else .ok ⟨none, .empty⟩⟩,
    .call .none default none, .call .none default (some (.ofMillis 12)),
    .call .none default none, .elapse 10, .resume .none 0, .elapse 5, .resume .none 1,
    .resume .none 2, .elapse 10, .resume .none 2]

/-- The delegate of the third caller is there for a fourth one. -/
theorem delegate_agreement_threeCallers :
    (∀ h ∈ threeCallers ++ [.call .none default none], h ≠ .reset) ∧
    (((start.run 0 threeCallers).run 0 [.call .none default none]).slot 0).delegate
      = some ⟨0, default, .empty⟩ := by
  have hreset : ∀ h ∈ threeCallers ++ [.call .none default none], h ≠ .reset := by
    simp [threeCallers]
  refine ⟨hreset, ?_⟩
  obtain ⟨-, hsettled, -⟩ := delegate_agreement 0 threeCallers [.call .none default none] hreset
  exact (hsettled ⟨0, default, .empty⟩ (by decide)).1

end Crowd

end MuxBridge
