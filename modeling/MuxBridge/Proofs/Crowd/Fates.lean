/-
# Fates

What a call can end in while a factory is registered. One step ends one call at most: the call gets
the delegate of the slot, or its run of the factory fails, or its deadline has passed. A step is a
sequence of moves, so `Passage` says for every point on its way whether the call has met its fate.

* `Move.fate`: a single move ends no call, or one in one of the three ways;
* `step_fate`: so does whatever happens;
* `exists_step_of_ended`: every end on record is the end of some step.
-/
import MuxBridge.Proofs.Crowd.Agreement

namespace MuxBridge

namespace Crowd

variable {i : Nat} {h : Happening} {c c' c₁ c₂ : Crowd} {front back : List Resolution}
  {q r : Resolution} {e : Ending} {f : Factory} {limit : Option Limit}

/-! ## Deadlines on record -/

/-- Whoever is under way has the deadline he came with. -/
def Recalled (c : Crowd) : Prop :=
  ∀ r ∈ c.live, ∃ q, c.arrivals[r.caller]? = some q ∧ q.limit = r.limit

theorem Recalled.keep (hc : c.Recalled) (hg : c.Grows c')
    (hlive : ∀ q ∈ c'.live, ∃ r ∈ c.live, q.caller = r.caller ∧ q.limit = r.limit) :
    c'.Recalled := by
  intro q hq
  obtain ⟨r, hr, hcaller, hlimit⟩ := hlive q hq
  obtain ⟨p, hp, hplimit⟩ := hc r hr
  refine ⟨p, ?_, hplimit.trans hlimit.symm⟩
  rw [hcaller]
  exact getElem?_of_grows hg hp

/-- Every move leaves callers their deadlines. -/
theorem Move.recalled (hm : Move i h c c') (hc : c.Recalled) : c'.Recalled := by
  have hg := hm.grows
  cases hm with
  | enter =>
    intro q hq
    rcases List.mem_append.mp hq with hq | hq
    · obtain ⟨p, hp, hlimit⟩ := hc q hq
      exact ⟨p, getElem?_of_grows hg hp, hlimit⟩
    · rw [List.mem_singleton.mp hq]
      exact ⟨_, List.getElem?_concat_length, rfl⟩
  | launch _ hl | work _ hl =>
    refine hc.keep hg fun q hq => ?_
    rcases mem_of_replaced hl hq with hq | rfl
    · exact ⟨q, hq, rfl, rfl⟩
    · exact ⟨_, mem_of_live hl, rfl, rfl⟩
  | find hl | fail _ hl | install _ hl | expire _ hl | abandon _ hl =>
    exact hc.keep hg fun q hq => ⟨q, mem_of_around hl hq, rfl, rfl⟩
  | greet | refuse | register | reject | reset | elapse | meanwhile =>
    exact hc.keep hg fun q hq => ⟨q, hq, rfl, rfl⟩

/-- Who is under way has the deadline that is on record. -/
theorem Recalled.exists_live {a : Nat} (hc : c.Recalled) (hq : c.arrivals[a]? = some q)
    (ha : a ∈ c.callers) : ∃ r ∈ c.live, r.caller = a ∧ r.limit = q.limit := by
  obtain ⟨r, hr, rfl⟩ := List.mem_map.mp ha
  obtain ⟨p, hp, hlimit⟩ := hc r hr
  exact ⟨r, hr, rfl, by rw [← hlimit, Option.some.inj (hp.symm.trans hq)]⟩

/-- Callers have their deadlines after every run. -/
theorem recalled_run (i : Nat) (hs : List Happening) : (start.run i hs).Recalled :=
  (run_induction hs (fun _ _ _ _ _ hc hm => hm.recalled hc) (entered_opening _)
    (by simp [Recalled, opening])).2

/-! ## How calls end -/

/-- What a call with a deadline has ended in on the way from one crowd to another. -/
inductive Fate (i : Nat) (c c' : Crowd) (limit : Option Limit) (e : Ending) : Prop
  /-- It has got the delegate of the slot. -/
  | served {d} (outcome : e.outcome = .ok d) (delegate : (c'.slot i).delegate = some d)
  /-- Its run of the factory has failed. -/
  | failed {error} (outcome : e.outcome = .error error)
      (result : c'.results = c.results ++ [.error error])
      (began : e.caller ∈ c'.begun.map (·.caller))
  /-- Its deadline has passed. -/
  | cutOff {l} (deadline : limit = some l) (passed : l.expires ≤ e.time)
      (idle : c'.results = c.results)
      (outcome : e.outcome = .error (.resolutionTimeout l.duration.millis))

/-- A fate stays what it is when the slot stays as it is and no run ends. -/
theorem Fate.keep (hf : Fate i c c₁ limit e) (hg : c₁.Grows c₂)
    (hresults : c₂.results = c₁.results)
    (hdelegate : (c₂.slot i).delegate = (c₁.slot i).delegate) : Fate i c c₂ limit e := by
  cases hf with
  | served ho hd => exact .served ho (hdelegate.trans hd)
  | failed ho hr hb => exact .failed ho (hresults.trans hr) ((hg.begun.map _).subset hb)
  | cutOff hl hp hi ho => exact .cutOff hl hp (hresults.trans hi) ho

/-- A fate is the same seen from an earlier crowd if no run has ended since. -/
theorem Fate.of_results (hf : Fate i c₁ c₂ limit e) (hresults : c₁.results = c.results) :
    Fate i c c₂ limit e := by
  cases hf with
  | served ho hd => exact .served ho hd
  | failed ho hr hb => exact .failed ho (hresults ▸ hr) hb
  | cutOff hl hp hi ho => exact .cutOff hl hp (hi.trans hresults) ho

/-- What a single move does to the calls: it ends none, or one in one of the ways there are. -/
theorem Move.fate (hm : Move i h c c') (hreset : h ≠ .reset) (hr : c.Recalled) (ht : c.Traced i)
    (hf : (c.slot i).factory = some f) :
    (c'.ended = c.ended ∧ c'.results = c.results ∧
      (c'.slot i).delegate = (c.slot i).delegate) ∨
    ∃ e q, c'.ended = c.ended ++ [e] ∧ c'.arrivals[e.caller]? = some q ∧
      Fate i c c' q.limit e := by
  cases hm with
  | greet hh hd => exact .inr ⟨_, _, rfl, List.getElem?_concat_length, .served rfl hd⟩
  | refuse hh hd hn =>
    rw [hf] at hn
    cases hn
  | @find front r back f d hl hp hturn hd =>
    obtain ⟨q, hq, -⟩ := hr r (mem_of_live hl)
    exact .inr ⟨_, q, rfl, hq, .served rfl (by simpa [slot] using hd)⟩
  | @fail span front r back run g error hl hp hres =>
    obtain ⟨q, hq, -⟩ := hr r (mem_of_live hl)
    obtain ⟨-, hruns⟩ := ht.known r (mem_of_live hl)
    obtain ⟨f', -, hb, -⟩ := hruns run hp
    exact .inr ⟨_, q, rfl, hq, .failed rfl rfl (List.mem_map_of_mem hb)⟩
  | @install span front r back run g b d hl hp hres hd =>
    obtain ⟨q, hq, -⟩ := hr r (mem_of_live hl)
    exact .inr ⟨_, q, rfl, hq, .served rfl (by simp [slot])⟩
  | @expire span front r back l hl hlimit hpassed =>
    obtain ⟨q, hq, hql⟩ := hr r (mem_of_live hl)
    exact .inr ⟨_, q, rfl, hq, .cutOff (hql.trans hlimit) (of_decide_eq_true hpassed) rfl rfl⟩
  | work _ _ _ hres =>
    exact .inl ⟨rfl, rfl, by simp [slot, (FactoryRun.traffic_eq hres).slots]⟩
  | enter | abandon | register => exact .inl ⟨rfl, rfl, by simp [slot]⟩
  | launch | reject | elapse | meanwhile => exact .inl ⟨rfl, rfl, rfl⟩
  | reset hh => exact absurd hh hreset

/-! ## How steps end calls -/

/-- How far a step has come on its way from a crowd. -/
inductive Passage (i : Nat) (c c' : Crowd) : Prop
  /-- No call has ended. -/
  | pending (ended : c'.ended = c.ended) (results : c'.results = c.results)
  /-- One has. -/
  | finished {e : Ending} {q : Resolution} (ended : c'.ended = c.ended ++ [e])
      (arrival : c'.arrivals[e.caller]? = some q) (fate : Fate i c c' q.limit e)
  /-- Several have. -/
  | further (ended : c.ended.length + 1 < c'.ended.length)

/-- A move takes a step further on its way. -/
theorem Passage.move (hp : Passage i c c₁) (hm : Move i h c₁ c₂) (hreset : h ≠ .reset)
    (hr : c₁.Recalled) (ht : c₁.Traced i) (hf : (c₁.slot i).factory = some f) :
    Passage i c c₂ := by
  have hg := hm.grows
  rcases hm.fate hreset hr ht hf with ⟨hended, hresults, hdelegate⟩ | ⟨e, q, hended, hq, hfate⟩
  · cases hp with
    | pending he hs => exact .pending (hended.trans he) (hresults.trans hs)
    | finished he hq hfate =>
      exact .finished (hended.trans he) (getElem?_of_grows hg hq) (hfate.keep hg hresults hdelegate)
    | further hlt => exact .further (by rwa [hended])
  · cases hp with
    | pending he hs => exact .finished (hended.trans (by rw [he])) hq (hfate.of_results hs)
    | finished he => exact .further (by simp [hended, he])
    | further hlt =>
      refine .further ?_
      rw [hended, List.length_append]
      omega

/-- The factory that is registered stays until the slot is emptied. -/
theorem Move.factory_eq (hm : Move i h c c') (hreset : h ≠ .reset)
    (hf : (c.slot i).factory = some f) : (c'.slot i).factory = some f := by
  cases hm with
  | work _ _ _ hr | fail _ _ _ hr | install _ _ _ hr =>
    simpa [slot, (FactoryRun.traffic_eq hr).slots] using hf
  | enter | find | expire | abandon => simpa [slot] using hf
  | register hh hf' hn =>
    rw [hn] at hf
    cases hf
  | greet | refuse | launch | reject | elapse | meanwhile => exact hf
  | reset hh => exact absurd hh hreset

/-- **What a step can end a call in**, while there is a factory: the delegate of the slot, the error
of its own run, or its deadline. -/
theorem step_fate (he : c.Entered i) (ho : c.Orderly i) (hr : c.Recalled) (ht : c.Traced i)
    (hf : (c.slot i).factory = some f) (hreset : h ≠ .reset)
    (hended : (c.step i h).ended = c.ended ++ [e]) :
    ∃ q, (c.step i h).arrivals[e.caller]? = some q ∧ Fate i c (c.step i h) q.limit e := by
  have hmoves := moves_induction
    (P := fun c' => c'.Orderly i ∧ c'.Recalled ∧ c'.Traced i ∧ (c'.slot i).factory = some f ∧
      Passage i c c') ?_ (step_moves he h) he ⟨ho, hr, ht, hf, .pending rfl rfl⟩
  · obtain ⟨-, -, -, -, -, hp⟩ := hmoves
    cases hp with
    | pending hsame => simp [hsame] at hended
    | finished hended' hq hfate =>
      rw [← List.singleton_inj.mp (List.append_cancel_left (hended'.symm.trans hended))]
      exact ⟨_, hq, hfate⟩
    | further hlt => simp [hended] at hlt
  · rintro c₁ c₂ he₁ ⟨ho₁, hr₁, ht₁, hf₁, hp⟩ hm
    exact ⟨hm.orderly he₁ ho₁, hm.recalled hr₁, hm.traced ho₁ ht₁,
      hm.factory_eq hreset hf₁, hp.move hm hreset hr₁ ht₁ hf₁⟩

/-! ## Ends on record -/

/-- Every end on record that was not there before is the end of some step. -/
theorem exists_step_of_ended (hs : List Happening) (he : e ∈ (c.run i hs).ended) :
    e ∈ c.ended ∨ ∃ before h after, hs = before ++ h :: after ∧
      ((c.run i before).step i h).ended = (c.run i before).ended ++ [e] := by
  induction hs generalizing c with
  | nil => exact .inl he
  | cons h hs ih =>
    rcases ih (c := c.step i h) he with hstep | ⟨before, h', after, rfl, hended⟩
    · rcases ended_step i c h with hsame | ⟨e', hended, -⟩
      · exact .inl (hsame ▸ hstep)
      · rw [hended] at hstep
        rcases List.mem_append.mp hstep with hold | hnew
        · exact .inl hold
        · rw [← List.mem_singleton.mp hnew] at hended
          exact .inr ⟨[], h, hs, rfl, hended⟩
    · exact .inr ⟨h :: before, h', after, rfl, hended⟩

end Crowd

end MuxBridge
