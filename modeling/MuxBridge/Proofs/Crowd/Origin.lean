/-
# Where delegates come from

A caller reads the factory of the slot when it comes, and keeps it whatever becomes of the slot
while the caller waits for its turn or runs the factory. The numbers of callers and factories tell
on which side of the last reset they stand.

* `Crowd.Dated`: who came after the last reset holds the factory of the slot, and nobody else does;
* `Crowd.Traced`: every delegate has been built by one run, from what its factory made of it;
* `delegate_matches_factory_iff`: the delegate of a slot is of its factory iff the caller that
  built it came after the last reset.
-/
import Mathlib.Data.List.Nodup
import MuxBridge.Proofs.Crowd.Line

namespace MuxBridge

/-! ## What runs build -/

namespace FactoryRun

/-- What the run does. -/
def attempt : FactoryRun → Attempt
  | .resting a _ => a
  | .probing a _ => a

theorem outcome_of_conclude_ok {a : Attempt} {reply : Outcome Response} {b : Blueprint}
    (h : conclude a reply = .ok b) : a.outcome = .ok b := by
  unfold conclude at h
  split at h
  · cases h
  · split at h
    · cases h
    · exact h

variable {g g' : Gateway} {span : Span} {t : Transport} {run run' : FactoryRun}

/-- A probe that goes on waits for the same reply. -/
theorem eq_of_resumeProbe_waiting {a : Attempt} {trip : RoundTrip}
    (h : resumeProbe g span a trip = (g', .waiting run')) :
    run' = .probing a trip ∧ ∀ time ∈ trip.alarms, g.now < time := by
  unfold resumeProbe at h
  rcases hr : trip.resume g span with ⟨g₁, trip' | reply⟩
  · rw [hr] at h
    obtain ⟨htrip, hlate⟩ := RoundTrip.eq_of_resume_waiting hr
    rw [← Course.waiting.inj (Prod.mk.inj h).2, htrip]
    exact ⟨rfl, hlate⟩
  · rw [hr] at h
    cases (Prod.mk.inj h).2

/-- A run that goes on does the same. -/
theorem attempt_of_resume_waiting (h : run.resume g span t = (g', .waiting run')) :
    run'.attempt = run.attempt := by
  cases run with
  | resting a time =>
    simp only [resume] at h
    split at h
    · split at h
      · rw [(eq_of_resumeProbe_waiting h).1]
        rfl
      · cases (Prod.mk.inj h).2
    · rw [← Course.waiting.inj (Prod.mk.inj h).2]
  | probing a trip => rw [(eq_of_resumeProbe_waiting h).1]

theorem outcome_of_resumeProbe_ok {a : Attempt} {trip : RoundTrip} {b : Blueprint}
    (h : resumeProbe g span a trip = (g', .ended (.ok b))) : a.outcome = .ok b := by
  unfold resumeProbe at h
  rcases hr : trip.resume g span with ⟨g₁, trip' | reply⟩
  · rw [hr] at h
    cases (Prod.mk.inj h).2
  · rw [hr] at h
    exact outcome_of_conclude_ok (Course.ended.inj (Prod.mk.inj h).2)

/-- A run that has a delegate to build is one whose factory says so. -/
theorem outcome_of_resume_ok {b : Blueprint} (h : run.resume g span t = (g', .ended (.ok b))) :
    run.attempt.outcome = .ok b := by
  cases run with
  | resting a time =>
    simp only [resume] at h
    split at h
    · split at h
      · exact outcome_of_resumeProbe_ok h
      · exact Course.ended.inj (Prod.mk.inj h).2
    · cases (Prod.mk.inj h).2
  | probing a trip => exact outcome_of_resumeProbe_ok h

end FactoryRun

/-- Some run of the factory for a caller with the transport builds the delegate. -/
def Factory.Builds (f : Factory) (t : Transport) (d : Delegate) : Prop :=
  ∃ n b, (f.attempt n).outcome = .ok b ∧ d = b.build d.number t

namespace Crowd

variable {i : Nat} {h : Happening} {c c' : Crowd} {front back : List Resolution}
  {q r r' : Resolution}

/-! ## What is on record stays there -/

/-- Nothing has been struck from the records. -/
structure Grows (c c' : Crowd) : Prop where
  arrivals : c.arrivals <+: c'.arrivals
  begun : c.begun <+: c'.begun
  results : c.results <+: c'.results
  ended : c.ended <+: c'.ended
  offers : c.offers <+: c'.offers

theorem Grows.refl (c : Crowd) : c.Grows c :=
  ⟨List.prefix_rfl, List.prefix_rfl, List.prefix_rfl, List.prefix_rfl, List.prefix_rfl⟩

theorem Grows.trans {c₁ c₂ c₃ : Crowd} (h : c₁.Grows c₂) (h' : c₂.Grows c₃) : c₁.Grows c₃ :=
  ⟨h.arrivals.trans h'.arrivals, h.begun.trans h'.begun, h.results.trans h'.results,
    h.ended.trans h'.ended, h.offers.trans h'.offers⟩

theorem Move.grows (hm : Move i h c c') : c.Grows c' := by
  cases hm <;> constructor <;> simp [note, noteResult]

/-- Nothing is struck from the records in a run. -/
theorem grows_run (he : c.Entered i) (hs : List Happening) : c.Grows (c.run i hs) :=
  (run_induction hs (fun _ _ _ _ _ hg hm => hg.trans hm.grows) he (.refl c)).2

/-! ## Factories and resets -/

/-- The caller holds a factory that was offered before, and it is the factory of the slot iff the
caller came after the last reset. -/
def Holds (i : Nat) (c : Crowd) (caller : Nat) (f : Factory) : Prop :=
  f.serial < c.offers.length ∧ ((c.slot i).factory = some f ↔ c.resetAt ≤ caller)

/-- Callers and their factories stand on one side of the last reset. -/
structure Dated (i : Nat) (c : Crowd) : Prop where
  resetAt : c.resetAt ≤ c.arrivals.length
  offered : ∀ f, (c.slot i).factory = some f → f.serial < c.offers.length
  queued : ∀ r ∈ c.live, ∀ f, r.phase = .queued f → Holds i c r.caller f
  begun : ∀ b ∈ c.begun, Holds i c b.caller b.factory

/-- The factory of the slot and the last reset are the same as before. -/
theorem Dated.keep (hc : c.Dated i) (hg : c.Grows c')
    (hfactory : (c'.slot i).factory = (c.slot i).factory) (hreset : c'.resetAt = c.resetAt)
    (hqueued : ∀ r ∈ c'.live, ∀ f, r.phase = .queued f → Holds i c r.caller f)
    (hbegun : ∀ b ∈ c'.begun, Holds i c b.caller b.factory) : c'.Dated i := by
  have hoffers := hg.offers.length_le
  have hholds : ∀ a f, Holds i c a f → Holds i c' a f := by
    rintro a f ⟨hlt, hiff⟩
    refine ⟨by omega, ?_⟩
    rw [hfactory, hreset]
    exact hiff
  exact {
    resetAt := by
      rw [hreset]
      exact hc.resetAt.trans hg.arrivals.length_le
    offered := by
      intro f hf
      rw [hfactory] at hf
      exact (hc.offered f hf).trans_le hoffers
    queued := fun r hr f hf => hholds _ _ (hqueued r hr f hf)
    begun := fun b hb => hholds _ _ (hbegun b hb) }

/-- A factory that is taken is none that a caller holds already. -/
theorem Dated.register {attempt : Nat → Attempt} (hc : c.Dated i)
    (hn : (c.slot i).factory = none)
    (hfactory : (c'.slot i).factory = some ⟨c.offers.length, attempt⟩)
    (hoffers : c'.offers = c.offers ++ [⟨c.offers.length, attempt⟩])
    (hreset : c'.resetAt = c.resetAt) (harrivals : c'.arrivals = c.arrivals)
    (hlive : c'.live = c.live) (hbegun : c'.begun = c.begun) : c'.Dated i := by
  have hlength : c'.offers.length = c.offers.length + 1 := by simp [hoffers]
  have hholds : ∀ a f, Holds i c a f → Holds i c' a f := by
    rintro a f ⟨hlt, hiff⟩
    refine ⟨by omega, ?_⟩
    -- nobody holds the factory of an empty slot, nor one with a number not given before
    rw [hfactory, hreset, ← hiff, hn]
    constructor
    · intro heq
      rw [← Option.some.inj heq] at hlt
      exact absurd hlt (by simp)
    · intro heq
      cases heq
  exact {
    resetAt := by rw [hreset, harrivals]; exact hc.resetAt
    offered := by
      intro f hf
      rw [hfactory] at hf
      rw [← Option.some.inj hf, hlength]
      exact Nat.lt_succ_self _
    queued := by
      rw [hlive]
      exact fun r hr f hf => hholds _ _ (hc.queued r hr f hf)
    begun := by
      rw [hbegun]
      exact fun b hb => hholds _ _ (hc.begun b hb) }

/-- After a reset everybody has come before it, and nobody holds the factory of the slot. -/
theorem Dated.reset (hc : c.Dated i) (ho : c.Orderly i) (hfactory : (c'.slot i).factory = none)
    (hoffers : c'.offers = c.offers) (hreset : c'.resetAt = c.arrivals.length)
    (harrivals : c'.arrivals = c.arrivals) (hlive : c'.live = c.live)
    (hbegun : c'.begun = c.begun) : c'.Dated i := by
  have hholds : ∀ a f, a < c.arrivals.length → Holds i c a f → Holds i c' a f := by
    rintro a f ha ⟨hlt, -⟩
    refine ⟨by rw [hoffers]; exact hlt, ?_⟩
    rw [hfactory, hreset]
    constructor
    · intro heq
      cases heq
    · intro hle
      omega
  exact {
    resetAt := by rw [hreset, harrivals]
    offered := by
      intro f hf
      rw [hfactory] at hf
      cases hf
    queued := by
      rw [hlive]
      exact fun r hr f hf =>
        hholds _ _ (ho.arrived _ (List.mem_map_of_mem hr)) (hc.queued r hr f hf)
    begun := by
      rw [hbegun]
      exact fun b hb => hholds _ _ (ho.began b hb) (hc.begun b hb) }

/-- Every move leaves callers and factories on their side of the last reset. -/
theorem Move.dated (hm : Move i h c c') (ho : c.Orderly i) (hc : c.Dated i) : c'.Dated i := by
  have hg := hm.grows
  cases hm with
  | greet | refuse => exact hc.keep hg rfl rfl hc.queued hc.begun
  | @enter _ t timeout f hh hd hf =>
    refine hc.keep hg (by simp [slot]) rfl ?_ hc.begun
    intro q hq f' hf'
    rcases List.mem_append.mp hq with hq | hq
    · exact hc.queued q hq f' hf'
    · rw [List.mem_singleton.mp hq] at hf' ⊢
      rw [← Phase.queued.inj hf']
      -- who comes now comes after the last reset, and reads the factory of the slot
      exact ⟨hc.offered f hf, iff_of_true hf hc.resetAt⟩
  | find hl | expire _ hl | abandon _ hl =>
    refine hc.keep hg (by simp [slot]) rfl ?_ hc.begun
    exact fun q hq => hc.queued q (mem_of_around hl hq)
  | @launch _ front r back f _ hl hp =>
    refine hc.keep hg rfl rfl ?_ ?_
    · intro q hq f' hf'
      rcases mem_of_replaced hl hq with hq | rfl
      · exact hc.queued q hq f' hf'
      · cases hf'
    · intro b hb
      rcases List.mem_append.mp hb with hb | hb
      · exact hc.begun b hb
      · rw [List.mem_singleton.mp hb]
        exact hc.queued r (mem_of_live hl) f hp
  | work _ hl hp hr =>
    have hslots := (FactoryRun.traffic_eq hr).slots
    refine hc.keep hg (by simp [slot, hslots]) rfl ?_ hc.begun
    intro q hq f' hf'
    rcases mem_of_replaced hl hq with hq | rfl
    · exact hc.queued q hq f' hf'
    · cases hf'
  | fail _ hl hp hr | install _ hl hp hr =>
    have hslots := (FactoryRun.traffic_eq hr).slots
    refine hc.keep hg (by simp [slot, hslots]) rfl ?_ hc.begun
    exact fun q hq => hc.queued q (mem_of_around hl hq)
  | register hh hf hn =>
    subst hf
    exact hc.register hn (by simp [slot]) rfl rfl rfl rfl rfl
  | reset => exact hc.reset ho (by simp [slot]) rfl rfl rfl rfl rfl
  | reject | elapse | meanwhile => exact hc.keep hg rfl rfl hc.queued hc.begun

theorem dated_start : start.Dated i where
  resetAt := Nat.le_refl 0
  offered := by simp [slot, start, opening, Gateway.start, Slot.empty]
  queued := by simp [start, opening]
  begun := by simp [start, opening]

/-- Callers and factories stand on one side of the last reset after every run. -/
theorem dated_run (i : Nat) (hs : List Happening) : (start.run i hs).Dated i :=
  (orderly_induction hs (fun _ _ _ _ _ ho hc hm => hm.dated ho hc) (entered_opening _)
    (orderly_opening rfl) dated_start).2.2

/-! ## Delegates and runs -/

/-- The run has built the delegate: its caller got it. -/
def Made (c : Crowd) (b : Beginning) (d : Delegate) : Prop :=
  b ∈ c.begun ∧ ∃ e ∈ c.ended, e.caller = b.caller ∧ e.outcome = .ok d

/-- The call is on record with its transport, and so is its run if it has one. -/
def Known (c : Crowd) (r : Resolution) : Prop :=
  (∃ q, c.arrivals[r.caller]? = some q ∧ q.transport = r.transport) ∧
    ∀ run, r.phase = .running run →
      ∃ f n, ⟨r.caller, f⟩ ∈ c.begun ∧ run.attempt = f.attempt n

/-- Delegates and runs agree. -/
structure Traced (i : Nat) (c : Crowd) : Prop where
  known : ∀ r ∈ c.live, c.Known r
  /-- What a run has built is what its factory makes of it. -/
  builds : ∀ b d, c.Made b d → d.number < c.gateway.delegates ∧
    ∃ q, c.arrivals[b.caller]? = some q ∧ b.factory.Builds q.transport d
  /-- No two runs have built the same delegate. -/
  once : ∀ b b' d, c.Made b d → c.Made b' d → b = b'
  installed : ∀ d, (c.slot i).delegate = some d → ∃ b, c.Made b d

theorem Made.mono {b : Beginning} {d : Delegate} (hmade : c.Made b d) (hg : c.Grows c') :
    c'.Made b d := by
  obtain ⟨hb, e, he, hcaller, ho⟩ := hmade
  exact ⟨hg.begun.subset hb, e, hg.ended.subset he, hcaller, ho⟩

theorem getElem?_of_grows {a : Nat} (hg : c.Grows c') (hq : c.arrivals[a]? = some q) :
    c'.arrivals[a]? = some q := by
  obtain ⟨new, hnew⟩ := hg.arrivals
  rw [← hnew, List.getElem?_append_left (List.getElem?_eq_some_iff.mp hq).1]
  exact hq

theorem Known.mono (hk : c.Known r) (hg : c.Grows c') : c'.Known r := by
  obtain ⟨⟨q, hq, ht⟩, hrun⟩ := hk
  refine ⟨⟨q, getElem?_of_grows hg hq, ht⟩, ?_⟩
  intro run hphase
  obtain ⟨f, n, hb, ha⟩ := hrun run hphase
  exact ⟨f, n, hg.begun.subset hb, ha⟩

/-- Nothing has been built since. -/
theorem Traced.keep (hc : c.Traced i) (hg : c.Grows c')
    (hdelegates : c.gateway.delegates ≤ c'.gateway.delegates) (hlive : ∀ r ∈ c'.live, c'.Known r)
    (hmade : ∀ b d, c'.Made b d → c.Made b d)
    (hinstalled : ∀ d, (c'.slot i).delegate = some d → (c.slot i).delegate = some d) :
    c'.Traced i where
  known := hlive
  builds := by
    intro b d hbd
    obtain ⟨hlt, q, hq, hb⟩ := hc.builds b d (hmade b d hbd)
    exact ⟨hlt.trans_le hdelegates, q, getElem?_of_grows hg hq, hb⟩
  once := fun b b' d hb hb' => hc.once b b' d (hmade b d hb) (hmade b' d hb')
  installed := by
    intro d hd
    obtain ⟨b, hb⟩ := hc.installed d (hinstalled d hd)
    exact ⟨b, hb.mono hg⟩

/-- The end of a call adds to what runs have built only if the call has begun one and succeeds. -/
theorem made_of_end {e : Ending} {b : Beginning} {d : Delegate} (hbegun : c'.begun = c.begun)
    (hended : c'.ended = c.ended ++ [e]) (hmade : c'.Made b d) :
    c.Made b d ∨ b ∈ c.begun ∧ e.caller = b.caller ∧ e.outcome = .ok d := by
  obtain ⟨hb, e', he', hcaller, ho⟩ := hmade
  rw [hbegun] at hb
  rw [hended] at he'
  rcases List.mem_append.mp he' with he' | he'
  · exact .inl ⟨hb, e', he', hcaller, ho⟩
  · rw [List.mem_singleton.mp he'] at hcaller ho
    exact .inr ⟨hb, hcaller, ho⟩

/-- The end of a call without a run, or in an error, builds nothing. -/
theorem made_of_idle {e : Ending} (hbegun : c'.begun = c.begun)
    (hended : c'.ended = c.ended ++ [e])
    (he : e.caller ∉ c.begun.map (·.caller) ∨ ∀ d, e.outcome ≠ .ok d) (b : Beginning)
    (d : Delegate) (hmade : c'.Made b d) : c.Made b d := by
  rcases made_of_end hbegun hended hmade with hmade | ⟨hb, hcaller, ho⟩
  · exact hmade
  · rcases he with he | he
    · exact absurd (hcaller ▸ List.mem_map_of_mem hb) he
    · exact absurd ho (he d)

/-- The delegate that a run builds is new, and it goes to the run's caller. -/
theorem Traced.install {run : FactoryRun} {bp : Blueprint} {e : Ending} (hc : c.Traced i)
    (ho : c.Orderly i) (hl : c.live = front ++ r :: back) (hp : r.phase = .running run)
    (hrun : run.attempt.outcome = .ok bp) (hg : c.Grows c')
    (hdelegates : c'.gateway.delegates = c.gateway.delegates + 1)
    (hlive : c'.live = front ++ back) (hbegun : c'.begun = c.begun)
    (hended : c'.ended = c.ended ++ [e]) (hcaller : e.caller = r.caller)
    (houtcome : e.outcome = .ok (bp.build c.gateway.delegates r.transport))
    (hinstalled : (c'.slot i).delegate = some (bp.build c.gateway.delegates r.transport)) :
    c'.Traced i := by
  obtain ⟨⟨q, hq, ht⟩, hruns⟩ := hc.known r (mem_of_live hl)
  obtain ⟨f, n, hf, ha⟩ := hruns run hp
  have hnew : ∀ b d, c'.Made b d → c.Made b d ∨
      b = ⟨r.caller, f⟩ ∧ d = bp.build c.gateway.delegates r.transport := by
    intro b d hmade
    rcases made_of_end hbegun hended hmade with hmade | ⟨hb, hb', hd⟩
    · exact .inl hmade
    · rw [hcaller] at hb'
      rw [houtcome] at hd
      -- a caller has begun one run at most
      exact .inr ⟨List.inj_on_of_nodup_map ho.begunOnce hb hf hb'.symm, (Except.ok.inj hd).symm⟩
  exact {
    known := by
      intro p hp'
      rw [hlive] at hp'
      exact (hc.known p (mem_of_around hl hp')).mono hg
    builds := by
      intro b d hmade
      rcases hnew b d hmade with hmade | ⟨rfl, rfl⟩
      · obtain ⟨hlt, q', hq', hb⟩ := hc.builds b d hmade
        exact ⟨by omega, q', getElem?_of_grows hg hq', hb⟩
      · refine ⟨?_, q, getElem?_of_grows hg hq, n, bp, ?_, ?_⟩
        · rw [hdelegates]
          exact Nat.lt_succ_self _
        · rw [← ha]
          exact hrun
        · rw [ht]
          rfl
    once := by
      -- the new delegate has a number that none had before
      intro b b' d hb hb'
      rcases hnew b d hb with hb | ⟨rfl, rfl⟩
      · rcases hnew b' d hb' with hb' | ⟨rfl, rfl⟩
        · exact hc.once b b' d hb hb'
        · exact absurd (hc.builds b _ hb).1 (Nat.lt_irrefl _)
      · rcases hnew b' _ hb' with hb' | ⟨rfl, -⟩
        · exact absurd (hc.builds b' _ hb').1 (Nat.lt_irrefl _)
        · rfl
    installed := by
      intro d hd
      rw [hinstalled] at hd
      rw [← Option.some.inj hd]
      refine ⟨⟨r.caller, f⟩, ?_, e, ?_, hcaller, houtcome⟩
      · rw [hbegun]
        exact hf
      · rw [hended]
        simp }

/-- Every move leaves delegates and runs in agreement. -/
theorem Move.traced (hm : Move i h c c') (ho : c.Orderly i) (hc : c.Traced i) : c'.Traced i := by
  have hg := hm.grows
  cases hm with
  | greet hh hd | refuse hh hd =>
    refine hc.keep hg (Nat.le_refl _) (fun q hq => (hc.known q hq).mono hg) ?_ (fun d hd => hd)
    -- the number of a new caller is none of a caller with a run
    refine made_of_idle rfl rfl (.inl ?_)
    intro hmem
    obtain ⟨b, hb, hcaller⟩ := List.mem_map.mp hmem
    exact absurd (ho.began b hb) (by simp [hcaller])
  | enter hh hd hf =>
    refine hc.keep hg (Nat.le_refl _) ?_ (fun b d hmade => hmade) (by simp [slot])
    intro q hq
    rcases List.mem_append.mp hq with hq | hq
    · exact (hc.known q hq).mono hg
    · rw [List.mem_singleton.mp hq]
      refine ⟨⟨_, List.getElem?_concat_length, rfl⟩, ?_⟩
      intro run hrun
      cases hrun
  | @find front r back f d hl hp ht hd =>
    refine hc.keep hg (Nat.le_refl _) ?_ ?_ (by simp [slot])
    · exact fun q hq => (hc.known q (mem_of_around hl hq)).mono hg
    · exact made_of_idle rfl rfl (.inl (ho.waiting r (mem_of_live hl) f hp))
  | @launch span front r back f a hl hp ht hd ha =>
    refine hc.keep hg (Nat.le_refl _) ?_ ?_ (fun d hd => hd)
    · intro q hq
      rcases mem_of_replaced hl hq with hq | rfl
      · exact (hc.known q hq).mono hg
      · refine ⟨((hc.known r (mem_of_live hl)).mono hg).1, ?_⟩
        intro run hrun
        rw [← Phase.running.inj hrun]
        exact ⟨f, _, by simp [note], ha⟩
    · rintro b d ⟨hb, e, he, hcaller, hok⟩
      refine ⟨?_, e, he, hcaller, hok⟩
      rcases List.mem_append.mp hb with hb | hb
      · exact hb
      · -- Who begins a run has not ended.
        refine absurd ?_ (ho.gone e he).2
        rw [hcaller, List.mem_singleton.mp hb, callers_of_live hl]
        simp
  | @work span front r back run g run' hl hp hr =>
    have htraffic := FactoryRun.traffic_eq hr
    refine hc.keep hg htraffic.delegates.ge ?_ (fun b d hmade => hmade)
      (by simp [slot, htraffic.slots])
    intro q hq
    rcases mem_of_replaced hl hq with hq | rfl
    · exact (hc.known q hq).mono hg
    · obtain ⟨hcame, hruns⟩ := (hc.known r (mem_of_live hl)).mono hg
      refine ⟨hcame, ?_⟩
      intro run'' hrun
      obtain ⟨f, n, hb, ha⟩ := hruns run hp
      rw [← Phase.running.inj hrun, FactoryRun.attempt_of_resume_waiting hr]
      exact ⟨f, n, hb, ha⟩
  | @fail span front r back run g e hl hp hr =>
    have htraffic := FactoryRun.traffic_eq hr
    refine hc.keep hg htraffic.delegates.ge ?_ ?_ (by simp [slot, htraffic.slots])
    · exact fun q hq => (hc.known q (mem_of_around hl hq)).mono hg
    · exact made_of_idle rfl rfl (.inr (by simp))
  | @install span front r back run g bp d hl hp hr hd =>
    have htraffic := FactoryRun.traffic_eq hr
    subst hd
    exact hc.install ho hl hp (FactoryRun.outcome_of_resume_ok hr) hg
      (congrArg (· + 1) htraffic.delegates) rfl rfl rfl rfl rfl (by simp [slot])
  | expire span hl hr ht =>
    refine hc.keep hg (Nat.le_refl _) ?_ ?_ (by simp [slot])
    · exact fun q hq => (hc.known q (mem_of_around hl hq)).mono hg
    · exact made_of_idle rfl rfl (.inr (by simp))
  | abandon hh hl =>
    refine hc.keep hg (Nat.le_refl _) ?_ (fun b d hmade => hmade) (by simp [slot])
    exact fun q hq => (hc.known q (mem_of_around hl hq)).mono hg
  | register | reset =>
    exact hc.keep hg (Nat.le_refl _) (fun q hq => (hc.known q hq).mono hg)
      (fun b d hmade => hmade) (by simp [slot])
  | reject | elapse =>
    exact hc.keep hg (Nat.le_refl _) (fun q hq => (hc.known q hq).mono hg)
      (fun b d hmade => hmade) (fun d hd => hd)
  | meanwhile =>
    exact hc.keep hg (Nat.le_add_right _ _) (fun q hq => (hc.known q hq).mono hg)
      (fun b d hmade => hmade) (fun d hd => hd)

theorem traced_opening {g : Gateway} (hd : (g.slots i).delegate = none) :
    (opening g).Traced i where
  known := by simp [opening]
  builds := by
    rintro b d ⟨hb, -⟩
    cases hb
  once := by
    rintro b b' d ⟨hb, -⟩
    cases hb
  installed := by simp [slot, opening, hd]

/-- Delegates and runs agree after every run. -/
theorem traced_run (i : Nat) (hs : List Happening) : (start.run i hs).Traced i :=
  (orderly_induction hs (fun _ _ _ _ _ ho hc hm => hm.traced ho hc) (entered_opening _)
    (orderly_opening rfl) (traced_opening rfl)).2.2

/-! ## Delegates and factories of a slot -/

/-- A delegate in the slot has been built by the factory that is in it. -/
def Matches (i : Nat) (c : Crowd) : Prop :=
  ∀ d, (c.slot i).delegate = some d → ∃ b, c.Made b d ∧ (c.slot i).factory = some b.factory

/-- **A delegate and the factory beside it**: whatever has happened, the delegate of the slot has
been built by exactly one run, from what the factory of that run makes of its caller's transport.
That factory is still the one in the slot iff the caller came after the last reset. So delegate and
factory belong together except when a call outlives a reset and then installs its delegate. -/
theorem delegate_matches_factory_iff (i : Nat) (hs : List Happening) :
    let c := start.run i hs
    (∀ d, (c.slot i).delegate = some d → ∃! b, c.Made b d) ∧
    (∀ b d, c.Made b d →
      (∃ q, c.arrivals[b.caller]? = some q ∧ b.factory.Builds q.transport d) ∧
        ((c.slot i).factory = some b.factory ↔ c.resetAt ≤ b.caller)) ∧
    (c.Matches i ↔
      ∀ b d, (c.slot i).delegate = some d → c.Made b d → c.resetAt ≤ b.caller) := by
  intro c
  have hdated : c.Dated i := dated_run i hs
  have htraced : c.Traced i := traced_run i hs
  have hiff : ∀ b d, c.Made b d → ((c.slot i).factory = some b.factory ↔ c.resetAt ≤ b.caller) :=
    fun b d hmade => (hdated.begun b hmade.1).2
  refine ⟨?_, ?_, ?_⟩
  · intro d hd
    obtain ⟨b, hb⟩ := htraced.installed d hd
    exact ⟨b, hb, fun b' hb' => htraced.once b' b d hb' hb⟩
  · intro b d hmade
    exact ⟨(htraced.builds b d hmade).2, hiff b d hmade⟩
  · constructor
    · intro hmatches b d hd hmade
      obtain ⟨b', hmade', hf⟩ := hmatches d hd
      rw [htraced.once b b' d hmade hmade']
      exact (hiff b' d hmade').mp hf
    · intro hlate d hd
      obtain ⟨b, hmade⟩ := htraced.installed d hd
      exact ⟨b, hmade, (hiff b d hmade).mpr (hlate b d hd hmade)⟩

/-- A reset while one call runs the factory and another one waits. -/
def resetMidway : List Happening :=
  [.register fun _ => ⟨50, false, .ok ⟨none, .empty⟩⟩, .call .none default none, .elapse 10,
    .call .none default none, .elapse 10, .reset, .elapse 30, .resume .none 0, .resume .none 1]

/-- A call that outlives a reset leaves its delegate in a slot without a factory. -/
theorem not_matches_of_reset_midway : ¬ (start.run 0 resetMidway).Matches 0 := by
  intro hmatches
  have hdelegate : ((start.run 0 resetMidway).slot 0).delegate = some ⟨0, default, .empty⟩ := by
    decide
  have hfactory : ((start.run 0 resetMidway).slot 0).factory.isSome = false := by decide
  obtain ⟨b, -, hb⟩ := hmatches _ hdelegate
  rw [hb] at hfactory
  cases hfactory

end Crowd

end MuxBridge
