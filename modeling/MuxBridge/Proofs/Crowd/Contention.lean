/-
# Contention

Callers without a deadline wait for the delegate of one slot, whose factory fails at first. Runs
that fail are paid for by the callers in the order in which they came: each of the first callers
gets the error of one run, until a run succeeds; its caller and all behind him get the delegate.

* `Crowd.Calm`: nobody has a deadline, and all runs are of one factory;
* `Crowd.Failing`, `Crowd.Served`: the slot before and after the first run that succeeds;
* `Move.contended`: every patient move leaves the slot failing or served.
-/
import MuxBridge.Proofs.Crowd.Agreement

namespace MuxBridge

/-! ## Contention -/

/-- Errors one after the other, and a value ever after. -/
def failingFirst {α : Type} (errors : List Failure) (a : α) (k : Nat) : Outcome α :=
  match errors[k]? with
  | some e => .error e
  | none => .ok a

section failingFirst

variable {α : Type} {errors : List Failure} {a b : α} {k : Nat} {e : Failure}

theorem failingFirst_of_some (h : errors[k]? = some e) :
    failingFirst errors a k = .error e := by
  rw [failingFirst, h]

theorem failingFirst_of_le (h : errors.length ≤ k) : failingFirst errors a k = .ok a := by
  rw [failingFirst, List.getElem?_eq_none h]

theorem eq_some_of_failingFirst (h : failingFirst errors a k = .error e) :
    errors[k]? = some e := by
  unfold failingFirst at h
  split at h
  · next hk => rw [hk, Except.error.inj h]
  · cases h

theorem le_of_failingFirst (h : failingFirst errors a k = .ok b) :
    errors.length ≤ k ∧ b = a := by
  unfold failingFirst at h
  split at h
  · cases h
  · next hk => exact ⟨List.getElem?_eq_none_iff.mp hk, (Except.ok.inj h).symm⟩

end failingFirst

/-- No call that comes has a deadline, no call is dropped, and the slot is not emptied. -/
def Happening.isPatient : Happening → Bool
  | .call _ _ timeout => timeout.isNone
  | .abandon _ | .reset => false
  | .resume _ _ | .register _ | .elapse _ | .meanwhile _ _ => true

namespace Crowd

variable {i : Nat} {h : Happening} {c c' : Crowd} {front back : List Resolution}
  {q r : Resolution} {f : Factory} {errors : List Failure} {bp : Blueprint}

/-- The slot has this factory, which has run for all who ran one, and whoever came waits patiently
or has ended. -/
structure Calm (i : Nat) (f : Factory) (c : Crowd) : Prop where
  factory : (c.slot i).factory = some f
  unlimited : ∀ r ∈ c.live, r.limit = none
  queued : ∀ r ∈ c.live, ∀ f', r.phase = .queued f' → f' = f
  begun : ∀ b ∈ c.begun, b.factory = f
  covered : ∀ a, a < c.arrivals.length → a ∈ c.callers ∨ a ∈ c.ended.map (·.caller)

/-- Calls under way have gone on or have ended. -/
theorem Calm.keep (hc : c.Calm i f) (hg : c.Grows c')
    (hfactory : (c'.slot i).factory = (c.slot i).factory) (harrivals : c'.arrivals = c.arrivals)
    (hbegun : ∀ b ∈ c'.begun, b ∈ c.begun ∨ b.factory = f)
    (hlive : ∀ q ∈ c'.live, q ∈ c.live ∨
      ∃ r ∈ c.live, ∃ run, q = { r with phase := .running run })
    (hcallers : ∀ a ∈ c.callers, a ∈ c'.callers ∨ a ∈ c'.ended.map (·.caller)) :
    c'.Calm i f where
  factory := hfactory.trans hc.factory
  unlimited := by
    intro q hq
    rcases hlive q hq with hq | ⟨r, hr, run, rfl⟩
    · exact hc.unlimited q hq
    · exact hc.unlimited r hr
  queued := by
    intro q hq f' hf'
    rcases hlive q hq with hq | ⟨r, hr, run, rfl⟩
    · exact hc.queued q hq f' hf'
    · cases hf'
  begun := by
    intro b hb
    rcases hbegun b hb with hb | hb
    · exact hc.begun b hb
    · exact hb
  covered := by
    intro a ha
    rw [harrivals] at ha
    rcases hc.covered a ha with ha | ha
    · exact hcallers a ha
    · exact .inr ((hg.ended.map _).subset ha)

/-- Every patient move keeps a slot calm. -/
theorem Move.calm (hm : Move i h c c') (hpatient : h.isPatient = true) (hc : c.Calm i f) :
    c'.Calm i f := by
  have hg := hm.grows
  cases hm with
  | @greet _ _ _ d hh hd =>
    refine { hc with covered := ?_ }
    intro a ha
    rw [List.length_append, List.length_singleton] at ha
    rcases Nat.lt_succ_iff_lt_or_eq.mp ha with ha | rfl
    · exact (hc.covered a ha).imp_right fun ha => by simp [List.map_append, List.mem_append, ha]
    · exact .inr (by simp)
  | refuse hh hd hf =>
    rw [hc.factory] at hf
    cases hf
  | @enter span t timeout f' hh hd hf =>
    have hnone : timeout = none := by
      subst hh
      exact Option.isNone_iff_eq_none.mp hpatient
    exact {
      factory := by simp [slot, ← hc.factory]
      unlimited := by
        intro q hq
        rcases List.mem_append.mp hq with hq | hq
        · exact hc.unlimited q hq
        · rw [List.mem_singleton.mp hq]
          simp [newcomer, Resolution.start, hnone]
      queued := by
        intro q hq f'' hf''
        rcases List.mem_append.mp hq with hq | hq
        · exact hc.queued q hq f'' hf''
        · rw [List.mem_singleton.mp hq] at hf''
          rw [← Phase.queued.inj hf'']
          exact Option.some.inj (hf.symm.trans hc.factory)
      begun := hc.begun
      covered := by
        intro a ha
        rw [List.length_append, List.length_singleton] at ha
        simp only [callers, List.map_append, List.mem_append]
        rcases Nat.lt_succ_iff_lt_or_eq.mp ha with ha | rfl
        · exact (hc.covered a ha).imp_left .inl
        · exact .inl (.inr (by simp [newcomer, Resolution.start])) }
  | find hl | expire _ hl =>
    exact hc.keep hg (by simp [slot]) rfl (fun b hb => .inl hb)
      (fun q hq => .inl (mem_of_around hl hq)) (fun a ha => callers_of_ended hl rfl rfl rfl ha)
  | @launch span front r back f' a hl hp =>
    refine hc.keep hg rfl rfl ?_ ?_ ?_
    · intro b hb
      rcases List.mem_append.mp hb with hb | hb
      · exact .inl hb
      · rw [List.mem_singleton.mp hb]
        exact .inr (hc.queued r (mem_of_live hl) f' hp)
    · exact fun q hq => (mem_of_replaced hl hq).imp_right fun hq => ⟨r, mem_of_live hl, _, hq⟩
    · intro a ha
      left
      rw [callers_of_live hl] at ha
      simpa [callers] using ha
  | @work span front r back run g run' hl hp hr =>
    have hslots := (FactoryRun.traffic_eq hr).slots
    refine hc.keep hg (by simp [slot, hslots]) rfl (fun b hb => .inl hb) ?_ ?_
    · exact fun q hq => (mem_of_replaced hl hq).imp_right fun hq => ⟨r, mem_of_live hl, _, hq⟩
    · intro a ha
      left
      rw [callers_of_live hl] at ha
      simpa [callers] using ha
  | fail _ hl hp hr | install _ hl hp hr =>
    have hslots := (FactoryRun.traffic_eq hr).slots
    exact hc.keep hg (by simp [slot, hslots]) rfl (fun b hb => .inl hb)
      (fun q hq => .inl (mem_of_around hl hq)) (fun a ha => callers_of_ended hl rfl rfl rfl ha)
  | abandon hh | reset hh =>
    subst hh
    cases hpatient
  | register hh hf hn =>
    rw [hc.factory] at hn
    cases hn
  | reject | elapse | meanwhile =>
    exact hc.keep hg rfl rfl (fun b hb => .inl hb) (fun q hq => .inl hq) (fun a ha => .inl ha)

/-- The gateway has counted every run of a calm slot as one of its factory. -/
theorem Calm.runs_eq {g : Gateway} (hc : c.Calm i f) (hg : c.Counted g) :
    c.gateway.runs f.serial = g.runs f.serial + c.begun.length := by
  rw [hg.each, List.countP_eq_length.mpr]
  intro b hb
  rw [hc.begun b hb]
  exact beq_self_eq_true _

theorem calm_opening {g : Gateway} (hf : (g.slots i).factory = some f) :
    (opening g).Calm i f where
  factory := hf
  unlimited := by simp [opening]
  queued := by simp [opening]
  begun := by simp [opening]
  covered := by simp [opening]

/-! ## Before and after the first success -/

/-- The first runs have ended in these errors, and the next one, if there was one, in success. -/
def Results (errors : List Failure) (bp : Blueprint) (c : Crowd) : Prop :=
  ∀ k, k ≤ errors.length → ∀ o, c.results[k]? = some o → o = failingFirst errors bp k

theorem Results.of_grows (hc' : c'.Results errors bp) (hg : c.Grows c') : c.Results errors bp := by
  intro k hk o ho
  obtain ⟨new, hnew⟩ := hg.results
  apply hc' k hk o
  rw [← hnew, List.getElem?_append_left (List.getElem?_eq_some_iff.mp ho).1]
  exact ho

/-- So many runs have failed, and as many callers have got their errors. -/
structure Failing (i : Nat) (errors : List Failure) (c : Crowd) (k : Nat) : Prop where
  delegate : (c.slot i).delegate = none
  failed : k ≤ errors.length
  arrived : k ≤ c.arrivals.length
  line : c.callers = List.range' k (c.arrivals.length - k)
  results : c.results.length = k
  begun : c.begun.map (·.caller) = List.range (k + c.live.countP (·.isRunning))
  ended : ∀ e ∈ c.ended, ∃ error, errors[e.caller]? = some error ∧ e.outcome = .error error

/-- A run has succeeded after the failures, and its delegate is there for all later callers. -/
structure Served (i : Nat) (errors : List Failure) (bp : Blueprint) (c : Crowd) (d : Delegate) :
    Prop where
  delegate : (c.slot i).delegate = some d
  built : ∃ q, c.arrivals[errors.length]? = some q ∧ d = bp.build d.number q.transport
  later : ∀ a ∈ c.callers, errors.length < a
  idle : ∀ r ∈ c.live, r.isRunning = false
  begun : c.begun.map (·.caller) = List.range (errors.length + 1)
  ended : ∀ e ∈ c.ended, e.outcome = failingFirst errors d e.caller

/-- The failures go on, or they are over. -/
def Retrying (i : Nat) (errors : List Failure) (bp : Blueprint) (c : Crowd) : Prop :=
  (∃ k, Failing i errors c k) ∨ ∃ d, Served i errors bp c d

section Failing

variable {k : Nat}

/-- The first caller in the line is the one after those that have failed. -/
theorem Failing.caller_eq (hf : Failing i errors c k) (hfirst : c.callers.head? = some r.caller) :
    r.caller = k ∧ k < c.arrivals.length ∧
      c.callers.erase r.caller = List.range' (k + 1) (c.arrivals.length - (k + 1)) := by
  -- the line is empty, or it begins with `k`
  rw [hf.line] at hfirst ⊢
  rcases hm : c.arrivals.length - k with _ | m
  · rw [hm] at hfirst
    cases hfirst
  · rw [hm, List.range'_succ, List.head?_cons] at hfirst
    have hcaller := Option.some.inj hfirst
    have hrest : c.arrivals.length - (k + 1) = m := by omega
    refine ⟨hcaller.symm, by omega, ?_⟩
    rw [hrest, List.range'_succ, ← hcaller, List.erase_cons_head]

/-- Calls under way have gone on without an end, and runs without a result. -/
theorem Failing.keep (hf : Failing i errors c k)
    (hdelegate : (c'.slot i).delegate = (c.slot i).delegate) (harrivals : c'.arrivals = c.arrivals)
    (hcallers : c'.callers = c.callers) (hresults : c'.results = c.results)
    (hbegun : c'.begun.map (·.caller) = List.range (k + c'.live.countP (·.isRunning)))
    (hended : c'.ended = c.ended) : Failing i errors c' k where
  delegate := hdelegate.trans hf.delegate
  failed := hf.failed
  arrived := by
    rw [harrivals]
    exact hf.arrived
  line := by
    rw [hcallers, harrivals]
    exact hf.line
  results := by
    rw [hresults]
    exact hf.results
  begun := hbegun
  ended := by
    rw [hended]
    exact hf.ended

/-- The result of the run under way is the next one. -/
theorem Failing.result_eq {o : Outcome Blueprint} (hf : Failing i errors c k)
    (hresults : c'.results = c.results ++ [o]) (hr : c'.Results errors bp) :
    o = failingFirst errors bp k := by
  apply hr k hf.failed o
  rw [hresults, ← hf.results]
  exact List.getElem?_concat_length

/-- Who runs the factory is the first in the line. -/
theorem Failing.caller_eq_of_running {run : FactoryRun} (hf : Failing i errors c k)
    (ho : c.Orderly i) (hl : c.live = front ++ r :: back) (hp : r.phase = .running run) :
    r.caller = k ∧ k < c.arrivals.length ∧
      (front ++ back).map (·.caller) = List.range' (k + 1) (c.arrivals.length - (k + 1)) := by
  rw [callers_erase hl ho.sorted]
  exact hf.caller_eq (ho.first_of_running (mem_of_live hl) hp)

/-- A call comes and waits. -/
theorem Failing.enter {q' : Resolution} (hf : Failing i errors c k)
    (hdelegate : (c'.slot i).delegate = (c.slot i).delegate) (hlive : c'.live = c.live ++ [q])
    (hq : q.caller = c.arrivals.length) (hp : q.phase = .queued f)
    (harrivals : c'.arrivals = c.arrivals ++ [q']) (hresults : c'.results = c.results)
    (hbegun : c'.begun = c.begun) (hended : c'.ended = c.ended) : Failing i errors c' k where
  delegate := hdelegate.trans hf.delegate
  failed := hf.failed
  arrived := by
    rw [harrivals, List.length_append]
    exact hf.arrived.trans (Nat.le_add_right _ _)
  line := by
    have harrived := hf.arrived
    have hlength : c'.arrivals.length - k = c.arrivals.length - k + 1 := by
      rw [harrivals, List.length_append, List.length_singleton]
      omega
    have hlast : k + (c.arrivals.length - k) = c.arrivals.length := by omega
    rw [hlength, List.range'_1_concat, hlast, ← hf.line, ← hq]
    simp [callers, hlive]
  results := by
    rw [hresults]
    exact hf.results
  begun := by
    rw [hbegun, hlive, List.countP_append, hf.begun]
    simp [Resolution.isRunning_of_queued hp]
  ended := by
    rw [hended]
    exact hf.ended

/-- The first in the line starts a run. -/
theorem Failing.launch {run : FactoryRun} {f' : Factory} (hf : Failing i errors c k)
    (ho : c.Orderly i) (hl : c.live = front ++ r :: back) (hp : r.phase = .queued f')
    (hfirst : c.callers.head? = some r.caller)
    (hdelegate : (c'.slot i).delegate = (c.slot i).delegate)
    (hlive : c'.live = front ++ { r with phase := .running run } :: back)
    (harrivals : c'.arrivals = c.arrivals) (hresults : c'.results = c.results)
    (hbegun : c'.begun = c.begun ++ [⟨r.caller, f'⟩]) (hended : c'.ended = c.ended) :
    Failing i errors c' k := by
  have hzero := ho.countP_isRunning_eq_zero hl hp hfirst
  refine hf.keep hdelegate harrivals ?_ hresults ?_ hended
  · rw [callers_of_live hl, callers_of_live hlive]
  · rw [countP_of_launched hl hlive hzero, hbegun, List.map_append, hf.begun, hzero,
      List.range_succ, ← (hf.caller_eq hfirst).1]
    rfl

/-- A run fails: its error is the next one, and its caller gets it. -/
theorem Failing.fail {run : FactoryRun} {error : Failure} {e : Ending} (hf : Failing i errors c k)
    (he : c.Entered i) (ho : c.Orderly i) (hr : c'.Results errors bp)
    (hl : c.live = front ++ r :: back) (hp : r.phase = .running run)
    (hdelegate : (c'.slot i).delegate = (c.slot i).delegate) (hlive : c'.live = front ++ back)
    (harrivals : c'.arrivals = c.arrivals) (hresults : c'.results = c.results ++ [.error error])
    (hbegun : c'.begun = c.begun) (hended : c'.ended = c.ended ++ [e])
    (hcaller : e.caller = r.caller) (houtcome : e.outcome = .error error) :
    Failing i errors c' (k + 1) := by
  obtain ⟨hrk, harrived, hrest⟩ := hf.caller_eq_of_running ho hl hp
  obtain ⟨hone, hzero⟩ := countP_around he ho hl (Resolution.isRunning_of_running hp)
  -- success has no error, so there is still a failure to be paid for
  have herror : errors[k]? = some error :=
    eq_some_of_failingFirst (hf.result_eq hresults hr).symm
  exact {
    delegate := hdelegate.trans hf.delegate
    failed := (List.getElem?_eq_some_iff.mp herror).1
    arrived := by
      rw [harrivals]
      exact harrived
    line := by
      rw [callers, hlive, harrivals]
      exact hrest
    results := by rw [hresults, List.length_append, hf.results, List.length_singleton]
    begun := by rw [hbegun, hlive, hzero, hf.begun, hone]
    ended := by
      intro e' he'
      rw [hended] at he'
      rcases List.mem_append.mp he' with he' | he'
      · exact hf.ended e' he'
      · rw [List.mem_singleton.mp he', hcaller, hrk]
        exact ⟨error, herror, houtcome⟩ }

/-- A run succeeds: all errors have been paid for, and its caller gets the first delegate. -/
theorem Failing.install {run : FactoryRun} {b : Blueprint} {e : Ending} {d : Delegate} {n : Nat}
    (hf : Failing i errors c k) (he : c.Entered i) (ho : c.Orderly i) (hk : c.Known r)
    (hr : c'.Results errors bp) (hl : c.live = front ++ r :: back) (hp : r.phase = .running run)
    (hd : d = b.build n r.transport) (hdelegate : (c'.slot i).delegate = some d)
    (hlive : c'.live = front ++ back) (harrivals : c'.arrivals = c.arrivals)
    (hresults : c'.results = c.results ++ [.ok b]) (hbegun : c'.begun = c.begun)
    (hended : c'.ended = c.ended ++ [e]) (hcaller : e.caller = r.caller)
    (houtcome : e.outcome = .ok d) : Served i errors bp c' d := by
  obtain ⟨hrk, harrived, hrest⟩ := hf.caller_eq_of_running ho hl hp
  obtain ⟨hone, hzero⟩ := countP_around he ho hl (Resolution.isRunning_of_running hp)
  -- a failure builds nothing, so all of them are over
  obtain ⟨hle, rfl⟩ := le_of_failingFirst (hf.result_eq hresults hr).symm
  obtain rfl : k = errors.length := Nat.le_antisymm hf.failed hle
  exact {
    delegate := hdelegate
    built := by
      obtain ⟨q, hq, ht⟩ := hk.1
      rw [harrivals, ← hrk]
      refine ⟨q, hq, ?_⟩
      rw [hd, ht]
      rfl
    later := by
      intro a ha
      rw [callers, hlive, hrest] at ha
      exact (List.mem_range'_1.mp ha).1
    idle := by
      intro q hq
      rw [hlive] at hq
      exact Bool.eq_false_iff.mpr (List.countP_eq_zero.mp hzero q hq)
    begun := by rw [hbegun, hf.begun, hone]
    ended := by
      intro e' he'
      rw [hended] at he'
      rcases List.mem_append.mp he' with he' | he'
      · obtain ⟨error, herror, ho'⟩ := hf.ended e' he'
        rw [ho', failingFirst_of_some herror]
      · rw [List.mem_singleton.mp he', houtcome, hcaller, hrk,
          failingFirst_of_le (Nat.le_refl _)] }

end Failing

/-- Whoever comes or ends while there is a delegate gets it. -/
theorem Served.keep {d : Delegate} (hs : Served i errors bp c d) (hg : c.Grows c')
    (hdelegate : (c'.slot i).delegate = (c.slot i).delegate)
    (hlive : ∀ q ∈ c'.live, q ∈ c.live) (hbegun : c'.begun = c.begun)
    (hended : c'.ended = c.ended ∨
      ∃ e, c'.ended = c.ended ++ [e] ∧ errors.length < e.caller ∧ e.outcome = .ok d) :
    Served i errors bp c' d where
  delegate := hdelegate.trans hs.delegate
  built := by
    obtain ⟨q, hq, hd⟩ := hs.built
    exact ⟨q, getElem?_of_grows hg hq, hd⟩
  later := by
    intro a ha
    obtain ⟨q, hq, rfl⟩ := List.mem_map.mp ha
    exact hs.later _ (List.mem_map_of_mem (hlive q hq))
  idle := fun q hq => hs.idle q (hlive q hq)
  begun := by
    rw [hbegun]
    exact hs.begun
  ended := by
    rcases hended with hended | ⟨e, hended, hlt, ho⟩
    · rw [hended]
      exact hs.ended
    · intro e' he'
      rw [hended] at he'
      rcases List.mem_append.mp he' with he' | he'
      · exact hs.ended e' he'
      · rw [List.mem_singleton.mp he', ho, failingFirst_of_le (Nat.le_of_lt hlt)]

/-- Every patient move before the first success goes on with the failures, or ends them. -/
theorem Move.retrying_of_failing {k : Nat} (hm : Move i h c c') (hpatient : h.isPatient = true)
    (he : c.Entered i) (ho : c.Orderly i) (ht : c.Traced i) (hc : c.Calm i f)
    (hf : Failing i errors c k) (hr : c'.Results errors bp) : Retrying i errors bp c' := by
  cases hm with
  | greet hh hd | find _ _ _ hd =>
    rw [hf.delegate] at hd
    cases hd
  | refuse hh hd hn | register hh _ hn =>
    rw [hc.factory] at hn
    cases hn
  | enter hh hd hf' =>
    exact .inl ⟨k, hf.enter (by simp [slot]) rfl rfl rfl rfl rfl rfl rfl⟩
  | @launch span front r back f' a hl hp ht hd ha =>
    have hfirst := (ho.hasTurn_iff (he r (mem_of_live hl)).1).mp ht
    exact .inl ⟨k, hf.launch ho hl hp hfirst rfl rfl rfl rfl rfl rfl⟩
  | @work span front r back run g run' hl hp hres =>
    have hslots := (FactoryRun.traffic_eq hres).slots
    refine .inl ⟨k, hf.keep (by simp [slot, hslots]) rfl ?_ rfl ?_ rfl⟩
    · rw [callers_of_live hl]
      simp [callers]
    · -- a run that goes on is counted as before
      have hrunning : ({ r with phase := .running run' } : Resolution).isRunning = true := rfl
      rw [settle_waiting, hf.begun, hl]
      simp only [List.countP_append, List.countP_cons, Resolution.isRunning_of_running hp, hrunning]
  | fail span hl hp hres =>
    have hslots := (FactoryRun.traffic_eq hres).slots
    exact .inl ⟨k + 1, hf.fail he ho hr hl hp (by simp [slot, hslots]) rfl rfl rfl rfl rfl rfl rfl⟩
  | @install span front r back run g b d hl hp hres hd =>
    exact .inr ⟨d, hf.install he ho (ht.known r (mem_of_live hl)) hr hl hp hd (by simp [slot]) rfl
      rfl rfl rfl rfl rfl rfl⟩
  | @expire span front r back l hl hlim =>
    rw [hc.unlimited r (mem_of_live hl)] at hlim
    cases hlim
  | abandon hh | reset hh =>
    subst hh
    cases hpatient
  | reject | elapse | meanwhile => exact .inl ⟨k, hf.keep rfl rfl rfl rfl hf.begun rfl⟩

/-- Every patient move after the first success leaves the delegate for all who come. -/
theorem Move.served {d : Delegate} (hm : Move i h c c') (hpatient : h.isPatient = true)
    (hc : c.Calm i f) (hs : Served i errors bp c d) : Served i errors bp c' d := by
  have hg := hm.grows
  cases hm with
  | greet hh hd =>
    obtain ⟨q, hq, -⟩ := hs.built
    refine hs.keep hg rfl (fun q hq => hq) rfl (.inr ⟨_, rfl, ?_, ?_⟩)
    · exact (List.getElem?_eq_some_iff.mp hq).1
    · rw [← Option.some.inj (hd.symm.trans hs.delegate)]
  | @find front r back f' d' hl hp ht hd =>
    refine hs.keep hg (by simp [slot]) (fun q hq => mem_of_around hl hq) rfl
      (.inr ⟨_, rfl, ?_, ?_⟩)
    · exact hs.later r.caller (by simp [callers, hl])
    · rw [← Option.some.inj (hd.symm.trans hs.delegate)]
  | refuse hh hd | enter hh hd | launch _ _ _ _ hd =>
    rw [hs.delegate] at hd
    cases hd
  | @work span front r back run g run' hl hp hr | @fail span front r back run g e hl hp hr
  | @install span front r back run g b d' hl hp hr =>
    have hidle := hs.idle r (mem_of_live hl)
    rw [Resolution.isRunning_of_running hp] at hidle
    cases hidle
  | @expire span front r back l hl hlim =>
    rw [hc.unlimited r (mem_of_live hl)] at hlim
    cases hlim
  | abandon hh | reset hh =>
    subst hh
    cases hpatient
  | register hh hf hn =>
    rw [hc.factory] at hn
    cases hn
  | reject | elapse | meanwhile => exact hs.keep hg rfl (fun q hq => hq) rfl (.inl rfl)

/-- What patient moves keep. -/
structure Contended (i : Nat) (f : Factory) (errors : List Failure) (bp : Blueprint) (c : Crowd) :
    Prop where
  orderly : c.Orderly i
  traced : c.Traced i
  calm : c.Calm i f
  retrying : c.Results errors bp → Retrying i errors bp c

theorem Move.contended (hm : Move i h c c') (hpatient : h.isPatient = true) (he : c.Entered i)
    (hc : Contended i f errors bp c) : Contended i f errors bp c' where
  orderly := hm.orderly he hc.orderly
  traced := hm.traced hc.orderly hc.traced
  calm := hm.calm hpatient hc.calm
  retrying := by
    intro hr
    rcases hc.retrying (hr.of_grows hm.grows) with ⟨k, hf⟩ | ⟨d, hs⟩
    · exact hm.retrying_of_failing hpatient he hc.orderly hc.traced hc.calm hf hr
    · exact .inr ⟨d, hm.served hpatient hc.calm hs⟩

theorem contended_opening {g : Gateway} (hslot : g.slots i = ⟨some f, none, .free⟩) :
    Contended i f errors bp (opening g) where
  orderly := orderly_opening (by rw [hslot])
  traced := traced_opening (by rw [hslot])
  calm := calm_opening (by rw [hslot])
  retrying := by
    intro _
    refine .inl ⟨0, ?_⟩
    exact {
      delegate := by simp [slot, opening, hslot]
      failed := Nat.zero_le _
      arrived := Nat.zero_le _
      line := rfl
      results := rfl
      begun := rfl
      ended := by simp [opening] }

end Crowd

end MuxBridge
