/-
# A lone caller and its two deadlines

One caller resolves a delegate while nothing else is going on. Its factory makes one round trip and
does nothing else, under the deadline of round trips; the resolution as a whole is under its own
deadline. Both run on one clock from the same moment on, so the smaller one counts, and a
tie goes to the round trip, which is looked at first.

* `Lone.resume_call`: the caller is asking its host at once;
* `Lone.endsWith_of_resume`: it ends as it does when its next alarm goes off;
* `Lone.endsWith_answered`, `Lone.endsWith_timedOut`, `Lone.endsWith_cutOff`: the three ways in
  which it ends;
* `Lone.Sincere.reached_ne`: being cut off is none of the ways in which a reply ends a call.
-/
import MuxBridge.Config.Basic
import MuxBridge.Proofs.Deadlines.Alone
import MuxBridge.Proofs.Exchange.Trips
import MuxBridge.Proofs.Service.Requests
import MuxBridge.Script.Run

namespace MuxBridge

open Script

/-! ## A resolution whose run asks the host -/

namespace Resolution

variable {g : Gateway} {span : Span} {r : Resolution} {a : Attempt} {trip : RoundTrip}

/-- What a call ends in when its run of the factory ends. -/
def outcomeOf (g : Gateway) (r : Resolution) : Outcome Blueprint → Outcome Delegate
  | .error e => .error e
  | .ok b => .ok (b.build g.delegates r.transport)

theorem concludeRun_eq (g : Gateway) (span : Span) (r : Resolution) (o : Outcome Blueprint) :
    ∃ g', r.concludeRun g span o = (g', r.outcomeOf g o) ∧ g'.now = g.now := by
  cases o <;> exact ⟨_, rfl, rfl⟩

/-- The reply is there: the run goes by it, however late it is. -/
theorem resume_of_answered (hp : r.phase = .running (.probing a trip))
    (h : trip.isAnswered g = true) :
    ∃ g', r.resume g span = (g', .ended (r.outcomeOf g
      (FactoryRun.conclude a ((g.hosts trip.host).answer trip.request).1))) ∧ g'.now = g.now := by
  obtain ⟨g', hconclude, hnow⟩ := r.concludeRun_eq
    (g.setHost trip.host ((g.hosts trip.host).answer trip.request).2) span
    (FactoryRun.conclude a ((g.hosts trip.host).answer trip.request).1)
  refine ⟨g', ?_, hnow⟩
  simp only [resume, resumeUnlimited, hp, resumeRun, FactoryRun.resume, FactoryRun.resumeProbe,
    RoundTrip.resume_of_due span h, Course.map, hconclude]
  rfl

/-- The reply is not there, but the deadline of the round trip has passed. -/
theorem resume_of_timedOut (hp : r.phase = .running (.probing a trip))
    (h : trip.isAnswered g = false) {l : Limit} (hl : trip.limits = [l])
    (hpassed : l.expires ≤ g.now) :
    ∃ g', r.resume g span = (g', .ended (.error (.timeout l.duration.millis))) ∧
      g'.now = g.now := by
  obtain ⟨g', hconclude, hnow⟩ := r.concludeRun_eq
    (g.report span (.requestTimedOut trip.request.kind l.duration)) span
    (FactoryRun.conclude a (.error (.timeout l.duration.millis)))
  have hfind : trip.limits.find? (Limit.hasPassed g) = some l := by
    simp [hl, Limit.hasPassed, hpassed]
  refine ⟨g', ?_, hnow⟩
  simp only [resume, resumeUnlimited, hp, resumeRun, FactoryRun.resume, FactoryRun.resumeProbe,
    RoundTrip.resume_of_passed span h hfind, Course.map, hconclude]
  rfl

/-- The run waits as long as no alarm of its round trip has gone off. -/
theorem resumeUnlimited_of_no_alarm (hp : r.phase = .running (.probing a trip))
    (h : ∀ alarm ∈ trip.alarms, g.now < alarm) : r.resumeUnlimited g span = (g, .waiting r) := by
  simp only [resumeUnlimited, hp, resumeRun, FactoryRun.resume, FactoryRun.resumeProbe,
    RoundTrip.resume_of_no_alarm span h, Course.map]
  obtain ⟨slot, caller, t, limit, phase⟩ := r
  obtain rfl : phase = .running (.probing a trip) := hp
  rfl

/-- A call that waits longer than its deadline is cut off. -/
theorem resume_of_cutOff {l : Limit} (h : r.resumeUnlimited g span = (g, .waiting r))
    (hl : r.limit = some l) (hpassed : l.expires ≤ g.now) :
    ∃ g', r.resume g span = (g', .ended (.error (.resolutionTimeout l.duration.millis))) ∧
      g'.now = g.now := by
  refine ⟨(r.expire g span l).1, ?_, rfl⟩
  have hfilter : r.limit.filter (Limit.hasPassed g) = some l := by
    rw [hl]
    simp [Option.filter, Limit.hasPassed, hpassed]
  simp only [resume, h, hfilter]
  rfl

/-- The call waits as long as no alarm has gone off, be it of its round trip or of its deadline. -/
theorem resume_of_no_alarm (hp : r.phase = .running (.probing a trip))
    (h : ∀ alarm ∈ r.alarms, g.now < alarm) : r.resume g span = (g, .waiting r) := by
  simp only [alarms, hp, List.mem_append, Option.mem_toList] at h
  have hun : r.resumeUnlimited g span = (g, .waiting r) :=
    resumeUnlimited_of_no_alarm hp fun alarm halarm => h alarm (.inr halarm)
  have hfilter : r.limit.filter (Limit.hasPassed g) = none := by
    rw [Option.filter_eq_none_iff]
    intro l hl
    have hlt := h l.expires (.inl (Option.map_eq_some_iff.mpr ⟨l, hl, rfl⟩))
    simpa [Limit.hasPassed] using hlt
  simp only [resume, hun, hfilter]

end Resolution

/-! ## Calls on their own -/

/-- A caller that resolves the delegate of a slot while nothing else is going on: the slot is empty,
nobody has the turn, and the run of its factory makes one round trip and does nothing else. -/
structure Lone where
  stage : Stage
  slot : Nat
  caller : Nat
  /-- The way to the host, without any deadlines. -/
  bare : Transport
  /-- The serial number of the transport that the deadline of round trips is around. -/
  serial : Nat
  factory : Factory
  /-- What the run comes to when the host has nothing against it. -/
  outcome : Outcome Blueprint
  isBare : bare.deadlines = []
  unresolved : (stage.gateway.slots slot).delegate = none
  free : (stage.gateway.slots slot).turn = .free
  registered : (stage.gateway.slots slot).factory = some factory
  attempt_eq : factory.attempt (stage.gateway.runs factory.serial) = ⟨0, true, outcome⟩

namespace Lone

variable (l : Lone) (c : Config)

/-- The time at which the caller comes. -/
def start : Nat := l.stage.gateway.now

/-- The host at the other end. -/
def host : Host := l.stage.gateway.hosts l.bare.host

/-- The reply of the host. -/
def reply : Outcome Response := (l.host.answer .listConnections).1

/-- The transport with the configured deadline around it. -/
def transport : Transport := l.bare.wrap l.serial c.rpc.requestTimeout

/-- The call under the configured deadline. -/
def call : Resolution :=
  .start l.stage.gateway l.slot l.caller (l.transport c) c.delegate.resolveTimeout

/-- What comes of the call when nothing else is going on. -/
def run (fuel : Nat) : Schedule Stage Job Verdict :=
  (Schedule.start l.stage [.calling .nothing (.resolution (l.call c))]).run workshop fuel

/-- The call ends in something, at a time. -/
def EndsWith (v : Verdict) (time : Nat) : Prop :=
  ∀ fuel, 3 ≤ fuel → (l.run c fuel).result? [0] = some (some v, time)

/-- The call is cut off by the deadline of the resolution. -/
def CutOff : Prop := ∃ millis time, l.EndsWith c (.failed (.resolutionTimeout millis)) time

/-- Neither the host nor the factory pretends that a resolution took too long. -/
def Sincere : Prop :=
  ∀ millis, l.reply ≠ .error (.resolutionTimeout millis) ∧
    l.outcome ≠ .error (.resolutionTimeout millis)

/-! ## The round trip -/

/-- The gateway in which the run of the factory has started. -/
def launched : Gateway :=
  ((l.stage.gateway.changeSlot l.slot (·.enter l.caller)).launch .none l.factory).1

/-- The gateway in which the host has been asked, and the round trip. -/
def asked : Gateway × RoundTrip :=
  RoundTrip.start l.launched (l.transport c) .listConnections

/-- The call while its run waits for the host. -/
def probing : Resolution :=
  { l.call c with phase := .running (.probing ⟨0, true, l.outcome⟩ (l.asked c).2) }

/-- Nobody is in front of the caller, so its run starts on arrival. -/
theorem inRun_call : (l.call c).inRun? l.stage.gateway .none
    = some (l.launched, .resting ⟨0, true, l.outcome⟩ l.start) := by
  have hturn : (l.call c).hasTurn (l.stage.gateway.changeSlot l.slot (·.enter l.caller))
      = true := by
    simp [Resolution.hasTurn, call, Resolution.start, l.free, Turn.enter, Turn.free]
  have hlaunching : (l.call c).launching? l.stage.gateway
      = some (l.stage.gateway.changeSlot l.slot (·.enter l.caller), l.factory) := by
    simp only [Resolution.launching?, call, Resolution.start, l.unresolved, l.registered] at hturn ⊢
    rw [if_pos hturn]
    rfl
  have hlaunch : (l.stage.gateway.changeSlot l.slot (·.enter l.caller)).launch .none l.factory
      = (l.launched, .resting ⟨0, true, l.outcome⟩ l.start) := by
    have hdelay : (l.factory.attempt (l.stage.gateway.runs l.factory.serial)).delay = 0 := by
      rw [l.attempt_eq]
    rw [← l.attempt_eq]
    refine Prod.ext rfl ?_
    show FactoryRun.resting (l.factory.attempt (l.stage.gateway.runs l.factory.serial))
      (l.start + (l.factory.attempt (l.stage.gateway.runs l.factory.serial)).delay) = _
    rw [hdelay, Nat.add_zero]
  simp only [Resolution.inRun?, call, Resolution.start] at hlaunching ⊢
  rw [hlaunching, Option.map_some]
  exact congrArg some hlaunch

/-- From its arrival on, the call goes on like one whose run waits for the host. -/
theorem resume_call : (l.call c).resume l.stage.gateway .none
    = (l.probing c).resume (l.asked c).1 .none := by
  have hrun : (FactoryRun.resting ⟨0, true, l.outcome⟩ l.start).resume l.launched .none
      (l.call c).transport = (FactoryRun.probing ⟨0, true, l.outcome⟩ (l.asked c).2).resume
        (l.asked c).1 .none (l.probing c).transport := by
    have hnow : l.start ≤ l.launched.now := le_rfl
    simp only [FactoryRun.resume, if_pos hnow, if_true]
    rfl
  have hun : (l.call c).resumeUnlimited l.stage.gateway .none
      = (l.probing c).resumeUnlimited (l.asked c).1 .none := by
    rw [(Resolution.resumeUnlimited_of_inRun (l.inRun_call c)).2.2]
    show Resolution.resumeRun _ _ _ _ = Resolution.resumeRun _ _ _ _
    unfold Resolution.resumeRun
    rw [hrun]
    rfl
  unfold Resolution.resume
  rw [hun]

/-! ## The clock -/

/-- The time at which the host answers, if it ever does. -/
def answersAt : Option Nat := l.host.delay.map (l.start + ·)

/-- The time at which the deadline of the round trip has passed. -/
def timesOutAt : Nat := l.start + c.rpc.requestMillis

/-- The time at which the deadline of the resolution has passed, if there is one. -/
def cutsOffAt : Nat := l.start + c.delegate.resolveMillis

/-- The gateway in which the host has been asked, at a later time. -/
def later (time : Nat) : Gateway := { (l.asked c).1 with now := time }

theorem later_start : l.later c l.start = (l.asked c).1 := rfl

theorem isAnswered_later (time : Nat) :
    (l.asked c).2.isAnswered (l.later c time) = l.answersAt.any (· ≤ time) := rfl

/-- The host has not answered as long as it answers later or never. -/
theorem isAnswered_later_of_lt {time : Nat} (h : ∀ answer ∈ l.answersAt, time < answer) :
    (l.asked c).2.isAnswered (l.later c time) = false := by
  rw [isAnswered_later, Option.any_eq_false]
  intro answer hanswer
  exact decide_eq_false (Nat.not_le.mpr (h answer hanswer))

theorem trip_limits (hreq : c.rpc.requestMillis ≠ 0) :
    (l.asked c).2.limits = [⟨.ofMillis c.rpc.requestMillis, l.timesOutAt c⟩] := by
  show (l.transport c).deadlines.filterMap _ = _
  simp only [transport, Transport.wrap, l.isBare, RpcSettings.requestTimeout, deadlineOfMillis,
    if_neg hreq, List.nil_append, List.filterMap_cons, List.filterMap_nil, Option.map_some,
    Limit.start, Duration.ticks_ofMillis]
  rfl

theorem limit_of_zero (h : c.delegate.resolveMillis = 0) : (l.probing c).limit = none := by
  show (c.delegate.resolveTimeout.map _) = _
  simp only [DelegateSettings.resolveTimeout, deadlineOfMillis, h, if_true, Option.map_none]

theorem limit_of_ne_zero (h : c.delegate.resolveMillis ≠ 0) : (l.probing c).limit
    = some ⟨.ofMillis c.delegate.resolveMillis, l.cutsOffAt c⟩ := by
  show (c.delegate.resolveTimeout.map _) = _
  simp only [DelegateSettings.resolveTimeout, deadlineOfMillis, if_neg h, Option.map_some,
    Limit.start, Duration.ticks_ofMillis]
  rfl

/-- The reply does not depend on when it is taken. -/
theorem answer_later (time : Nat) :
    (((l.later c time).hosts (l.asked c).2.host).answer (l.asked c).2.request).1 = l.reply := by
  have hhost : (l.later c time).hosts (l.asked c).2.host = l.host.receive .listConnections :=
    setAt_same _ _ _
  rw [hhost]
  rfl

end Lone

/-! ## The job -/

/-- What a resolution in a script is answered. -/
def Resolution.verdict (t : Transport) : Outcome Delegate → Verdict
  | .error f => .failed f
  | .ok d => .ok (.delegate d.number (d.transport == t))

section Job

variable {s : Stage} {r r' : Resolution} {g : Gateway} {o : Outcome Delegate}

theorem resume_job_ended (h : r.resume s.gateway .none = (g, .ended o)) :
    workshop.resume s (.calling .nothing (.resolution r))
      = ({ s with gateway := g }, .ended (Resolution.verdict r.transport o)) := by
  cases o <;>
  · simp only [workshop, Stage.resume, Stage.resumeCall, Call.resume, h]
    rfl

theorem resume_job_waiting (h : r.resume s.gateway .none = (g, .waiting r')) :
    workshop.resume s (.calling .nothing (.resolution r))
      = ({ s with gateway := g }, .waiting (.calling .nothing (.resolution r'))) := by
  simp only [workshop, Stage.resume, Stage.resumeCall, Call.resume, h]
  rfl

end Job

namespace Lone

variable {l : Lone} {c : Config} {time : Nat} {g : Gateway} {o : Outcome Delegate}

/-! ## How the call ends -/

/-- The round trip has an alarm for its deadline, and one for the answer if there ever is one. -/
theorem mem_alarms_asked (hreq : c.rpc.requestMillis ≠ 0) {alarm : Nat} :
    alarm ∈ (l.asked c).2.alarms ↔ l.answersAt = some alarm ∨ alarm = l.timesOutAt c := by
  rw [RoundTrip.alarms, l.trip_limits c hreq, List.mem_append]
  exact or_congr Option.mem_toList List.mem_singleton

/-- The call has one more alarm, for its own deadline if there is one. -/
theorem mem_alarms_probing {alarm : Nat} : alarm ∈ (l.probing c).alarms ↔
    c.delegate.resolveMillis ≠ 0 ∧ alarm = l.cutsOffAt c ∨ alarm ∈ (l.asked c).2.alarms := by
  have halarms : (l.probing c).alarms
      = ((l.probing c).limit.map Limit.expires).toList ++ (l.asked c).2.alarms := rfl
  rw [halarms, List.mem_append]
  refine or_congr ?_ Iff.rfl
  by_cases hzero : c.delegate.resolveMillis = 0
  · simp [l.limit_of_zero c hzero, hzero]
  · simp [l.limit_of_ne_zero c hzero, hzero]

/-- A time that is behind neither the answer nor any deadline is behind no alarm. -/
theorem le_of_mem_alarms (hreq : c.rpc.requestMillis ≠ 0)
    (hwhole : c.delegate.resolveMillis = 0 ∨ time ≤ l.cutsOffAt c)
    (hanswer : ∀ answer ∈ l.answersAt, time ≤ answer) (hround : time ≤ l.timesOutAt c) :
    ∀ alarm ∈ (l.probing c).alarms, time ≤ alarm := by
  intro alarm halarm
  rcases mem_alarms_probing.mp halarm with ⟨hres, rfl⟩ | halarm
  · exact hwhole.resolve_left hres
  · rcases (mem_alarms_asked hreq).mp halarm with halarm | rfl
    · exact hanswer alarm halarm
    · exact hround

/-- No alarm is set for a time before the caller came. -/
theorem start_le_of_mem_alarms (hreq : c.rpc.requestMillis ≠ 0) :
    ∀ alarm ∈ (l.probing c).alarms, l.start ≤ alarm := by
  refine le_of_mem_alarms hreq (.inr (Nat.le_add_right _ _)) ?_ (Nat.le_add_right _ _)
  intro answer hanswer
  obtain ⟨delay, -, rfl⟩ := Option.map_eq_some_iff.mp hanswer
  exact Nat.le_add_right _ _

/-- Until its next alarm goes off, the call waits. -/
theorem resume_call_waiting (hearly : ∀ alarm ∈ (l.probing c).alarms, l.start < alarm) :
    (l.call c).resume l.stage.gateway .none = ((l.asked c).1, .waiting (l.probing c)) := by
  rw [l.resume_call c]
  exact Resolution.resume_of_no_alarm rfl hearly

/-- The call ends as it does at its next alarm. -/
theorem endsWith_of_resume (hreq : c.rpc.requestMillis ≠ 0) (hmem : time ∈ (l.probing c).alarms)
    (hmin : ∀ alarm ∈ (l.probing c).alarms, time ≤ alarm)
    (h : (l.probing c).resume (l.later c time) .none = (g, .ended o)) (hg : g.now = time) :
    l.EndsWith c (Resolution.verdict (l.transport c) o) time := by
  have htime : (l.probing c).alarms.min? = some time := List.min?_eq_some_iff.mpr ⟨hmem, hmin⟩
  intro fuel hfuel
  unfold run
  rw [Schedule.start_singleton]
  rcases Nat.eq_or_lt_of_le (start_le_of_mem_alarms hreq _ hmem) with heq | hlt
  · -- some alarm goes off at once, so there is nothing to wait for
    rw [← heq, later_start, ← resume_call] at h
    rw [Schedule.result?_alone_ended (resume_job_ended h) (by omega)]
    show some (some _, g.now) = _
    rw [hg]
    rfl
  · have hwait := resume_call_waiting fun alarm halarm => hlt.trans_le (hmin alarm halarm)
    have hmax : max time l.start = time := max_eq_left hlt.le
    have hresume : (l.probing c).resume
        ({ (l.asked c).1 with now := max time (l.asked c).1.now }) .none = (g, .ended o) := by
      show (l.probing c).resume (l.later c (max time l.start)) .none = _
      rw [hmax, h]
    obtain ⟨fuel, rfl⟩ := Nat.exists_eq_add_of_le' (show 2 ≤ fuel by omega)
    rw [Schedule.run_alone_waiting (resume_job_waiting hwait) rfl htime rfl]
    rw [Schedule.result?_alone_ended (resume_job_ended hresume) (by omega)]
    show some (some _, g.now) = _
    rw [hg]
    rfl

/-- What the call ends in when the reply is in time. -/
def reached (l : Lone) (c : Config) : Verdict :=
  Resolution.verdict (l.transport c) ((l.probing c).outcomeOf (l.asked c).1
    (FactoryRun.conclude ⟨0, true, l.outcome⟩ l.reply))

/-- The reply is in time. -/
theorem endsWith_answered (hreq : c.rpc.requestMillis ≠ 0) {answer : Nat}
    (hanswer : l.answersAt = some answer) (hround : answer ≤ l.timesOutAt c)
    (hwhole : c.delegate.resolveMillis = 0 ∨ answer ≤ l.cutsOffAt c) :
    l.EndsWith c (l.reached c) answer := by
  have hend : ∃ g, (l.probing c).resume (l.later c answer) .none
      = (g, .ended ((l.probing c).outcomeOf (l.asked c).1
        (FactoryRun.conclude ⟨0, true, l.outcome⟩ l.reply))) ∧ g.now = answer := by
    rw [← l.answer_later c answer]
    refine Resolution.resume_of_answered rfl ?_
    rw [isAnswered_later, hanswer, Option.any_some]
    exact decide_eq_true le_rfl
  obtain ⟨g, hresume, hnow⟩ := hend
  have hmem : answer ∈ (l.probing c).alarms :=
    mem_alarms_probing.mpr (.inr ((mem_alarms_asked hreq).mpr (.inl hanswer)))
  refine endsWith_of_resume hreq hmem (le_of_mem_alarms hreq hwhole ?_ hround) hresume hnow
  intro alarm halarm
  exact (Option.some.inj (hanswer.symm.trans halarm)).le

/-- The host is too slow for a round trip. A tie with the deadline of the resolution does not
matter. -/
theorem endsWith_timedOut (hreq : c.rpc.requestMillis ≠ 0)
    (hslow : ∀ answer ∈ l.answersAt, l.timesOutAt c < answer)
    (hwhole : c.delegate.resolveMillis = 0 ∨ l.timesOutAt c ≤ l.cutsOffAt c) :
    l.EndsWith c (.failed (.timeout (Duration.ofMillis c.rpc.requestMillis).millis))
      (l.timesOutAt c) := by
  have hend : ∃ g, (l.probing c).resume (l.later c (l.timesOutAt c)) .none
      = (g, .ended (.error (.timeout (Duration.ofMillis c.rpc.requestMillis).millis))) ∧
        g.now = l.timesOutAt c :=
    Resolution.resume_of_timedOut rfl (l.isAnswered_later_of_lt c hslow) (l.trip_limits c hreq)
      le_rfl
  obtain ⟨g, hresume, hnow⟩ := hend
  have hmem : l.timesOutAt c ∈ (l.probing c).alarms :=
    mem_alarms_probing.mpr (.inr ((mem_alarms_asked hreq).mpr (.inr rfl)))
  exact endsWith_of_resume hreq hmem
    (le_of_mem_alarms hreq hwhole (fun answer hanswer => (hslow answer hanswer).le) le_rfl)
    hresume hnow

/-- Neither the reply nor the deadline of the round trip comes before that of the resolution. -/
theorem endsWith_cutOff (hreq : c.rpc.requestMillis ≠ 0) (hres : c.delegate.resolveMillis ≠ 0)
    (hslow : ∀ answer ∈ l.answersAt, l.cutsOffAt c < answer)
    (hround : l.cutsOffAt c < l.timesOutAt c) :
    l.EndsWith c (.failed (.resolutionTimeout (Duration.ofMillis c.delegate.resolveMillis).millis))
      (l.cutsOffAt c) := by
  have hun : (l.probing c).resumeUnlimited (l.later c (l.cutsOffAt c)) .none
      = (l.later c (l.cutsOffAt c), .waiting (l.probing c)) := by
    refine Resolution.resumeUnlimited_of_no_alarm rfl ?_
    intro alarm halarm
    rcases (mem_alarms_asked hreq).mp halarm with halarm | rfl
    · exact hslow alarm halarm
    · exact hround
  obtain ⟨g, hresume, hnow⟩ := Resolution.resume_of_cutOff hun (l.limit_of_ne_zero c hres) le_rfl
  have hmem : l.cutsOffAt c ∈ (l.probing c).alarms := mem_alarms_probing.mpr (.inl ⟨hres, rfl⟩)
  exact endsWith_of_resume hreq hmem
    (le_of_mem_alarms hreq (.inr le_rfl) (fun answer hanswer => (hslow answer hanswer).le)
      hround.le) hresume hnow

/-- A call ends in one way only. -/
theorem EndsWith.unique {v v' : Verdict} {time' : Nat} (h : l.EndsWith c v time)
    (h' : l.EndsWith c v' time') : v = v' := by
  have heq := (h 3 le_rfl).symm.trans (h' 3 le_rfl)
  simp only [Option.some.injEq, Prod.mk.injEq] at heq
  exact heq.1

/-- A probe that fails has its failure from the host or from the factory. -/
theorem error_of_conclude {a : Attempt} {reply : Outcome Response} {f : Failure}
    (h : FactoryRun.conclude a reply = .error f) :
    reply = .error f ∨ (∃ s, f = .refused s) ∨ a.outcome = .error f := by
  cases reply with
  | error e =>
    cases h
    exact .inl rfl
  | ok r =>
    by_cases hs : r.status = .ok
    · rw [FactoryRun.conclude, Response.result, hs] at h
      exact .inr (.inr h)
    · rw [FactoryRun.conclude, Response.result_of_ne_ok hs r.payload] at h
      cases h
      exact .inr (.inl ⟨_, rfl⟩)

/-- Who is sincere does not fail as if a resolution had taken too long. -/
theorem Sincere.reached_ne (h : l.Sincere) (millis : Nat) :
    l.reached c ≠ .failed (.resolutionTimeout millis) := by
  obtain ⟨hreply, houtcome⟩ := h millis
  intro hreached
  have hconclude : FactoryRun.conclude ⟨0, true, l.outcome⟩ l.reply
      = .error (.resolutionTimeout millis) := by
    unfold reached at hreached
    cases ho : FactoryRun.conclude ⟨0, true, l.outcome⟩ l.reply with
    | error e =>
      rw [ho] at hreached
      cases hreached
      rfl
    | ok b =>
      rw [ho] at hreached
      cases hreached
  rcases error_of_conclude hconclude with h | ⟨_, h⟩ | h
  · exact hreply h
  · cases h
  · exact houtcome h

end Lone

end MuxBridge
