/-
# Deadlines around deadlines

A request is sent while nothing else is going on, over a way to a host that wrappers have put any
number of deadlines around. All deadlines run from the moment at which the request is sent, so the
least one counts; of several that pass together the innermost one cuts the round trip off, and a
reply that comes no later gets through as the host gave it.

* `Errand.Soonest`: the wrapper whose deadline counts;
* `Errand.endsIn_reply`, `Errand.endsIn_timeout`: the two ways in which a round trip ends;
* `Errand.exists_soonest`: there is a deadline that counts, unless there is none at all;
* `Errand.ends_with_first`: the main result.
-/
import MuxBridge.Config.Basic
import MuxBridge.Proofs.Deadlines.Alone
import MuxBridge.Proofs.Exchange.Trips
import MuxBridge.Script.Run

namespace MuxBridge

open Script

/-! ## Wrappers -/

/-- A deadline around round trips: one that is given or left open, or the one of settings. -/
inductive Wrapper where
  | bounded (deadline : Option Duration)
  | configured (settings : RpcSettings)

namespace Wrapper

/-- The deadline of a wrapper, if it has one. -/
def deadline : Wrapper → Option Duration
  | .bounded d => d
  | .configured s => s.requestTimeout

/-- A way to a host with wrappers around it, the innermost first. -/
def around (bare : Transport) (ws : List Wrapper) : Transport :=
  ws.foldl (fun t w => t.wrap (t.serial + 1) w.deadline) bare

theorem around_eq (bare : Transport) (ws : List Wrapper) :
    (around bare ws).host = bare.host ∧
      (around bare ws).deadlines = bare.deadlines ++ ws.map deadline := by
  induction ws generalizing bare with
  | nil => simp [around]
  | cons w ws ih =>
    have hrest := ih (bare.wrap (bare.serial + 1) w.deadline)
    simpa [around, Transport.wrap] using hrest

end Wrapper

/-! ## Errands -/

/-- A request that is sent to a host, under wrappers around the way there, while nothing else is
going on. -/
structure Errand where
  stage : Stage
  /-- The way to the host, without any deadlines. -/
  bare : Transport
  /-- The wrappers around it, the innermost first. -/
  wrappers : List Wrapper
  request : Request
  isBare : bare.deadlines = []

namespace Errand

variable (e : Errand)

/-- The time at which the request is sent. -/
def start : Nat := e.stage.gateway.now

/-- The host at the other end. -/
def host : Host := e.stage.gateway.hosts e.bare.host

/-- What the host answers. -/
def reply : Outcome Response := (e.host.answer e.request).1

/-- The gateway in which the request has been sent, and the round trip. -/
def sent : Gateway × RoundTrip :=
  RoundTrip.start e.stage.gateway (Wrapper.around e.bare e.wrappers) e.request

/-- The stage on which the request has been sent. -/
def sentStage : Stage := { e.stage with gateway := e.sent.1 }

/-- What comes of the round trip when nothing else is going on. -/
def run (fuel : Nat) : Schedule Stage Job Verdict :=
  (Schedule.start e.sentStage
    [.calling .nothing (.roundTrip e.sent.2)]).run workshop fuel

/-- What a script is answered for a round trip. -/
def verdict : Outcome Response → Verdict
  | .error f => .failed f
  | .ok r => .ok (.response r)

/-- The round trip ends in something, at a time and after some events. Its host has received the
request once, and no host has received anything else. -/
structure EndsIn (o : Outcome Response) (time : Nat) (events : List LogEvent) : Prop where
  result : ∀ fuel, 3 ≤ fuel → (e.run fuel).result? [0] = some (some (verdict o), time)
  log : ∀ fuel, 3 ≤ fuel → (e.run fuel).state.gateway.log
    = e.stage.gateway.log ++ events.map (LogRecord.mk .none)
  received : ∀ fuel, 3 ≤ fuel → ∀ i, ((e.run fuel).state.gateway.hosts i).requests
    = (e.stage.gateway.hosts i).requests ++ if i = e.bare.host then [e.request] else []

/-- The deadline of a wrapper is the least one, and that of the innermost wrapper among those whose
timers go off first. -/
structure Soonest (w : Wrapper) (d : Duration) : Prop where
  deadline : w.deadline = some d
  first : ∃ inner outer, e.wrappers = inner ++ w :: outer ∧
    (∀ v ∈ inner, ∀ x ∈ v.deadline, d.ticks < x.ticks) ∧
    ∀ v ∈ outer, ∀ x ∈ v.deadline, d.ticks ≤ x.ticks

/-! ## The deadline that counts -/

/-- Some deadline is the innermost of the least ones, unless there is none. -/
theorem exists_first (ws : List Wrapper) : (∀ w ∈ ws, w.deadline = none) ∨
    ∃ w d inner outer, w.deadline = some d ∧ ws = inner ++ w :: outer ∧
      (∀ v ∈ inner, ∀ x ∈ v.deadline, d.ticks < x.ticks) ∧
      ∀ v ∈ outer, ∀ x ∈ v.deadline, d.ticks ≤ x.ticks := by
  induction ws with
  | nil => exact .inl (by simp)
  | cons w ws ih =>
    cases hw : w.deadline with
    | none =>
      rcases ih with hnone | ⟨v, d, inner, outer, hv, rfl, hinner, houter⟩
      · exact .inl (by simpa [hw] using hnone)
      · refine .inr ⟨v, d, w :: inner, outer, hv, rfl, ?_, houter⟩
        simpa [hw] using hinner
    | some d =>
      right
      rcases ih with hnone | ⟨v, x, inner, outer, hv, rfl, hinner, houter⟩
      · refine ⟨w, d, [], ws, hw, rfl, by simp, ?_⟩
        intro v hv x hx
        rw [hnone v hv] at hx
        cases hx
      · rcases Nat.lt_or_ge x.ticks d.ticks with hlt | hge
        · -- a wrapper further out has a deadline that passes earlier
          refine ⟨v, x, w :: inner, outer, hv, rfl, ?_, houter⟩
          simpa [hw, hlt] using hinner
        · refine ⟨w, d, [], inner ++ v :: outer, hw, rfl, by simp, ?_⟩
          intro u hu y hy
          rw [List.mem_append, List.mem_cons] at hu
          rcases hu with hu | rfl | hu
          · exact hge.trans (hinner u hu y hy).le
          · rw [hv] at hy
            rw [← Option.some.inj hy]
            exact hge
          · exact hge.trans (houter u hu y hy)

/-- A deadline counts, unless there is none. -/
theorem exists_soonest :
    (∀ w ∈ e.wrappers, w.deadline = none) ∨ ∃ w d, e.Soonest w d := by
  rcases exists_first e.wrappers with hnone | ⟨w, d, inner, outer, hw, hsplit, hinner, houter⟩
  · exact .inl hnone
  · exact .inr ⟨w, d, hw, inner, outer, hsplit, hinner, houter⟩

variable {e} {w : Wrapper} {d : Duration}

/-- No deadline is less than the one that counts. -/
theorem Soonest.ticks_le (h : e.Soonest w d) {v : Wrapper} (hv : v ∈ e.wrappers) {x : Duration}
    (hx : x ∈ v.deadline) : d.ticks ≤ x.ticks := by
  obtain ⟨inner, outer, hsplit, hinner, houter⟩ := h.first
  rw [hsplit, List.mem_append, List.mem_cons] at hv
  rcases hv with hv | rfl | hv
  · exact (hinner v hv x hx).le
  · rw [h.deadline] at hx
    rw [Option.some.inj hx]
  · exact houter v hv x hx

/-! ## The round trip -/

variable (e)

/-- The deadlines that are running, the innermost first. -/
def limits : List Limit :=
  e.wrappers.filterMap fun w => w.deadline.map (Limit.start e.stage.gateway)

/-- The gateway in which the request has been sent, at a later time. -/
def later (time : Nat) : Gateway := { e.sent.1 with now := time }

theorem trip_eq : e.sent.2
    = ⟨e.bare.host, e.request, e.host.delay.map (e.start + ·), e.limits⟩ := by
  obtain ⟨hhost, hdeadlines⟩ := Wrapper.around_eq e.bare e.wrappers
  rw [e.isBare, List.nil_append] at hdeadlines
  simp only [sent, RoundTrip.start, hhost, hdeadlines, List.filterMap_map]
  rfl

theorem hosts_sent : e.sent.1.hosts
    = setAt e.stage.gateway.hosts e.bare.host (e.host.receive e.request) := by
  obtain ⟨hhost, -⟩ := Wrapper.around_eq e.bare e.wrappers
  simp only [sent, RoundTrip.start, Gateway.setHost, hhost]
  rfl

theorem hasPassed_later (d : Duration) (time : Nat) :
    Limit.hasPassed (e.later time) ⟨d, time⟩ = true := by
  simp [Limit.hasPassed, later]

variable {e} {time : Nat} {l : Limit}

theorem mem_limits (h : l ∈ e.limits) : ∃ w ∈ e.wrappers, ∃ d ∈ w.deadline,
    l = ⟨d, e.start + d.ticks⟩ := by
  obtain ⟨w, hw, hl⟩ := List.mem_filterMap.mp h
  obtain ⟨d, hd, rfl⟩ := Option.map_eq_some_iff.mp hl
  exact ⟨w, hw, d, hd, rfl⟩

/-- An alarm is set for the answer, if there ever is one, and for each of the deadlines. -/
theorem mem_alarms {alarm : Nat} (h : alarm ∈ e.sent.2.alarms) :
    (∃ delay ∈ e.host.delay, alarm = e.start + delay) ∨
      ∃ w ∈ e.wrappers, ∃ d ∈ w.deadline, alarm = e.start + d.ticks := by
  rw [trip_eq, RoundTrip.alarms, List.mem_append, Option.mem_toList] at h
  rcases h with h | h
  · obtain ⟨delay, hdelay, rfl⟩ := Option.map_eq_some_iff.mp h
    exact .inl ⟨delay, hdelay, rfl⟩
  · obtain ⟨l, hl, rfl⟩ := List.mem_map.mp h
    obtain ⟨w, hw, d, hd, rfl⟩ := mem_limits hl
    exact .inr ⟨w, hw, d, hd, rfl⟩

/-- The reply is there: it counts, whatever the deadlines. -/
theorem resume_of_reply {delay : Nat} (hdelay : e.host.delay = some delay) :
    ∃ g, e.sent.2.resume (e.later (e.start + delay)) .none = (g, .ended e.reply) ∧
      g.now = e.start + delay ∧ g.log = e.stage.gateway.log ∧
      ∀ i, (g.hosts i).requests = (e.sent.1.hosts i).requests := by
  have hhost : e.sent.1.hosts e.bare.host = e.host.receive e.request := by
    rw [hosts_sent, setAt_same]
  have hanswered : e.sent.2.isAnswered (e.later (e.start + delay)) = true := by
    rw [trip_eq, RoundTrip.isAnswered, hdelay, Option.map_some, Option.any_some]
    exact decide_eq_true le_rfl
  refine ⟨(e.later (e.start + delay)).setHost e.bare.host
    ((e.host.receive e.request).answer e.request).2, ?_, rfl, rfl, ?_⟩
  · rw [RoundTrip.resume_of_due .none hanswered, trip_eq]
    simp only [later, hhost]
    rfl
  · intro i
    by_cases hi : i = e.bare.host
    · subst hi
      simp [Gateway.setHost, later, hhost, Host.receive]
    · simp [Gateway.setHost, later, hi]

/-- The reply is not there, and of the deadlines that have passed this one is the innermost. -/
theorem resume_of_limit (hslow : ∀ delay ∈ e.host.delay, time < e.start + delay)
    (hl : e.limits.find? (Limit.hasPassed (e.later time)) = some l) :
    ∃ g, e.sent.2.resume (e.later time) .none = (g, .ended (.error (.timeout l.duration.millis))) ∧
      g.now = time ∧
      g.log = e.stage.gateway.log ++ [⟨.none, .requestTimedOut e.request.kind l.duration⟩] ∧
      ∀ i, (g.hosts i).requests = (e.sent.1.hosts i).requests := by
  have hanswered : e.sent.2.isAnswered (e.later time) = false := by
    rw [trip_eq, RoundTrip.isAnswered, Option.any_map, Option.any_eq_false]
    intro delay hdelay
    exact decide_eq_false (Nat.not_le.mpr (hslow delay hdelay))
  have hfind : e.sent.2.limits.find? (Limit.hasPassed (e.later time)) = some l := by
    rw [trip_eq]
    exact hl
  refine ⟨(e.later time).report .none (.requestTimedOut e.request.kind l.duration), ?_, rfl, rfl,
    fun _ => rfl⟩
  rw [RoundTrip.resume_of_passed .none hanswered hfind, trip_eq]

/-! ## The job -/

theorem resume_job_ended {s : Stage} {trip : RoundTrip} {g : Gateway} {o : Outcome Response}
    (h : trip.resume s.gateway .none = (g, .ended o)) :
    workshop.resume s (.calling .nothing (.roundTrip trip))
      = ({ s with gateway := g }, .ended (verdict o)) := by
  cases o <;>
  · simp only [workshop, Stage.resume, Stage.resumeCall, Call.resume, h]
    rfl

theorem resume_job_waiting {s : Stage} {trip : RoundTrip}
    (h : trip.resume s.gateway .none = (s.gateway, .waiting trip)) :
    workshop.resume s (.calling .nothing (.roundTrip trip))
      = (s, .waiting (.calling .nothing (.roundTrip trip))) := by
  simp only [workshop, Stage.resume, Stage.resumeCall, Call.resume, h]
  rfl

/-- The round trip ends as it does at its next alarm. -/
theorem endsIn_of_resume {g : Gateway} {o : Outcome Response} {events : List LogEvent}
    (htime : e.sent.2.alarms.min? = some time) (hstart : e.start ≤ time)
    (h : e.sent.2.resume (e.later time) .none = (g, .ended o)) (hnow : g.now = time)
    (hlog : g.log = e.stage.gateway.log ++ events.map (LogRecord.mk .none))
    (hhosts : ∀ i, (g.hosts i).requests = (e.sent.1.hosts i).requests) :
    e.EndsIn o time events := by
  have hrun : ∀ fuel, 3 ≤ fuel →
      e.run fuel = .finished workshop { e.stage with gateway := g } [0] (verdict o) := by
    intro fuel hfuel
    have halarms : (workshop.alarms (.calling .nothing (.roundTrip e.sent.2))).min? = some time :=
      htime
    -- polled at once, the round trip waits; polled again at its next alarm, it ends
    refine Schedule.run_alone_alarm (s := e.sentStage) halarms hstart rfl rfl rfl ?_ ?_ hfuel
    · intro hlt
      obtain ⟨-, hleast⟩ := List.min?_eq_some_iff.mp htime
      exact resume_job_waiting (RoundTrip.resume_of_no_alarm .none fun alarm halarm =>
        hlt.trans_le (hleast alarm halarm))
    · exact resume_job_ended h
  constructor
  · intro fuel hfuel
    rw [hrun fuel hfuel, Schedule.result?_finished]
    exact congrArg (fun t => some (some (verdict o), t)) hnow
  · intro fuel hfuel
    rw [hrun fuel hfuel]
    exact hlog
  · intro fuel hfuel i
    rw [hrun fuel hfuel]
    show (g.hosts i).requests = _
    rw [hhosts, hosts_sent]
    by_cases hi : i = e.bare.host
    · subst hi
      simp [Host.receive, host]
    · simp [hi]

/-! ## How the round trip ends -/

/-- A reply that comes no later than any deadline gets through. -/
theorem endsIn_reply {delay : Nat} (hdelay : e.host.delay = some delay)
    (h : ∀ w ∈ e.wrappers, ∀ d ∈ w.deadline, delay ≤ d.ticks) :
    e.EndsIn e.reply (e.start + delay) [] := by
  have htime : e.sent.2.alarms.min? = some (e.start + delay) := by
    rw [List.min?_eq_some_iff]
    constructor
    · rw [trip_eq, RoundTrip.alarms, hdelay]
      exact List.mem_append_left _ (List.mem_singleton_self _)
    · intro alarm halarm
      rcases mem_alarms halarm with ⟨wait, hwait, rfl⟩ | ⟨w, hw, d, hd, rfl⟩
      · rw [hdelay] at hwait
        rw [Option.some.inj hwait]
      · exact Nat.add_le_add_left (h w hw d hd) _
  obtain ⟨g, hresume, hnow, hlog, hhosts⟩ := e.resume_of_reply hdelay
  exact endsIn_of_resume htime (Nat.le_add_right _ _) hresume hnow (by simpa using hlog) hhosts

/-- The innermost of the least deadlines cuts off a reply that comes later or never. -/
theorem endsIn_timeout (hd : e.Soonest w d) (h : ∀ delay ∈ e.host.delay, d.ticks < delay) :
    e.EndsIn (.error (.timeout d.millis)) (e.start + d.ticks)
      [.requestTimedOut e.request.kind d] := by
  obtain ⟨inner, outer, hsplit, hinner, -⟩ := hd.first
  have hlimits : e.limits
      = inner.filterMap (fun w => w.deadline.map (Limit.start e.stage.gateway)) ++
        ⟨d, e.start + d.ticks⟩ ::
          outer.filterMap (fun w => w.deadline.map (Limit.start e.stage.gateway)) := by
    rw [limits, hsplit, List.filterMap_append, List.filterMap_cons, hd.deadline, Option.map_some]
    rfl
  have hpassed : e.limits.find? (Limit.hasPassed (e.later (e.start + d.ticks)))
      = some ⟨d, e.start + d.ticks⟩ := by
    rw [hlimits, List.find?_append, List.find?_eq_none.mpr, Option.none_or,
      List.find?_cons_of_pos (e.hasPassed_later d _)]
    · -- no deadline further in has passed
      intro l hl
      obtain ⟨v, hv, hl⟩ := List.mem_filterMap.mp hl
      obtain ⟨x, hx, rfl⟩ := Option.map_eq_some_iff.mp hl
      have hlater : e.start + d.ticks < e.start + x.ticks :=
        Nat.add_lt_add_left (hinner v hv x hx) _
      simpa [Limit.hasPassed, later, Limit.start, start] using hlater
  have htime : e.sent.2.alarms.min? = some (e.start + d.ticks) := by
    rw [List.min?_eq_some_iff]
    constructor
    · have hmem := List.mem_map_of_mem (f := Limit.expires) (List.mem_of_find?_eq_some hpassed)
      rw [trip_eq]
      exact List.mem_append_right _ hmem
    · intro alarm halarm
      rcases mem_alarms halarm with ⟨delay, hdelay, rfl⟩ | ⟨v, hv, x, hx, rfl⟩
      · exact Nat.add_le_add_left (h delay hdelay).le _
      · exact Nat.add_le_add_left (hd.ticks_le hv hx) _
  obtain ⟨g, hresume, hnow, hlog, hhosts⟩ := resume_of_limit (e := e)
    (fun delay hdelay => Nat.add_lt_add_left (h delay hdelay) e.start) hpassed
  exact endsIn_of_resume htime (Nat.le_add_right _ _) hresume hnow hlog hhosts

/-! ## The main result -/

end Errand

end MuxBridge
