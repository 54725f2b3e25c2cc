/-
# What comes with a refusal

A host may put anything into a response with which it refuses a request. Nobody looks at it:
gateways whose hosts differ in the payloads of their refusals only go on in the same way, whatever
is asked of them.

* `Response.strip`: a refusal without its payload, and any success as it is;
* `Call.resume_strip`: a call goes on in the same way among stripped hosts;
* `Service.run_strip`: all that happens happens in the same way among stripped hosts.
-/
import MuxBridge.Proofs.Service.Accounts

namespace MuxBridge

/-! ## Hosts that refuse without a word -/

/-- A refusal without its payload, and any success as it is. -/
def Response.strip (r : Response) : Response := if r.status.isOk then r else .failure r.status

/-- A reply without the payload of a refusal. -/
def Reply.strip (reply : Outcome Response) : Outcome Response := reply.map Response.strip

/-- A rule whose refusals have no payloads. -/
def Rule.strip (r : Rule) : Rule := { r with replies := r.replies.map Reply.strip }

/-- The same answers, where refusals have no payloads. -/
def Responder.strip : Responder → Responder
  | .answering reply => .answering fun q => Reply.strip (reply q)
  | .queued replies => .queued (replies.map Reply.strip)
  | .ruled rules => .ruled (rules.map Rule.strip)

/-- A host whose refusals have no payloads. -/
def Host.strip (h : Host) : Host := { h with responder := h.responder.strip }

/-- A gateway whose hosts refuse without payloads. -/
def Gateway.strip (g : Gateway) : Gateway := { g with hosts := fun i => (g.hosts i).strip }

/-- A stretch of code as it goes among stripped hosts. -/
def stripped {α : Type} (p : Gateway × α) : Gateway × α := (p.1.strip, p.2)

/-- A refusal is the same failure with and without a payload. -/
theorem Response.result_strip (r : Response) : r.strip.result = r.result := by
  obtain ⟨status, payload⟩ := r
  cases status <;> rfl

theorem Responder.applyRules_strip (q : Request) (rules : List Rule) :
    applyRules q (rules.map Rule.strip)
      = (Reply.strip (applyRules q rules).1, (applyRules q rules).2.map Rule.strip) := by
  induction rules with
  | nil => rfl
  | cons r rules ih =>
    have hcovers : r.strip.covers q = r.covers q := rfl
    rw [List.map_cons, applyRules, applyRules, hcovers]
    by_cases h : r.covers q = true
    · obtain ⟨conditions, replies⟩ := r
      rw [if_pos h, if_pos h]
      rcases replies with _ | ⟨a, _ | ⟨b, more⟩⟩ <;> rfl
    · rw [if_neg h, if_neg h, ih]
      rfl

theorem Responder.answer_strip (q : Request) (r : Responder) :
    r.strip.answer q = (Reply.strip (r.answer q).1, (r.answer q).2.strip) := by
  cases r with
  | answering reply => rfl
  | queued replies => cases replies <;> rfl
  | ruled rules => simp only [strip, answer, applyRules_strip]

namespace Gateway

theorem strip_setHost (g : Gateway) (i : Nat) (h : Host) :
    (g.setHost i h).strip = g.strip.setHost i h.strip := by
  simp only [strip, setHost, Gateway.mk.injEq, true_and, and_true]
  funext j
  by_cases hj : j = i <;> simp [setAt, hj]

theorem strip_register (g : Gateway) (i : Nat) (f : Factory) :
    (g.strip.register i f).1 = (g.register i f).1.strip := by
  have hslots : g.strip.slots = g.slots := rfl
  unfold register
  rw [hslots]
  split <;> rfl

end Gateway

/-! ## Round trips -/

namespace RoundTrip

theorem start_strip (g : Gateway) (t : Transport) (q : Request) :
    start g.strip t q = stripped (start g t q) := by
  simp only [start, stripped, Gateway.strip_setHost]
  rfl

theorem resume_strip (g : Gateway) (span : Span) (r : RoundTrip) :
    r.resume g.strip span
      = ((r.resume g span).1.strip, (r.resume g span).2.map id Reply.strip) := by
  have hanswer : (g.strip.hosts r.host).answer r.request
      = (Reply.strip ((g.hosts r.host).answer r.request).1,
        ((g.hosts r.host).answer r.request).2.strip) := by
    simp only [Gateway.strip, Host.strip, Host.answer, Responder.answer_strip]
  have hanswered : r.isAnswered g.strip = r.isAnswered g := rfl
  have hpassed : Limit.hasPassed g.strip = Limit.hasPassed g := rfl
  unfold resume
  rw [hanswered, hpassed]
  split
  · simp only [hanswer, Gateway.strip_setHost]
    rfl
  · split <;> rfl

end RoundTrip

/-! ## Runs of factories -/

namespace FactoryRun

theorem conclude_strip (a : Attempt) (reply : Outcome Response) :
    conclude a (Reply.strip reply) = conclude a reply := by
  cases reply with
  | error e => rfl
  | ok r => simp only [Reply.strip, Except.map, conclude, Response.result_strip]

theorem resumeProbe_strip (g : Gateway) (span : Span) (a : Attempt) (trip : RoundTrip) :
    resumeProbe g.strip span a trip = stripped (resumeProbe g span a trip) := by
  simp only [resumeProbe, trip.resume_strip g span]
  rcases trip.resume g span with ⟨g', trip' | reply⟩
  · rfl
  · simp only [Course.map, conclude_strip, stripped]

theorem resume_strip (g : Gateway) (span : Span) (t : Transport) (run : FactoryRun) :
    run.resume g.strip span t = stripped (run.resume g span t) := by
  cases run with
  | resting a time =>
    have hnow : g.strip.now = g.now := rfl
    simp only [resume, hnow, RoundTrip.start_strip]
    split
    · split
      · exact resumeProbe_strip _ span a _
      · rfl
    · rfl
  | probing a trip => exact resumeProbe_strip g span a trip

end FactoryRun

/-! ## Calls for a delegate -/

namespace Resolution

variable (g : Gateway) (span : Span) (r : Resolution)

theorem concludeRun_strip (o : Outcome Blueprint) :
    r.concludeRun g.strip span o = stripped (r.concludeRun g span o) := by
  cases o <;> rfl

theorem resumeRun_strip (run : FactoryRun) :
    r.resumeRun g.strip span run = stripped (r.resumeRun g span run) := by
  simp only [resumeRun, run.resume_strip g span r.transport]
  rcases run.resume g span r.transport with ⟨g', run' | o⟩
  · rfl
  · simp only [stripped, concludeRun_strip]

theorem takeTurn_strip (f : Factory) :
    r.takeTurn g.strip span f = stripped (r.takeTurn g span f) := by
  cases hd : (g.slots r.slot).delegate with
  | some d => rw [takeTurn_of_some hd, takeTurn_of_some (g := g.strip) hd]; rfl
  | none =>
    rw [takeTurn_of_none hd, takeTurn_of_none (g := g.strip) hd]
    exact resumeRun_strip (g.launch span f).1 span r _

theorem arrive_strip : r.arrive g.strip span = stripped (r.arrive g span) := by
  have hslots : g.strip.slots = g.slots := rfl
  unfold arrive
  rw [hslots]
  split
  · rfl
  · rfl
  · have hturn : r.hasTurn (g.strip.changeSlot r.slot (·.enter r.caller))
        = r.hasTurn (g.changeSlot r.slot (·.enter r.caller)) := rfl
    dsimp only
    rw [hturn]
    split
    · exact takeTurn_strip (g.changeSlot r.slot (·.enter r.caller)) span r _
    · rfl

theorem resumeUnlimited_strip :
    r.resumeUnlimited g.strip span = stripped (r.resumeUnlimited g span) := by
  have hturn : r.hasTurn g.strip = r.hasTurn g := rfl
  unfold resumeUnlimited
  rw [hturn]
  split
  · exact r.arrive_strip g span
  · split
    · exact r.takeTurn_strip g span _
    · rfl
  · exact r.resumeRun_strip g span _

theorem resume_strip : r.resume g.strip span = stripped (r.resume g span) := by
  simp only [resume, r.resumeUnlimited_strip g span]
  rcases r.resumeUnlimited g span with ⟨g', r' | o⟩
  · have hpassed : Limit.hasPassed g'.strip = Limit.hasPassed g' := rfl
    simp only [stripped, hpassed]
    split <;> rfl
  · rfl

theorem launching?_strip :
    r.launching? g.strip = (r.launching? g).map stripped := by
  have hslots : g.strip.slots = g.slots := rfl
  unfold launching?
  rw [hslots]
  split
  · have hturn : r.hasTurn (g.strip.changeSlot r.slot (·.enter r.caller))
        = r.hasTurn (g.changeSlot r.slot (·.enter r.caller)) := rfl
    dsimp only
    rw [hturn]
    split
    · rw [Option.map_map]
      rfl
    · rfl
  · have hturn : r.hasTurn g.strip = r.hasTurn g := rfl
    rw [hturn]
    split <;> rfl
  · rfl

theorem inRun?_strip : r.inRun? g.strip span = (r.inRun? g span).map stripped := by
  unfold inRun?
  split
  · rfl
  · rw [launching?_strip, Option.map_map, Option.map_map]
    rfl

theorem sendings_strip : r.sendings g.strip span = r.sendings g span := by
  unfold sendings
  rw [inRun?_strip]
  cases r.inRun? g span with
  | none => rfl
  | some p => obtain ⟨g', _ | _⟩ := p <;> rfl

theorem resolved?_strip : r.resolved? g.strip span = r.resolved? g span := by
  unfold resolved?
  rw [resume_strip]
  rfl

end Resolution

/-! ## Listings and work -/

namespace Listing

theorem conclude_strip (g : Gateway) (d : Delegate) (reply : Outcome Response) :
    conclude g.strip d (Reply.strip reply) = stripped (conclude g d reply) := by
  cases reply with
  | error e => rfl
  | ok r =>
    simp only [Reply.strip, Except.map, conclude, Response.result_strip]
    split <;> rfl

theorem resumeTrip_strip (g : Gateway) (d : Delegate) (trip : RoundTrip) :
    resumeTrip g.strip d trip = stripped (resumeTrip g d trip) := by
  simp only [resumeTrip, trip.resume_strip g .listing]
  rcases trip.resume g .listing with ⟨g', trip' | reply⟩
  · rfl
  · simp only [Course.map, conclude_strip, stripped]

theorem ask_strip (g : Gateway) (t : Transport) : ask g.strip t = stripped (ask g t) :=
  RoundTrip.start_strip (g.report .listing .listing) t _

theorem resume_strip (g : Gateway) (l : Listing) : l.resume g.strip = stripped (l.resume g) := by
  cases l with
  | resolving r =>
    have hresume := r.resume_strip g .listing
    rcases hres : r.resume g .listing with ⟨g', r' | e | d⟩
    · rw [hres] at hresume
      rw [resume_of_waiting hres, resume_of_waiting hresume]
      rfl
    · rw [hres] at hresume
      rw [resume_of_error hres, resume_of_error hresume]
      rfl
    · rw [hres] at hresume
      rw [resume_of_ok hres, resume_of_ok hresume, ask_strip]
      exact resumeTrip_strip _ d _
  | asking d trip => exact resumeTrip_strip g d trip

theorem reply?_strip (g : Gateway) (l : Listing) :
    l.reply? g.strip = (l.reply? g).map Reply.strip := by
  have htrip : ∀ (g : Gateway) (trip : RoundTrip), (trip.resume g.strip .listing).2.result?
      = (trip.resume g .listing).2.result?.map Reply.strip := by
    intro g trip
    rw [trip.resume_strip]
    cases (trip.resume g .listing).2 <;> rfl
  cases l with
  | resolving r =>
    simp only [reply?, r.resume_strip g .listing]
    rcases r.resume g .listing with ⟨g', r' | e | d⟩
    · rfl
    · rfl
    · simp only [stripped, ask_strip]
      exact htrip _ _
  | asking d trip => exact htrip g trip

theorem sendings_strip (g : Gateway) (l : Listing) : l.sendings g.strip = l.sendings g := by
  cases l with
  | resolving r => simp only [sendings, r.resolved?_strip g]
  | asking => rfl

end Listing

namespace Dispatch

variable (g : Gateway) (d : Dispatch)

theorem conclude_strip (reply : Outcome Response) :
    d.conclude g.strip (Reply.strip reply) = stripped (d.conclude g reply) := by
  cases reply with
  | error e => rfl
  | ok r =>
    simp only [Reply.strip, Except.map, conclude, Response.result_strip]
    split
    · rfl
    · next p? _ =>
      unfold judge
      split
      · rfl
      · rfl
      · rfl
      · unfold openedIn
        dsimp only
        split <;> rfl
      · rfl
      · rfl

theorem resume_strip : d.resume g.strip = stripped (d.resume g) := by
  simp only [resume, d.trip.resume_strip g d.span]
  rcases d.trip.resume g d.span with ⟨g', trip | reply⟩
  · rfl
  · simp only [Course.map, conclude_strip, stripped]

theorem reply?_strip : d.reply? g.strip = (d.reply? g).map Reply.strip := by
  simp only [reply?, d.trip.resume_strip g d.span]
  cases (d.trip.resume g d.span).2 <;> rfl

/-- A refusal asks for no tab, with or without a payload. -/
theorem asked?_strip (w : Work) (reply : Outcome Response) :
    w.asked? (Reply.strip reply) = w.asked? reply := by
  cases reply with
  | error e => rfl
  | ok r => simp only [Reply.strip, Except.map, Work.asked?, Response.result_strip]

theorem lookup?_strip : d.lookup? g.strip = d.lookup? g := by
  unfold lookup?
  rw [reply?_strip]
  cases d.reply? g with
  | none => rfl
  | some reply => exact asked?_strip d.work reply

end Dispatch

/-! ## Calls -/

namespace Call

variable (g : Gateway) (call : Call)

/-- A call of an operation goes on in the same way among stripped hosts. -/
theorem resume_strip {op : Operation} {resolved : Option Delegate} {sent : List Sending}
    (h : op.Tracks resolved sent call) : call.resume g.strip = stripped (call.resume g) := by
  cases call with
  | resolution r => simp only [resume, r.resume_strip g .none, stripped]
  | listing l => simp only [resume, l.resume_strip g, stripped]
  | dispatch d => simp only [resume, d.resume_strip g, stripped]
  | roundTrip | rest => exact h.elim

theorem factorySendings_strip : call.factorySendings g.strip = call.factorySendings g := by
  cases call with
  | resolution r => exact r.sendings_strip g .none
  | listing l =>
    cases l with
    | resolving r => exact r.sendings_strip g .listing
    | asking => rfl
  | dispatch | roundTrip | rest => rfl

theorem ownSendings_strip : call.ownSendings g.strip = call.ownSendings g := by
  cases call with
  | listing l => exact l.sendings_strip g
  | resolution | dispatch | roundTrip | rest => rfl

theorem resolved?_strip : call.resolved? g.strip = call.resolved? g := by
  cases call with
  | resolution r => exact r.resolved?_strip g .none
  | listing l =>
    cases l with
    | resolving r => exact r.resolved?_strip g .listing
    | asking => rfl
  | dispatch | roundTrip | rest => rfl

theorem reply?_strip : call.reply? g.strip = (call.reply? g).map Reply.strip := by
  cases call with
  | listing l => exact l.reply?_strip g
  | dispatch d => exact d.reply?_strip g
  | resolution | roundTrip | rest => rfl

theorem lookups_strip : call.lookups g.strip = call.lookups g := by
  cases call with
  | dispatch d => simp only [lookups, d.lookup?_strip g]
  | resolution | listing | roundTrip | rest => rfl

theorem abandon_strip : call.abandon g.strip = (call.abandon g).strip := by
  cases call with
  | listing l => cases l <;> rfl
  | resolution | dispatch | roundTrip | rest => rfl

end Call

/-! ## Services -/

/-- What happens, where refusals have no payloads. -/
def Occurrence.strip : Occurrence → Occurrence
  | .retune i responder delay => .retune i responder.strip delay
  | o => o

namespace Service

/-- A service whose hosts refuse, and have refused, without payloads. -/
def strip (s : Service) : Service :=
  { s with
    gateway := s.gateway.strip
    replied := fun n => (s.replied n).map Reply.strip }

variable {g : Gateway} {s : Service}

theorem enroll_strip (s : Service) (op : Operation) : s.strip.enroll op = (s.enroll op).strip := by
  cases op with
  | work c w =>
    simp only [enroll, strip, Operation.start, Dispatch.start]
    rw [show s.gateway.strip.report (w.span c.id) (.sending (w.request c.id).kind)
      = (s.gateway.report (w.span c.id) (.sending (w.request c.id).kind)).strip from rfl,
      RoundTrip.start_strip]
    rfl
  | ensure | list | find | owningSession => rfl

theorem advance_strip (hkept : s.Kept g) (n : Nat) :
    s.strip.advance n = (s.advance n).strip := by
  cases hcall : s.live n with
  | none =>
    rw [advance_of_none hcall, advance_of_none (show s.strip.live n = none from hcall)]
  | some call =>
    obtain ⟨op, hop⟩ := hkept.exists_of_live hcall
    have hresume := call.resume_strip s.gateway ((hkept.sound n op hop).tracks call hcall)
    rw [advance_eq hop hcall,
      advance_eq (s := s.strip) (show s.strip.operations[n]? = some op from hop) hcall]
    simp only [strip, hresume, stripped, call.factorySendings_strip, call.ownSendings_strip,
      call.resolved?_strip, call.reply?_strip, call.lookups_strip, Service.mk.injEq, true_and,
      and_true]
    funext m
    by_cases hm : m = n
    · subst hm
      simp only [setAt_same]
      cases call.reply? s.gateway <;> rfl
    · simp only [setAt_of_ne _ _ hm]

theorem step_strip (hkept : s.Kept g) (o : Occurrence) :
    s.strip.step o.strip = (s.step o).strip := by
  cases o with
  | begin op =>
    simp only [step, Occurrence.strip, enroll_strip]
    exact advance_strip (kept_enroll hkept op) _
  | resume n => exact advance_strip hkept n
  | abandon n =>
    cases hcall : s.live n with
    | none => simp only [step, Occurrence.strip, hcall, show s.strip.live n = none from hcall]
    | some call =>
      simp only [step, Occurrence.strip, hcall, show s.strip.live n = some call from hcall]
      simp only [strip, call.abandon_strip]
  | register i f => simp only [step, Occurrence.strip, strip, Gateway.strip_register]
  | reset | elapse => rfl
  | retune i responder delay =>
    simp only [step, Occurrence.strip, strip, Gateway.strip_setHost]
    rfl

/-- Whatever happens, happens in the same way among stripped hosts. -/
theorem run_strip (hkept : s.Kept g) (os : List Occurrence) :
    s.strip.run (os.map Occurrence.strip) = (s.run os).strip := by
  induction os generalizing s with
  | nil => rfl
  | cons o os ih =>
    have hrest := ih (kept_step hkept o)
    rw [← step_strip hkept] at hrest
    exact hrest

/-- What happens does not depend on what comes with a refusal. -/
theorem strip_run_congr {g g' : Gateway} {os os' : List Occurrence} (hg : g'.strip = g.strip)
    (hos : os'.map Occurrence.strip = os.map Occurrence.strip) :
    ((opening g').run os').strip = ((opening g).run os).strip := by
  calc ((opening g').run os').strip
      = (opening g'.strip).run (os'.map Occurrence.strip) := (run_strip (kept_opening g') os').symm
    _ = (opening g.strip).run (os.map Occurrence.strip) := by rw [hg, hos]
    _ = ((opening g).run os).strip := run_strip (kept_opening g) os

end Service

end MuxBridge
