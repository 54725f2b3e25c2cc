/-
# Hosts

The application at the other end of a transport, as far as the gateway can tell: it notes every
request on arrival, takes its time, and answers, unless it never does. A `Responder` says how: by a
function of the request, from a queue of replies, or by rules with replies of their own.
-/
import MuxBridge.Message.Coding
import MuxBridge.Message.Outcome

namespace MuxBridge

/-- A rule of a host: which requests it is for, and its replies, the last of which repeats. -/
structure Rule where
  /-- The members that the JSON of a request has to have. -/
  conditions : List (String × Json)
  replies : List (Outcome Response)

/-- Whether a rule is for a request. -/
def Rule.covers (r : Rule) (q : Request) : Bool :=
  r.conditions.all fun (name, value) => (q.toJson.member? name).any (· == value)

/-- How a host answers. -/
inductive Responder where
  /-- By a function of the request. -/
  | answering (reply : Request → Outcome Response)
  /-- By replies in order, and not at all once they are used up. -/
  | queued (replies : List (Outcome Response))
  /-- By the first rule that is for the request. -/
  | ruled (rules : List Rule)

namespace Responder

/-- Answers everything alike. -/
def replying (r : Response) : Responder := .answering fun _ => .ok r

/-- Reports connections, and understands no other request. -/
def reporting (entries : List Entry) : Responder :=
  .answering fun q =>
    match q with
    | .listConnections => .ok (.success (.listConnections entries))
    | _ => .ok (.failure .invalidRequest)

/-- The reply of the first rule for a request, and the rules that are left. -/
def applyRules (q : Request) : List Rule → Outcome Response × List Rule
  | [] => (.error (.transport ("no rule for " ++ q.kind.name)), [])
  | r :: rs =>
    if r.covers q then
      match r.replies with
      | a :: b :: more => (a, { r with replies := b :: more } :: rs)
      | [a] => (a, r :: rs)
      | [] => (.error (.transport ("no rule for " ++ q.kind.name)), r :: rs)
    else
      let (a, rest) := applyRules q rs
      (a, r :: rest)

/-- The reply to a request, and how further requests are answered. -/
def answer (q : Request) : Responder → Outcome Response × Responder
  | .answering reply => (reply q, .answering reply)
  | .queued (r :: rs) => (r, .queued rs)
  | .queued [] => (.error (.transport "no scripted reply left"), .queued [])
  | .ruled rs =>
    let (a, rest) := applyRules q rs
    (a, .ruled rest)

end Responder

/-- A host. -/
structure Host where
  responder : Responder
  /-- The milliseconds between the arrival of a request and its answer, if there ever is one. -/
  delay : Option Nat
  /-- The requests received so far, in order of arrival. -/
  requests : List Request

namespace Host

/-- A host that has received nothing. -/
def fresh (responder : Responder) (delay : Option Nat) : Host := ⟨responder, delay, []⟩

instance : Inhabited Host := ⟨fresh (.queued []) (some 0)⟩

/-- Notes the arrival of a request. -/
def receive (h : Host) (q : Request) : Host := { h with requests := h.requests ++ [q] }

/-- Answers a request that has been received. -/
def answer (h : Host) (q : Request) : Outcome Response × Host :=
  let (a, r) := h.responder.answer q
  (a, { h with responder := r })

/-- Answering notes nothing. -/
@[simp] theorem requests_answer (h : Host) (q : Request) :
    (h.answer q).2.requests = h.requests := rfl

/-- Receiving changes no answer. -/
@[simp] theorem responder_receive (h : Host) (q : Request) :
    (h.receive q).responder = h.responder := rfl

end Host

end MuxBridge
