/-
# The stage of a script

What a script has set up so far, under its names, and how an action begins and ends. Serial numbers
are given out once and never again, so a name that is used twice stands for two different things.
-/
import MuxBridge.Schedule
import MuxBridge.Script.Step

namespace MuxBridge.Script

/-- A transport with the serial number of the one inside it. -/
structure NamedTransport where
  transport : Transport
  inner : Option Nat

/-- What a script has set up. -/
structure Stage where
  gateway : Gateway
  /-- The number that is given out next. -/
  serial : Nat
  transports : List (String × NamedTransport)
  slots : List (String × Nat)
  connections : List (String × Connection)

/-- The name of the slot that is always there. -/
def globalSlot : String := "global"

namespace Stage

/-- Nothing is set up. -/
def start : Stage := ⟨.start, 1, [], [], []⟩

/-- Gives a name a new meaning. -/
def rename {α : Type} (name : String) (a : α) (names : List (String × α)) : List (String × α) :=
  (name, a) :: names.filter (·.1 != name)

/-- Gives out a serial number. -/
def fresh (s : Stage) : Stage × Nat := ({ s with serial := s.serial + 1 }, s.serial)

/-- Puts a transport under a name. -/
def addTransport (s : Stage) (name : String) (t : Transport) (inner : Option Nat) : Stage :=
  { s with transports := rename name ⟨t, inner⟩ s.transports }

/-- Puts a connection under a name. -/
def addConnection (s : Stage) (name : String) (c : Connection) : Stage :=
  { s with connections := rename name c s.connections }

/-- Puts connections under a stem with their numbers. -/
def addConnections (s : Stage) (stem : String) (cs : List Connection) : Stage :=
  cs.zipIdx.foldl (fun s p => s.addConnection (stem ++ toString p.2) p.1) s

/-- The number of the slot with a name. -/
def slot? (s : Stage) (name : String) : Except Missing Nat :=
  if name = globalSlot then .ok 0
  else
    match s.slots.lookup name with
    | some n => .ok n
    | none => .error (.slot name)

/-- The transport with a name. -/
def transport? (s : Stage) (name : String) : Except Missing NamedTransport :=
  match s.transports.lookup name with
  | some t => .ok t
  | none => .error (.transport name)

/-- The number of the host with a name. -/
def host? (s : Stage) (name : String) : Except Missing Nat :=
  match s.transports.lookup name with
  | some ⟨t, none⟩ => .ok t.host
  | some ⟨_, some _⟩ => .error (.host name)
  | none => .error (.transport name)

/-- The name under which a transport inside another one is found, if it still has one. -/
def innerName? (s : Stage) (t : NamedTransport) : Option String :=
  t.inner.bind fun serial =>
    (s.transports.find? fun p => p.2.transport.serial == serial).map Prod.fst

/-- The connection with a name. -/
def connection? (s : Stage) (name : String) : Except Missing Connection :=
  match s.connections.lookup name with
  | some c => .ok c
  | none => .error (.connection name)

/-- How many requests every host with a name has received. -/
def received (s : Stage) : List (String × Nat) :=
  s.transports.filterMap fun (name, t) =>
    if t.inner.isNone then some (name, (s.gateway.hosts t.transport.host).requests.length) else none

end Stage

/-! ## Actions that take no time -/

namespace Stage

/-- Sets up a host and a transport to it. -/
def addHost (s : Stage) (name : String) (responder : Responder) (delay : Nat) : Stage :=
  let (s, n) := s.fresh
  let h := Host.fresh responder (some (min delay longestSleep))
  let s := { s with gateway := s.gateway.setHost n h }
  s.addTransport name ⟨n, [], n⟩ none

/-- Sets up a transport around another one. -/
def wrap (s : Stage) (name inner : String) (timeout : Option Duration) : Except Missing Stage := do
  let t ← s.transport? inner
  let (s, n) := s.fresh
  return s.addTransport name (t.transport.wrap n timeout) (some t.transport.serial)

/-- Sets up a slot. -/
def addSlot (s : Stage) (name : String) : Stage :=
  let (s, n) := s.fresh
  { s with slots := rename name n s.slots }

/-- Registers a factory. -/
def register (s : Stage) (slot : String) (p : FactoryPlan) : Except Missing (Stage × Verdict) := do
  let i ← s.slot? slot
  let t ← p.transport.mapM s.transport?
  let (s, n) := s.fresh
  let (g, o) := s.gateway.register i ⟨n, p.attempt (t.map (·.transport))⟩
  let v : Verdict := match o with
    | .ok _ => .ok .done
    | .error f => .failed f
  return ({ s with gateway := g }, v)

end Stage

/-! ## Calls -/

/-- What becomes of the connections that a call lists. -/
inductive Naming where
  /-- They get no names. -/
  | nothing
  /-- Each gets a name from a stem and its number. -/
  | all (stem : String)
  /-- Only the first one with an identifier is kept, under a name. -/
  | first (id : ConnectionId) (name : String)

/-- A job of a script: a step that is to begin at a time, or a call that is under way. -/
inductive Job where
  | planned (time : Nat) (step : Step)
  | calling (n : Naming) (c : Call)

namespace Stage

/-- What a job has come to once it has begun. -/
abbrev Begun := Stage × Advance Job Verdict

/-- Names the connections that a call has listed. -/
def nameConnections (s : Stage) (cs : List Connection) : Naming → Stage × Answer
  | .nothing => (s, .connections cs)
  | .all stem => (s.addConnections stem cs, .connections cs)
  | .first id name =>
    match Listing.find id cs with
    | some c => (s.addConnection name c, .found (some c))
    | none => (s, .found none)

/-- Ends a call. -/
def conclude (s : Stage) (n : Naming) : Outcome Yield → Stage × Verdict
  | .error f => (s, .failed f)
  | .ok (.delegate d given) => (s, .ok (.delegate d.number (d.transport == given)))
  | .ok (.connections cs) =>
    let (s, a) := s.nameConnections cs n
    (s, .ok a)
  | .ok (.achievement (.output text)) => (s, .ok (.output text))
  | .ok (.achievement .visibilitySet) => (s, .ok .done)
  | .ok (.achievement (.opened w)) => (s, .ok (.window w))
  | .ok (.response r) => (s, .ok (.response r))
  | .ok .rested => (s, .ok .done)

/-- Goes on with a call as far as possible. -/
def resumeCall (s : Stage) (n : Naming) (c : Call) : Begun :=
  match c.resume s.gateway with
  | (g, .waiting c) => ({ s with gateway := g }, .waiting (.calling n c))
  | (g, .ended o) =>
    let (s, v) := { s with gateway := g }.conclude n o
    (s, .ended v)

/-- An action that has ended at once. -/
def answered (s : Stage) (a : Answer) : Begun := (s, .ended (.ok a))

/-- Begins an action, whose names must stand for something. -/
def begin? (s : Stage) : Action → Except Missing Begun
  | .addHost name responder delay => .ok ((s.addHost name responder delay).answered .done)
  | .wrap name inner timeout => do return (← s.wrap name inner timeout).answered .done
  | .inner name => do return s.answered (.inner (s.innerName? (← s.transport? name)))
  | .send name request => do
    let t ← s.transport? name
    match request with
    | .error e => return (s, .ended (.failed (.json e)))
    | .ok q =>
      let (g, trip) := RoundTrip.start s.gateway t.transport q
      return { s with gateway := g }.resumeCall .nothing (.roundTrip trip)
  | .requests name => do
    return s.answered (.requests (s.gateway.hosts (← s.host? name)).requests)
  | .addSlot name => .ok ((s.addSlot name).answered .done)
  | .register slot plan => do
    let (s, v) ← s.register slot plan
    return (s, .ended v)
  | .resetGlobal => .ok ({ s with gateway := s.gateway.reset 0 }.answered .done)
  | .slotState slot => do return s.answered (.slot (s.gateway.slots (← s.slot? slot)))
  | .ensure slot name timeout => do
    let i ← s.slot? slot
    let t ← s.transport? name
    let (s, n) := s.fresh
    return s.resumeCall .nothing (.resolution (.start s.gateway i n t.transport timeout))
  | .list slot name timeout stem => do
    let i ← s.slot? slot
    let t ← s.transport? name
    let (s, n) := s.fresh
    return s.resumeCall (.all stem) (.listing (.start s.gateway i n t.transport timeout))
  | .find slot name timeout id as => do
    let i ← s.slot? slot
    let t ← s.transport? name
    let (s, n) := s.fresh
    return s.resumeCall (.first id as) (.listing (.start s.gateway i n t.transport timeout))
  | .work name w => do
    let c ← s.connection? name
    let (g, d) := Dispatch.start s.gateway c w
    return { s with gateway := g }.resumeCall .nothing (.dispatch d)
  | .owningSession name => do return s.answered (.session (← s.connection? name).owningSession)
  | .lookup name session tab => do
    let d := (← s.connection? name).delegate.directory
    return s.answered (.lookup (d.session? session) (d.window? tab))
  | .describe name => do return s.answered (.shown (← s.connection? name))
  | .sleep millis => .ok (s.resumeCall .nothing (.rest (s.gateway.now + min millis longestSleep)))

/-- Begins an action. -/
def begin (s : Stage) (a : Action) : Begun :=
  match s.begin? a with
  | .ok b => b
  | .error m => (s, .ended (.missing m))

/-- Begins a step. One of several calls falls into them. -/
def beginStep (s : Stage) : Step → Begun
  | .single a => s.begin a
  | .concurrent calls =>
    (s, .split (calls.map fun (millis, step) =>
      .planned (s.gateway.now + min millis longestSleep) step))

/-- Goes on with a job as far as possible. -/
def resume (s : Stage) : Job → Begun
  | .planned time step =>
    if time ≤ s.gateway.now then s.beginStep step else (s, .waiting (.planned time step))
  | .calling n c => s.resumeCall n c

end Stage

end MuxBridge.Script
