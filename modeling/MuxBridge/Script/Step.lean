/-
# Steps of a script

A script sets up hosts, transports, slots and factories under names and makes calls with them, one
after the other or several at a time. Here is what a step may say and what it may be answered.
-/
import MuxBridge.Gateway.Call

namespace MuxBridge.Script

/-! ## Steps -/

/-- The longest time, in milliseconds, that anything in a script sleeps: thirty years of 365 days.
Whatever is told to sleep longer sleeps for so long; deadlines run as long as they are told to. -/
def longestSleep : Nat := 30 * 365 * 24 * 60 * 60 * 1000

/-- A factory as a script describes it. Its first runs may fail. -/
structure FactoryPlan where
  delay : Nat
  probe : Bool
  failures : Nat
  failure : Option Failure
  /-- The name of the transport for its delegates, if it is not that of the caller. -/
  transport : Option String
  sessions : List SessionId
  windows : List (TabId × WindowId)

/-- The run of a planned factory, given the transport for its delegates. -/
def FactoryPlan.attempt (p : FactoryPlan) (t : Option Transport) (n : Nat) : Attempt :=
  { delay := min p.delay longestSleep
    probe := p.probe
    outcome :=
      match if n < p.failures then p.failure else none with
      | some f => .error f
      | none => .ok ⟨t, Directory.ofLists p.sessions p.windows⟩ }

/-- One thing to do. -/
inductive Action where
  /-- Sets up a host and a transport to it. -/
  | addHost (name : String) (responder : Responder) (delay : Nat)
  /-- Sets up a transport with a deadline around another one. -/
  | wrap (name inner : String) (timeout : Option Duration)
  /-- Tells which transport is inside another one. -/
  | inner (transport : String)
  | send (transport : String) (request : Read Request)
  /-- Tells what a host has received. -/
  | requests (transport : String)
  | addSlot (name : String)
  | register (slot : String) (plan : FactoryPlan)
  /-- Empties the slot that is always there. -/
  | resetGlobal
  | slotState (slot : String)
  | ensure (slot transport : String) (timeout : Option Duration)
  /-- Lists connections and names them by a stem and a number. -/
  | list (slot transport : String) (timeout : Option Duration) (stem : String)
  /-- Looks for a connection and names it. -/
  | find (slot transport : String) (timeout : Option Duration) (id : ConnectionId) (name : String)
  | work (connection : String) (work : Work)
  | owningSession (connection : String)
  | lookup (connection : String) (session : SessionId) (tab : TabId)
  /-- Describes a connection. -/
  | describe (connection : String)
  | sleep (millis : Nat)

/-- A step: one action, or several steps at a time, each after so many milliseconds. -/
inductive Step where
  | single (a : Action)
  | concurrent (calls : List (Nat × Step))

/-! ## Answers -/

/-- What an action is answered when nothing goes wrong. -/
inductive Answer where
  | done
  | inner (name : Option String)
  | response (r : Response)
  | requests (qs : List Request)
  | slot (s : Slot)
  | delegate (number : Nat) (sameTransport : Bool)
  | connections (cs : List Connection)
  | found (c : Option Connection)
  | output (text : String)
  | window (w : Option WindowId)
  | session (s : Option SessionId)
  | lookup (s : Option SessionId) (w : Option WindowId)
  | shown (c : Connection)

/-- A name that stands for nothing. -/
inductive Missing where
  | connection (name : String)
  | transport (name : String)
  | slot (name : String)
  /-- A transport that is wrapped, where a host is asked for. -/
  | host (name : String)
  deriving DecidableEq, Repr

/-- The text of a missing name. -/
def Missing.text : Missing → String
  | .connection n => "conn " ++ n
  | .transport n => "transport " ++ n
  | .slot n => "slot " ++ n
  | .host n => "scripted " ++ n

/-- How an action ends. -/
inductive Verdict where
  | ok (a : Answer)
  | failed (f : Failure)
  | missing (m : Missing)

end MuxBridge.Script
