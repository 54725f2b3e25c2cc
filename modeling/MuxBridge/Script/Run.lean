/-
# Running scripts

The steps of a script run one after the other. The jobs of a step share the stage; when all of them
are over its report tells the results, the time, what every host has received and what was logged.
-/
import MuxBridge.Script.Stage

namespace MuxBridge.Script

/-- The jobs of scripts work on a stage. -/
def workshop : Workshop Stage Job Verdict where
  now s := s.gateway.now
  moveTo s time := { s with gateway := { s.gateway with now := time } }
  resume := Stage.resume
  isReady s j :=
    match j with
    | .planned .. => false
    | .calling _ c => c.isReady s.gateway
  alarms j :=
    match j with
    | .planned time _ => [time]
    | .calling _ c => c.alarms

/-! ## Results -/

/-- The results of a step: one, or those of several calls with the times at which they ended. -/
inductive Results where
  | one (v : Verdict)
  | several (rs : List (Results × Nat))

mutual

/-- The results of the step at a path, and the time at which it ended: several calls have ended when
the last of them has. -/
def Step.results? (s : Schedule Stage Job Verdict) (path : JobPath) :
    Step → Option (Results × Nat)
  | .single _ =>
    match s.result? path with
    | some (some v, time) => some (.one v, time)
    | _ => none
  | .concurrent calls =>
    match s.result? path with
    | some (none, time) =>
      let rs := Step.callResults s path 0 calls
      some (.several rs, rs.foldl (fun t r => max t r.2) time)
    | _ => none

/-- The results of calls, numbered from `k` on. -/
def Step.callResults (s : Schedule Stage Job Verdict) (path : JobPath) (k : Nat) :
    List (Nat × Step) → List (Results × Nat)
  | [] => []
  | (_, step) :: calls =>
    (Step.results? s (path ++ [k]) step).toList ++ Step.callResults s path (k + 1) calls

end

mutual

/-- The number of jobs that a step gives rise to. -/
def Step.size : Step → Nat
  | .single _ => 1
  | .concurrent calls => 1 + Step.callSize calls

/-- The number of jobs that calls give rise to. -/
def Step.callSize : List (Nat × Step) → Nat
  | [] => 0
  | (_, step) :: calls => step.size + Step.callSize calls

end

/-! ## Steps -/

/-- What is known after a step. -/
structure Report where
  results : Results
  time : Nat
  received : List (String × Nat)
  factoryCalls : Nat
  log : List LogRecord

/-- A step whose jobs are all over. A job is resumed at most sixteen times, for it passes through
fewer phases. -/
def finish (s : Stage) (step : Step) : Schedule Stage Job Verdict :=
  Schedule.run workshop (32 * (step.size + 1)) (Schedule.start s [.planned s.gateway.now step])

/-- Runs a step. -/
def runStep (s : Stage) (step : Step) : Stage × Report :=
  let s := { s with gateway := { s.gateway with log := [] } }
  let done := finish s step
  let results := (step.results? done [0]).map Prod.fst
  let g := done.state.gateway
  (done.state, ⟨results.getD (.several []), g.now, done.state.received, g.factoryCalls, g.log⟩)

/-- Runs steps one after the other. -/
def runSteps : Stage → List Step → List Report
  | _, [] => []
  | s, step :: steps =>
    let (s, r) := runStep s step
    r :: runSteps s steps

/-- Runs a script. -/
def run (steps : List Step) : List Report := runSteps .start steps

end MuxBridge.Script
