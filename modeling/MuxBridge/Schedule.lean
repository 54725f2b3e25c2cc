/-
# Schedules

How several jobs share one state, one clock and one thread. Jobs that can go on take their turns in
the order in which they became able to. When none can, the clock jumps to the next alarm and wakes
the jobs it was set for. A job may fall into several jobs, which line up behind all others.
`Schedule.run` goes on until all jobs are over.
-/

namespace MuxBridge

/-- What becomes of a job that is resumed. -/
inductive Advance (τ ρ : Type) where
  | waiting (job : τ)
  | ended (result : ρ)
  /-- The job is over, and others take its place. -/
  | split (parts : List τ)

/-- How jobs of type `τ` with results in `ρ` work on a state of type `σ`. -/
structure Workshop (σ τ ρ : Type) where
  now : σ → Nat
  /-- Moves the clock to a later time. -/
  moveTo : σ → Nat → σ
  resume : σ → τ → σ × Advance τ ρ
  /-- Whether a job that waits can go on without the clock. -/
  isReady : σ → τ → Bool
  /-- The times at which a job that waits can go on. -/
  alarms : τ → List Nat

/-- The number of a job among its likes, behind the numbers of the jobs that it is a part of. -/
abbrev JobPath := List Nat

/-- Jobs under way. The path of a job tells it from all others. -/
structure Schedule (σ τ ρ : Type) where
  state : σ
  /-- The jobs that can go on, in order. -/
  runnable : List (JobPath × τ)
  /-- The jobs that wait, those that waited first in front. -/
  waiting : List (JobPath × τ)
  /-- The jobs that are over, with their results and times. A job that fell into others has no
  result of its own. -/
  ended : List (JobPath × Option ρ × Nat)

namespace Schedule

variable {σ τ ρ : Type}

/-- The parts of a job under their paths, in order. -/
def branches (path : JobPath) (parts : List τ) : List (JobPath × τ) :=
  parts.zipIdx.map fun (t, k) => (path ++ [k], t)

/-- Jobs that start in order. -/
def start (state : σ) (jobs : List τ) : Schedule σ τ ρ := ⟨state, branches [] jobs, [], []⟩

/-- Moves the waiting jobs with a property behind those that can go on. -/
def wake (s : Schedule σ τ ρ) (p : τ → Bool) : Schedule σ τ ρ :=
  { s with
    runnable := s.runnable ++ s.waiting.filter fun j => p j.2
    waiting := s.waiting.filter fun j => !p j.2 }

/-- Notes that a job is over. -/
def close (w : Workshop σ τ ρ) (s : Schedule σ τ ρ) (path : JobPath) (r : Option ρ) :
    Schedule σ τ ρ :=
  { s with ended := s.ended ++ [(path, r, w.now s.state)] }

/-- Resumes a job. -/
def resumeJob (w : Workshop σ τ ρ) (s : Schedule σ τ ρ) (path : JobPath) (t : τ) :
    Schedule σ τ ρ :=
  match w.resume s.state t with
  | (state, .waiting t) => { s with state := state, waiting := s.waiting ++ [(path, t)] }
  | (state, .ended r) => { s with state := state }.close w path (some r)
  | (state, .split parts) =>
    { s with state := state, runnable := s.runnable ++ branches path parts }.close w path none

/-- The next alarm of the waiting jobs. -/
def nextAlarm? (w : Workshop σ τ ρ) (s : Schedule σ τ ρ) : Option Nat :=
  (s.waiting.flatMap fun j => w.alarms j.2).min?

/-- Resumes the next job that can go on, or lets time pass. Nothing is left to do when no job can go
on and no alarm is set. -/
def step (w : Workshop σ τ ρ) (s : Schedule σ τ ρ) : Option (Schedule σ τ ρ) :=
  match s.runnable with
  | (path, t) :: rest =>
    let s := resumeJob w { s with runnable := rest } path t
    some (s.wake (w.isReady s.state))
  | [] =>
    match s.nextAlarm? w with
    | none => none
    | some time =>
      let s := { s with state := w.moveTo s.state (max time (w.now s.state)) }
      some (s.wake fun t => (w.alarms t).any (· ≤ w.now s.state))

/-- Takes steps until nothing is left to do. -/
def run (w : Workshop σ τ ρ) : Nat → Schedule σ τ ρ → Schedule σ τ ρ
  | 0, s => s
  | fuel + 1, s =>
    match s.step w with
    | none => s
    | some s => run w fuel s

/-- The result of a job that is over, and the time since which it is. -/
def result? (s : Schedule σ τ ρ) (path : JobPath) : Option (Option ρ × Nat) :=
  s.ended.lookup path

end Schedule

end MuxBridge
