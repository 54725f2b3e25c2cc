/-
# Progress

A schedule that never ends is fair if the clock passes every time and whoever is under way is
resumed again. Under such a schedule every call ends once no more calls come, unless a host is
asked that never answers: the first caller in the line has the turn, so when what it waits for is
due its next step takes it to a later phase, and a call has only so many phases to pass.

* `step_live_eq_or_remaining_lt`: what happens to calls under way leaves less for them to do;
* `live_ne_of_due`: the first caller does not stand still when it is due;
* `everyone_ends`: after some time nobody is under way.
-/
import Mathlib.Order.Basic
import MuxBridge.Proofs.Crowd.Origin

namespace MuxBridge

/-! ## What is left to do -/

/-- The transport of the call that comes, if one comes. -/
def Happening.transport? : Happening → Option Transport
  | .call _ t _ => some t
  | _ => none

/-- The milliseconds that pass. -/
def Happening.millis : Happening → Nat
  | .elapse millis => millis
  | _ => 0

namespace FactoryRun

/-- How many phases a run has to pass until it ends. -/
def remaining : FactoryRun → Nat
  | .resting _ _ => 2
  | .probing _ _ => 1

theorem remaining_pos (run : FactoryRun) : 0 < run.remaining := by
  cases run <;> simp [remaining]

end FactoryRun

namespace FactoryRun

variable {g g' : Gateway} {span : Span} {t : Transport} {run run' : FactoryRun}

/-- A run that goes on stays as it is, since no alarm of it has gone off, or has gone to its next
phase. -/
theorem resume_waiting_cases (h : run.resume g span t = (g', .waiting run')) :
    run' = run ∧ (∀ time ∈ run.alarms, g.now < time) ∨ run'.remaining < run.remaining := by
  cases run with
  | resting a time =>
    simp only [resume] at h
    split at h
    · split at h
      · right
        rw [(eq_of_resumeProbe_waiting h).1]
        exact Nat.lt_succ_self 1
      · cases (Prod.mk.inj h).2
    · next hlate =>
      left
      refine ⟨(Course.waiting.inj (Prod.mk.inj h).2).symm, ?_⟩
      simpa [alarms] using hlate
  | probing a trip => exact .inl (eq_of_resumeProbe_waiting h)

/-- A run that goes on has an alarm set if it had one before and every host answers. -/
theorem alarms_ne_nil_of_resume (hhosts : ∀ j, (g.hosts j).delay ≠ none) (hrun : run.alarms ≠ [])
    (h : run.resume g span t = (g', .waiting run')) : run'.alarms ≠ [] := by
  cases run with
  | resting a time =>
    simp only [resume] at h
    split at h
    · split at h
      · -- the host has just been asked
        obtain ⟨delay, hdelay⟩ := Option.ne_none_iff_exists'.mp (hhosts t.host)
        rw [(eq_of_resumeProbe_waiting h).1]
        simp [alarms, RoundTrip.alarms, RoundTrip.start, hdelay]
      · cases (Prod.mk.inj h).2
    · rw [← Course.waiting.inj (Prod.mk.inj h).2]
      exact hrun
  | probing a trip =>
    rw [(eq_of_resumeProbe_waiting h).1]
    exact hrun

end FactoryRun

namespace Resolution

/-- How many phases a call has to pass until it ends. -/
def remaining (r : Resolution) : Nat :=
  match r.phase with
  | .arriving => 4
  | .queued _ => 3
  | .running run => run.remaining

/-- Whether a call goes on by itself once it has the turn: if it runs the factory, an alarm of its
run has gone off. -/
def IsDue (g : Gateway) (r : Resolution) : Prop :=
  ∀ run, r.phase = .running run → ∃ time ∈ run.alarms, time ≤ g.now

/-- Whether a call waits for something: if it runs the factory, an alarm is set for its run, be it
for an answer or for a deadline. -/
def IsAwaited (r : Resolution) : Prop := ∀ run, r.phase = .running run → run.alarms ≠ []

theorem remaining_pos (r : Resolution) : 0 < r.remaining := by
  unfold remaining
  split
  · exact Nat.succ_pos 3
  · exact Nat.succ_pos 2
  · exact FactoryRun.remaining_pos _

variable {g g' : Gateway} {span : Span} {r r' : Resolution}

theorem phase_of_resumeRun_waiting {run : FactoryRun}
    (h : r.resumeRun g span run = (g', .waiting r')) :
    ∃ g₁ run', run.resume g span r.transport = (g₁, .waiting run') ∧
      r'.phase = .running run' := by
  unfold resumeRun at h
  split at h
  · next g₁ run' hr =>
    rw [← Course.waiting.inj (Prod.mk.inj h).2]
    exact ⟨g₁, run', hr, rfl⟩
  · cases (Prod.mk.inj h).2

/-- A call that has the turn and is due does not stay in its phase. -/
theorem phase_ne_of_due (hp : r.phase ≠ .arriving) (ht : r.hasTurn g = true)
    (hdue : r.IsDue g) (h : r.resume g span = (g', .waiting r')) : r'.phase ≠ r.phase := by
  unfold resume at h
  split at h
  · cases (Prod.mk.inj h).2
  · next g₁ r₁ hu =>
    have hr₁ : r₁ = r' := by
      split at h
      · exact Course.waiting.inj (Prod.mk.inj h).2
      · cases (Prod.mk.inj h).2
    rw [hr₁] at hu
    unfold resumeUnlimited at hu
    split at hu
    · next hphase => exact absurd hphase hp
    · next f hphase =>
      rw [if_pos ht] at hu
      unfold takeTurn at hu
      split at hu
      · cases (Prod.mk.inj hu).2
      · obtain ⟨_, run', -, hrun'⟩ := phase_of_resumeRun_waiting hu
        rw [hrun', hphase]
        exact Phase.noConfusion
    · next run hphase =>
      obtain ⟨_, run', hresume, hrun'⟩ := phase_of_resumeRun_waiting hu
      obtain ⟨time, htime, hpassed⟩ := hdue run hphase
      rw [hrun', hphase]
      intro heq
      rcases FactoryRun.resume_waiting_cases hresume with ⟨-, hearly⟩ | hlt
      · exact absurd (hearly time htime) (Nat.not_lt.mpr hpassed)
      · rw [Phase.running.inj heq] at hlt
        exact Nat.lt_irrefl _ hlt

theorem isAwaited_of_queued {f : Factory} (hp : r.phase = .queued f) : r.IsAwaited := by
  intro run hrun
  rw [hp] at hrun
  cases hrun

theorem isAwaited_of_running {run : FactoryRun} (hp : r.phase = .running run)
    (hrun : run.alarms ≠ []) : r.IsAwaited := by
  intro run' hp'
  rw [hp] at hp'
  rwa [← Phase.running.inj hp']

/-- A call that waits for something is due from some time on. -/
theorem IsAwaited.exists_isDue (h : r.IsAwaited) :
    ∃ time, ∀ g : Gateway, time ≤ g.now → r.IsDue g := by
  rcases hp : r.phase with _ | f | run
  · exact ⟨0, fun g _ run' hp' => by rw [hp] at hp'; cases hp'⟩
  · exact ⟨0, fun g _ run' hp' => by rw [hp] at hp'; cases hp'⟩
  · obtain ⟨time, htime⟩ := List.exists_mem_of_ne_nil _ (h run hp)
    refine ⟨time, ?_⟩
    intro g hnow run' hp'
    rw [hp] at hp'
    rw [← Phase.running.inj hp']
    exact ⟨time, htime, hnow⟩

end Resolution

namespace Crowd

variable {i : Nat} {h : Happening} {c c' : Crowd} {front back : List Resolution} {r : Resolution}

/-- How many phases calls have to pass in all. -/
def remainingOf : List Resolution → Nat
  | [] => 0
  | r :: rest => r.remaining + remainingOf rest

theorem remainingOf_append (front back : List Resolution) :
    remainingOf (front ++ back) = remainingOf front + remainingOf back := by
  induction front with
  | nil => exact (Nat.zero_add _).symm
  | cons r front ih =>
    show r.remaining + remainingOf (front ++ back) = r.remaining + remainingOf front + _
    rw [ih, Nat.add_assoc]

/-- How many phases the calls under way have to pass until all have ended. -/
def remaining (c : Crowd) : Nat := remainingOf c.live

theorem remaining_congr (hlive : c'.live = c.live) : c'.remaining = c.remaining := by
  rw [remaining, hlive, remaining]

theorem remaining_of_live (hl : c.live = front ++ r :: back) :
    c.remaining = remainingOf front + (r.remaining + remainingOf back) := by
  rw [remaining, hl, remainingOf_append]
  rfl

theorem remaining_lt_of_gone (hl : c.live = front ++ r :: back) (hl' : c'.live = front ++ back) :
    c'.remaining < c.remaining := by
  have hpos := r.remaining_pos
  rw [remaining_of_live hl, remaining, hl', remainingOf_append]
  omega

theorem remaining_lt_of_replaced {r' : Resolution} (hl : c.live = front ++ r :: back)
    (hl' : c'.live = front ++ r' :: back) (hlt : r'.remaining < r.remaining) :
    c'.remaining < c.remaining := by
  rw [remaining_of_live hl, remaining_of_live hl']
  omega

/-- A move of calls under way leaves them all as they are, or with less to do. -/
theorem Move.live_eq_or_remaining_lt (hm : Move i h c c') (hcall : h.transport? = none) :
    c'.live = c.live ∨ c'.remaining < c.remaining := by
  cases hm with
  | greet hh | refuse hh | enter hh =>
    subst hh
    cases hcall
  | find hl | fail _ hl | install _ hl | expire _ hl | abandon _ hl =>
    exact .inr (remaining_lt_of_gone hl rfl)
  | launch _ hl hp =>
    right
    apply remaining_lt_of_replaced hl rfl
    simp [Resolution.remaining, FactoryRun.remaining, hp]
  | @work span front r back run g run' hl hp hr =>
    rcases FactoryRun.resume_waiting_cases hr with ⟨rfl, -⟩ | hlt
    · left
      rw [settle_waiting, hl, ← hp]
    · right
      apply remaining_lt_of_replaced hl rfl
      simpa [Resolution.remaining, hp] using hlt
  | register | reject | reset | elapse | meanwhile => exact .inl rfl

/-- What happens while no call comes leaves the calls under way as they are, or with less to do. -/
theorem step_live_eq_or_remaining_lt (he : c.Entered i) (hcall : h.transport? = none) :
    (c.step i h).live = c.live ∨ (c.step i h).remaining < c.remaining := by
  have hmoves := moves_induction
    (P := fun c' => c'.live = c.live ∨ c'.remaining < c.remaining) ?_ (step_moves he h) he
    (.inl rfl)
  · exact hmoves.2
  · intro c₁ c₂ _ h₁ hm
    rcases hm.live_eq_or_remaining_lt hcall with h₂ | h₂
    · rw [h₂, remaining_congr h₂]
      exact h₁
    · right
      rcases h₁ with h₁ | h₁
      · rw [remaining_congr h₁] at h₂
        exact h₂
      · exact h₂.trans h₁

/-- The first caller does not stand still when it is due. -/
theorem live_ne_of_due {rest : List Resolution} (he : c.Entered i) (ho : c.Orderly i)
    (hl : c.live = r :: rest) (hdue : r.IsDue c.gateway) (span : Span) :
    (c.step i (.resume span r.caller)).live ≠ c.live := by
  obtain ⟨hs, hp⟩ := he r (by simp [hl])
  have ht : r.hasTurn c.gateway = true := by
    rw [ho.hasTurn_iff hs]
    simp [callers, hl]
  have hstep : c.step i (.resume span r.caller) = c.advance span [] r rest := by
    simp [step, splitAt, hl]
  rw [hstep, hl]
  unfold advance
  rcases hr : r.resume c.gateway span with ⟨g, r' | o⟩
  · -- it would be in its old phase
    intro heq
    have hr' : r' = r := (List.cons.inj heq).1
    exact Resolution.phase_ne_of_due hp ht hdue hr (by rw [hr'])
  · -- it has ended, and there is one call less
    intro heq
    have hlength := congrArg List.length heq
    simp at hlength

/-! ## Hosts that answer -/

/-- Every host answers some time, and everybody who is under way waits for something. -/
structure Answered (c : Crowd) : Prop where
  hosts : ∀ j, (c.gateway.hosts j).delay ≠ none
  awaited : ∀ r ∈ c.live, r.IsAwaited

theorem Answered.keep (hc : c.Answered)
    (hdelays : ∀ j, (c'.gateway.hosts j).delay = (c.gateway.hosts j).delay)
    (hlive : ∀ r ∈ c'.live, r ∈ c.live ∨ r.IsAwaited) : c'.Answered where
  hosts := fun j => (hdelays j).trans_ne (hc.hosts j)
  awaited := fun r hr => (hlive r hr).elim (hc.awaited r) id

/-- No move makes anybody wait for nothing while all hosts answer. -/
theorem Move.answered (hm : Move i h c c')
    (hh : ∀ hosts built, h = .meanwhile hosts built → ∀ j, (hosts j).delay ≠ none)
    (hc : c.Answered) : c'.Answered := by
  cases hm with
  | greet | refuse | register | reject | reset | elapse =>
    exact hc.keep (fun _ => rfl) fun _ => .inl
  | enter =>
    refine hc.keep (fun _ => rfl) fun q hq => ?_
    rcases List.mem_append.mp hq with hq | hq
    · exact .inl hq
    · rw [List.mem_singleton.mp hq]
      exact .inr (Resolution.isAwaited_of_queued rfl)
  | launch _ hl =>
    refine hc.keep (fun _ => rfl) fun q hq => ?_
    rcases mem_of_replaced hl hq with hq | rfl
    · exact .inl hq
    · exact .inr (Resolution.isAwaited_of_running rfl (List.cons_ne_nil _ _))
  | work _ hl hp hr =>
    refine hc.keep (FactoryRun.traffic_eq hr).delays fun q hq => ?_
    rcases mem_of_replaced hl hq with hq | rfl
    · exact .inl hq
    · have hrun := hc.awaited _ (mem_of_live hl) _ hp
      exact .inr (Resolution.isAwaited_of_running rfl
        (FactoryRun.alarms_ne_nil_of_resume hc.hosts hrun hr))
  | fail _ hl _ hr | install _ hl _ hr =>
    exact hc.keep (FactoryRun.traffic_eq hr).delays fun _ hq => .inl (mem_of_around hl hq)
  | find hl | expire _ hl | abandon _ hl =>
    exact hc.keep (fun _ => rfl) fun _ hq => .inl (mem_of_around hl hq)
  | meanwhile heq => exact ⟨hh _ _ heq, hc.awaited⟩

/-! ## The clock -/

/-- Only time that passes moves the clock. -/
theorem Move.now_eq (hm : Move i h c c') (hmillis : ∀ millis, h ≠ .elapse millis) :
    c'.gateway.now = c.gateway.now := by
  cases hm with
  | work _ _ _ hr | fail _ _ _ hr | install _ _ _ hr => exact (FactoryRun.traffic_eq hr).now
  | elapse hh => exact absurd hh (hmillis _)
  | greet | refuse | enter | find | launch | expire | abandon | register | reject | reset
  | meanwhile =>
    rfl

theorem now_step (he : c.Entered i) (h : Happening) :
    (c.step i h).gateway.now = c.gateway.now + h.millis := by
  have hstill : (∀ millis, h ≠ .elapse millis) → (c.step i h).gateway.now = c.gateway.now :=
    fun hmillis => (moves_induction (P := fun c' => c'.gateway.now = c.gateway.now)
      (fun _ _ _ h₁ hm => (hm.now_eq hmillis).trans h₁) (step_moves he h) he rfl).2
  cases h with
  | elapse millis => rfl
  | call | resume | abandon | register | reset | meanwhile =>
    exact hstill fun _ heq => by cases heq

/-! ## Endless schedules -/

/-- What has come of the first happenings of an endless schedule. -/
def after (i : Nat) (c : Crowd) (schedule : Nat → Happening) (k : Nat) : Crowd :=
  c.run i ((List.range k).map schedule)

/-- The clock passes every time, and whoever is under way is resumed again. -/
structure Fair (i : Nat) (c : Crowd) (schedule : Nat → Happening) : Prop where
  clock : ∀ time, ∃ k, time ≤ (c.after i schedule k).gateway.now
  resumed : ∀ k, ∀ r ∈ (c.after i schedule k).live,
    ∃ k', k ≤ k' ∧ ∃ span, schedule k' = .resume span r.caller

/-- Everybody who is under way waits for something at any time: nobody asks a host that never
answers without a deadline. -/
def Awaited (i : Nat) (c : Crowd) (schedule : Nat → Happening) : Prop :=
  ∀ k, ∀ r ∈ (c.after i schedule k).live, r.IsAwaited

variable {schedule : Nat → Happening}

theorem after_succ (i : Nat) (c : Crowd) (schedule : Nat → Happening) (k : Nat) :
    c.after i schedule (k + 1) = (c.after i schedule k).step i (schedule k) := by
  simp [after, run, List.range_succ]

/-- The line stays in order along an endless schedule. -/
theorem orderly_after (he : c.Entered i) (ho : c.Orderly i) (schedule : Nat → Happening)
    (k : Nat) :
    (c.after i schedule k).Entered i ∧ (c.after i schedule k).Orderly i :=
  run_induction _ (fun _ _ _ _ he ho hm => hm.orderly he ho) he ho

/-- Nobody waits for nothing where all hosts answer, however they change. -/
theorem awaited_of_hosts {g : Gateway} (hhosts : ∀ j, (g.hosts j).delay ≠ none)
    (hchanged : ∀ k hosts built, schedule k = .meanwhile hosts built →
      ∀ j, (hosts j).delay ≠ none) : (opening g).Awaited i schedule := by
  intro k
  refine (run_induction (P := Answered) _ ?_ (entered_opening (i := i) g) ⟨hhosts, ?_⟩).2.awaited
  · intro h hh c c' _ hc hm
    obtain ⟨j, -, rfl⟩ := List.mem_map.mp hh
    exact hm.answered (hchanged j) hc
  · simp [opening]

theorem now_le_after (he : c.Entered i) (ho : c.Orderly i) (schedule : Nat → Happening)
    {k k' : Nat} (hk : k ≤ k') :
    (c.after i schedule k).gateway.now ≤ (c.after i schedule k').gateway.now := by
  induction k', hk using Nat.le_induction with
  | base => exact Nat.le_refl _
  | succ k' _ ih =>
    rw [after_succ, now_step (orderly_after he ho schedule k').1]
    omega

/-- While no call comes, the calls under way stay as they are, or have less to do some time. -/
theorem after_live_eq_or_remaining_lt (he : c.Entered i) (ho : c.Orderly i) {k k' : Nat}
    (hk : k ≤ k') (hcalls : ∀ j, k ≤ j → (schedule j).transport? = none) :
    (c.after i schedule k').live = (c.after i schedule k).live ∨
      (c.after i schedule k').remaining < (c.after i schedule k).remaining := by
  induction k', hk using Nat.le_induction with
  | base => exact .inl rfl
  | succ k' hk ih =>
    have he' := (orderly_after he ho schedule k').1
    rw [after_succ]
    rcases step_live_eq_or_remaining_lt he' (hcalls k' hk) with h | h
    · rw [h, remaining_congr h]
      exact ih
    · right
      rcases ih with ih | ih
      · rw [remaining_congr ih] at h
        exact h
      · exact h.trans ih

/-- Calls under way that are treated fairly, and wait for something, have less to do some time. -/
theorem exists_remaining_lt (he : c.Entered i) (ho : c.Orderly i) (hfair : c.Fair i schedule)
    (hawaited : c.Awaited i schedule) {k : Nat}
    (hcalls : ∀ j, k ≤ j → (schedule j).transport? = none)
    (hlive : (c.after i schedule k).live ≠ []) :
    ∃ k', k ≤ k' ∧ (c.after i schedule k').remaining < (c.after i schedule k).remaining := by
  obtain ⟨r, rest, hl⟩ := List.exists_cons_of_ne_nil hlive
  -- first the clock passes the time from which on the first caller is due
  obtain ⟨time, hdue⟩ := (hawaited k r (by simp [hl])).exists_isDue
  obtain ⟨k₁, htime⟩ := hfair.clock time
  rcases after_live_eq_or_remaining_lt he ho (Nat.le_max_left k k₁) hcalls with h₁ | h₁
  · -- If it is still under way, it is resumed after that.
    have hmem : r ∈ (c.after i schedule (max k k₁)).live := by
      rw [h₁, hl]
      exact List.mem_cons_self
    obtain ⟨k₂, hk₂, span, hresume⟩ := hfair.resumed _ r hmem
    have hk : k ≤ k₂ := (Nat.le_max_left k k₁).trans hk₂
    rcases after_live_eq_or_remaining_lt he ho hk hcalls with h₂ | h₂
    · obtain ⟨he₂, ho₂⟩ := orderly_after he ho schedule k₂
      have hnow : time ≤ (c.after i schedule k₂).gateway.now :=
        htime.trans (now_le_after he ho schedule ((Nat.le_max_right k k₁).trans hk₂))
      have hne := live_ne_of_due he₂ ho₂ (h₂.trans hl) (hdue _ hnow) span
      refine ⟨k₂ + 1, by omega, ?_⟩
      rw [← remaining_congr h₂, after_succ, hresume]
      have hcall := hcalls k₂ hk
      rw [hresume] at hcall
      exact (step_live_eq_or_remaining_lt he₂ hcall).resolve_left hne
    · exact ⟨k₂, hk, h₂⟩
  · exact ⟨max k k₁, Nat.le_max_left k k₁, h₁⟩

/-- **Every call ends**: when no call comes any more, a fair schedule leaves nobody under way,
unless somebody waits for nothing. -/
theorem everyone_ends (he : c.Entered i) (ho : c.Orderly i) (hfair : c.Fair i schedule)
    (hawaited : c.Awaited i schedule) {K : Nat}
    (hcalls : ∀ j, K ≤ j → (schedule j).transport? = none) :
    ∃ K', K ≤ K' ∧ ∀ k, K' ≤ k → (c.after i schedule k).live = [] := by
  -- by induction on what is left to do at some time after the last call
  have hempty : ∀ n k, K ≤ k → (c.after i schedule k).remaining = n →
      ∃ K', K ≤ K' ∧ (c.after i schedule K').live = [] := by
    intro n
    induction n using Nat.strong_induction_on with
    | h n ih =>
      intro k hk hn
      by_cases hlive : (c.after i schedule k).live = []
      · exact ⟨k, hk, hlive⟩
      · obtain ⟨k', hk', hlt⟩ :=
          exists_remaining_lt he ho hfair hawaited (fun j hj => hcalls j (hk.trans hj)) hlive
        exact ih _ (hn ▸ hlt) k' (hk.trans hk') rfl
  obtain ⟨K', hK', hlive⟩ := hempty _ K (Nat.le_refl K) rfl
  -- and nobody comes after that
  refine ⟨K', hK', ?_⟩
  intro k hk
  rcases after_live_eq_or_remaining_lt he ho hk (fun j hj => hcalls j (hK'.trans hj)) with h | h
  · rw [h, hlive]
  · have hzero : (c.after i schedule K').remaining = 0 := by
      rw [remaining, hlive]
      rfl
    omega

end Crowd

end MuxBridge
