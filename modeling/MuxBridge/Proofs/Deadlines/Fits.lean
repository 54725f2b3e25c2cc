/-
# Deadlines that leave time for a round trip

`Config.validate` compares two numbers. Here is what that is for: a configuration is accepted
exactly if a lone caller whose run makes one round trip is never cut off by the deadline of its
resolution, so that a host that is too slow shows as a round trip that took too long.

* `Lone.cutOff_iff`: a caller is cut off if the other alarms are set for later;
* `Config.fits_of_never_cutOff`, `Config.not_cutOff_of_fits`: when that never happens, in terms of
  the two numbers;
* `Config.validate_iff_never_cutOff`: the main result.
-/
import MuxBridge.Proofs.Deadlines.Lone

namespace MuxBridge

open Script

namespace Lone

variable {l : Lone} {c : Config}

/-! ## Which alarm goes off first -/

/-- The reply, the deadline of the round trip, or that of the resolution: one of them comes
before the others, where a tie is decided in this order. The reply need not come at all. -/
theorem first_alarm (l : Lone) (c : Config) :
    (∃ answer, l.answersAt = some answer ∧ answer ≤ l.timesOutAt c ∧
      (c.delegate.resolveMillis = 0 ∨ answer ≤ l.cutsOffAt c)) ∨
    ((∀ answer ∈ l.answersAt, l.timesOutAt c < answer) ∧
      (c.delegate.resolveMillis = 0 ∨ l.timesOutAt c ≤ l.cutsOffAt c)) ∨
    (c.delegate.resolveMillis ≠ 0 ∧ (∀ answer ∈ l.answersAt, l.cutsOffAt c < answer) ∧
      l.cutsOffAt c < l.timesOutAt c) := by
  cases l.answersAt with
  | none =>
    simp only [Option.not_mem_none, false_implies, implies_true, true_and, reduceCtorEq, false_and,
      exists_false, false_or]
    omega
  | some answer =>
    simp only [Option.mem_some_iff, forall_eq', Option.some.injEq, exists_eq_left']
    omega

/-- Every call ends. -/
theorem exists_endsWith (l : Lone) (hreq : c.rpc.requestMillis ≠ 0) :
    ∃ v time, l.EndsWith c v time := by
  rcases l.first_alarm c with ⟨answer, hanswer, hround, hwhole⟩ | ⟨hslow, hwhole⟩ |
    ⟨hres, hslow, hround⟩
  · exact ⟨_, _, endsWith_answered hreq hanswer hround hwhole⟩
  · exact ⟨_, _, endsWith_timedOut hreq hslow hwhole⟩
  · exact ⟨_, _, endsWith_cutOff hreq hres hslow hround⟩

/-- A call is cut off exactly if the deadline of its resolution passes before anything else
happens. -/
theorem cutOff_iff (hreq : c.rpc.requestMillis ≠ 0) (h : l.Sincere) :
    l.CutOff c ↔ c.delegate.resolveMillis ≠ 0 ∧
      (∀ answer ∈ l.answersAt, l.cutsOffAt c < answer) ∧ l.cutsOffAt c < l.timesOutAt c := by
  constructor
  · rintro ⟨millis, time, hcut⟩
    rcases l.first_alarm c with ⟨answer, hanswer, hround, hwhole⟩ | ⟨hslow, hwhole⟩ | hfirst
    · have hends := endsWith_answered hreq hanswer hround hwhole
      exact absurd (hends.unique hcut) (h.reached_ne millis)
    · cases (endsWith_timedOut hreq hslow hwhole).unique hcut
    · exact hfirst
  · rintro ⟨hres, hslow, hround⟩
    exact ⟨_, _, endsWith_cutOff hreq hres hslow hround⟩

/-! ## A slow host -/

/-- A factory that asks the host for its connections and builds a delegate whatever they are. -/
def prober : Factory := ⟨0, fun _ => ⟨0, true, .ok ⟨none, .empty⟩⟩⟩

/-- A caller whose host replies after so many milliseconds. -/
def slow (delay : Nat) : Lone where
  stage :=
    { Stage.start with gateway :=
        { Gateway.start with
          hosts := fun _ => .fresh (.replying .empty) (some delay)
          slots := fun _ => { Slot.empty with factory := some prober } } }
  slot := 0
  caller := 0
  bare := ⟨1, [], 0⟩
  serial := 2
  factory := prober
  outcome := .ok ⟨none, .empty⟩
  isBare := rfl
  unresolved := rfl
  free := rfl
  registered := rfl
  attempt_eq := rfl

theorem sincere_slow (delay : Nat) : (slow delay).Sincere := by
  intro millis
  constructor <;> intro h <;> cases h

end Lone

/-! ## Configurations -/

namespace Config

variable {c : Config} {l : Lone}

theorem validate_eq_ok_iff : c.validate = .ok () ↔ c.Fits := by
  unfold validate
  split
  · next h => exact iff_of_true rfl h
  · next h => exact iff_of_false nofun h

/-- If a round trip fits, its deadline does not pass after that of the resolution. -/
theorem Fits.le_cutsOffAt (hfits : c.Fits) (hreq : c.rpc.requestMillis ≠ 0) :
    c.delegate.resolveMillis = 0 ∨ l.timesOutAt c ≤ l.cutsOffAt c := by
  rcases hfits with h | h | h
  · exact .inl h
  · exact absurd h hreq
  · exact .inr (Nat.add_le_add_left h _)

/-- If a round trip fits, no caller is cut off, not even by a host that never answers. -/
theorem not_cutOff_of_fits (hreq : c.rpc.requestMillis ≠ 0) (hfits : c.Fits) (h : l.Sincere) :
    ¬ l.CutOff c := by
  intro hcut
  obtain ⟨hres, -, hround⟩ := (Lone.cutOff_iff hreq h).mp hcut
  exact absurd hround (Nat.not_lt.mpr ((hfits.le_cutsOffAt hreq).resolve_left hres))

/-- If no caller of a host that answers is cut off, a round trip fits. -/
theorem fits_of_never_cutOff (hreq : c.rpc.requestMillis ≠ 0)
    (h : ∀ l : Lone, l.Sincere → l.host.delay ≠ none → ¬ l.CutOff c) : c.Fits := by
  by_contra hunfit
  simp only [Fits, not_or, Nat.not_le] at hunfit
  obtain ⟨hres, -, hless⟩ := hunfit
  have hsincere := Lone.sincere_slow c.rpc.requestMillis
  -- a host that takes exactly as long as a round trip may take
  refine h (.slow c.rpc.requestMillis) hsincere (Option.some_ne_none _)
    ((Lone.cutOff_iff hreq hsincere).mpr ⟨hres, ?_, Nat.add_lt_add_left hless _⟩)
  intro answer hanswer
  rw [← Option.some.inj hanswer]
  exact Nat.add_lt_add_left hless _

/-- If a round trip fits, a host that is too slow, or that never answers, shows as a round trip that
took too long. -/
theorem endsWith_timeout_of_fits (hreq : c.rpc.requestMillis ≠ 0) (hfits : c.Fits)
    (hword : c.rpc.requestMillis < Duration.words)
    (hslow : ∀ delay ∈ l.host.delay, c.rpc.requestMillis < delay) :
    l.EndsWith c (.failed (.timeout c.rpc.requestMillis)) (l.start + c.rpc.requestMillis) := by
  have hlate : ∀ answer ∈ l.answersAt, l.timesOutAt c < answer := by
    intro answer hanswer
    obtain ⟨delay, hdelay, rfl⟩ := Option.map_eq_some_iff.mp hanswer
    exact Nat.add_lt_add_left (hslow delay hdelay) _
  have hends := Lone.endsWith_timedOut hreq hlate (hfits.le_cutsOffAt hreq)
  rwa [Duration.millis_ofMillis hword] at hends

/-- **A configuration is accepted exactly if no lone caller is ever cut off**, whenever and whatever
the host replies; then none is cut off by a host that never replies either. A host that is too slow
shows as a round trip that took too long, also if both deadlines pass at the same time; and every
such call ends. -/
theorem validate_iff_never_cutOff (c : Config) (hreq : c.rpc.requestMillis ≠ 0) :
    (c.validate = .ok () ↔
      ∀ l : Lone, l.Sincere → l.host.delay ≠ none → ¬ l.CutOff c) ∧
    (c.validate = .ok () → ∀ l : Lone, l.Sincere → ¬ l.CutOff c) ∧
    (c.validate = .ok () → c.rpc.requestMillis < Duration.words →
      ∀ l : Lone, (∀ delay ∈ l.host.delay, c.rpc.requestMillis < delay) →
        l.EndsWith c (.failed (.timeout c.rpc.requestMillis)) (l.start + c.rpc.requestMillis)) ∧
    ∀ l : Lone, ∃ v time, l.EndsWith c v time := by
  rw [validate_eq_ok_iff]
  refine ⟨⟨?_, fits_of_never_cutOff hreq⟩, ?_, ?_, fun l => l.exists_endsWith hreq⟩
  · intro hfits l hsincere _
    exact not_cutOff_of_fits hreq hfits hsincere
  · intro hfits l hsincere
    exact not_cutOff_of_fits hreq hfits hsincere
  · intro hfits hword l hslow
    exact endsWith_timeout_of_fits hreq hfits hword hslow

/-- With both deadlines at the same time the round trip is the one that took too long; with the
deadline of the resolution in front of the other, some caller is cut off. -/
theorem endsWith_timeout_of_tie :
    (Lone.slow 9).EndsWith ⟨⟨5⟩, ⟨5⟩⟩ (.failed (.timeout 5)) 5 ∧
    ¬ (Lone.slow 9).CutOff ⟨⟨5⟩, ⟨5⟩⟩ ∧
    ∃ l : Lone, l.Sincere ∧ l.CutOff ⟨⟨5⟩, ⟨4⟩⟩ := by
  obtain ⟨-, htie, htimeout, -⟩ := validate_iff_never_cutOff ⟨⟨5⟩, ⟨5⟩⟩ (by decide)
  obtain ⟨hunfit, -⟩ := validate_iff_never_cutOff ⟨⟨5⟩, ⟨4⟩⟩ (by decide)
  have hslow : ∀ delay ∈ (Lone.slow 9).host.delay, 5 < delay := by
    intro delay hdelay
    rw [← Option.some.inj hdelay]
    decide
  refine ⟨htimeout rfl (by decide) (.slow 9) hslow, htie rfl _ (Lone.sincere_slow 9), ?_⟩
  by_contra hnone
  push Not at hnone
  cases hunfit.mpr fun l hsincere _ => hnone l hsincere

end Config

end MuxBridge
