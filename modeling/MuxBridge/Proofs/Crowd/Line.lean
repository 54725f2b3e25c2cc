/-
# The line in front of a slot

The calls under way stand in one line, in the order in which they came: the first has the turn, and
the others wait for it. `Crowd.Orderly` says so of the turn of the slot, together with what the
records know about callers; every move keeps it, whatever runs fail, deadlines expire or calls are
dropped.

* `Turn.enter_pass`, `Turn.leave_pass`: a turn is a line that grows at the back and loses anyone;
* `Move.orderly`: every move keeps the line in order;
* `orderly_run`: the line is in order after every run.
-/
import Mathlib.Data.List.Pairwise
import MuxBridge.Proofs.Crowd.Move

namespace MuxBridge

/-! ## Turns as lines -/

namespace Turn

@[simp] theorem holder_pass (callers : List Nat) : (pass callers).holder = callers.head? := by
  cases callers <;> rfl

@[simp] theorem queue_pass (callers : List Nat) : (pass callers).queue = callers.tail := by
  cases callers <;> rfl

/-- Who comes stands at the end of the line. -/
theorem enter_pass (callers : List Nat) (a : Nat) :
    (pass callers).enter a = pass (callers ++ [a]) := by
  cases callers <;> rfl

/-- Who leaves is missing from the line, wherever he stood. -/
theorem leave_pass (callers : List Nat) (a : Nat) :
    (pass callers).leave a = pass (callers.erase a) := by
  cases callers with
  | nil => rfl
  | cons b callers =>
    by_cases hb : b = a
    · simp [pass, leave, hb]
    · simp [pass, leave, hb]

end Turn

namespace Crowd

/-! ## Order -/

/-- The callers under way, in order of arrival. -/
def callers (c : Crowd) : List Nat := c.live.map (·.caller)

/-- The line is in order, and the records agree with it. -/
structure Orderly (i : Nat) (c : Crowd) : Prop where
  /-- The turn is the first caller's, and the others wait behind him. -/
  turn : (c.slot i).turn = .pass c.callers
  sorted : c.callers.Pairwise (· < ·)
  arrived : ∀ a ∈ c.callers, a < c.arrivals.length
  /-- Only who has the turn runs the factory. -/
  running : ∀ r ∈ c.live, ∀ run, r.phase = .running run → (c.slot i).turn.holder = some r.caller
  gone : ∀ e ∈ c.ended, e.caller < c.arrivals.length ∧ e.caller ∉ c.callers
  endedOnce : (c.ended.map (·.caller)).Nodup
  began : ∀ b ∈ c.begun, b.caller < c.arrivals.length
  begunOnce : (c.begun.map (·.caller)).Nodup
  /-- Who still waits has not run the factory. -/
  waiting : ∀ r ∈ c.live, ∀ f, r.phase = .queued f → r.caller ∉ c.begun.map (·.caller)

variable {i : Nat} {h : Happening} {c c' : Crowd} {front back : List Resolution} {r : Resolution}

theorem callers_of_live (hl : c.live = front ++ r :: back) :
    c.callers = front.map (·.caller) ++ r.caller :: back.map (·.caller) := by
  simp [callers, hl]

/-- Without a call its caller is missing from the line. -/
theorem callers_erase (hl : c.live = front ++ r :: back) (hs : c.callers.Pairwise (· < ·)) :
    (front ++ back).map (·.caller) = c.callers.erase r.caller := by
  rw [callers_of_live hl] at hs ⊢
  -- those in front came before, so the first place of the caller is the one between the lists
  have hfront : r.caller ∉ front.map (·.caller) := by
    intro hmem
    have hlt := (List.pairwise_append.mp hs).2.2 _ hmem r.caller (by simp)
    omega
  rw [List.erase_append_right _ hfront, List.erase_cons_head, List.map_append]

theorem Orderly.nodup (hc : c.Orderly i) : c.callers.Nodup :=
  hc.sorted.imp fun hlt => by omega

/-- A call behind or in front of another is under way, and it is not that one. -/
theorem Orderly.mem_around {q : Resolution} (hc : c.Orderly i) (hl : c.live = front ++ r :: back)
    (hq : q ∈ front ∨ q ∈ back) : q ∈ c.live ∧ q.caller ≠ r.caller := by
  have hnodup := hc.nodup
  rw [callers_of_live hl, List.nodup_append, List.nodup_cons] at hnodup
  rcases hq with hq | hq
  · refine ⟨mem_of_around hl (List.mem_append_left _ hq), ?_⟩
    exact hnodup.2.2 _ (List.mem_map_of_mem hq) _ List.mem_cons_self
  · refine ⟨mem_of_around hl (List.mem_append_right _ hq), ?_⟩
    exact fun heq => hnodup.2.1.1 (heq ▸ List.mem_map_of_mem hq)

/-- Who is left when a call has gone. -/
theorem Orderly.mem_without {q : Resolution} (hc : c.Orderly i) (hl : c.live = front ++ r :: back)
    (hq : q ∈ front ++ back) : q ∈ c.live ∧ q.caller ≠ r.caller :=
  hc.mem_around hl (List.mem_append.mp hq)

/-- Who is there when a call has changed. -/
theorem Orderly.mem_replaced {q r' : Resolution} (hc : c.Orderly i)
    (hl : c.live = front ++ r :: back) (hq : q ∈ front ++ r' :: back) :
    q ∈ c.live ∧ q.caller ≠ r.caller ∨ q = r' := by
  rcases List.mem_append.mp hq with hq | hq
  · exact .inl (hc.mem_around hl (.inl hq))
  · rcases List.mem_cons.mp hq with hq | hq
    · exact .inr hq
    · exact .inl (hc.mem_around hl (.inr hq))

theorem Orderly.holder_eq (hc : c.Orderly i) :
    (c.slot i).turn.holder = c.callers.head? := by
  rw [hc.turn, Turn.holder_pass]

theorem Orderly.queue_eq_tail (hc : c.Orderly i) :
    (c.slot i).turn.queue = c.callers.tail := by
  rw [hc.turn, Turn.queue_pass]

/-- Who has the turn is the first in the line. -/
theorem Orderly.hasTurn_iff (hc : c.Orderly i) (hs : r.slot = i) :
    r.hasTurn c.gateway = true ↔ c.callers.head? = some r.caller := by
  have hholder : (c.gateway.slots i).turn.holder = c.callers.head? := hc.holder_eq
  simp [Resolution.hasTurn, hs, hholder]

/-- Who runs the factory is the first in the line. -/
theorem Orderly.first_of_running {run : FactoryRun} (hc : c.Orderly i) (hr : r ∈ c.live)
    (hp : r.phase = .running run) : c.callers.head? = some r.caller := by
  rw [← hc.holder_eq]
  exact hc.running r hr run hp

/-- Who is under way when a call has ended, or has ended itself. -/
theorem callers_of_ended {e : Ending} {a : Nat} (hl : c.live = front ++ r :: back)
    (hlive : c'.live = front ++ back) (hended : c'.ended = c.ended ++ [e])
    (he : e.caller = r.caller) (ha : a ∈ c.callers) :
    a ∈ c'.callers ∨ a ∈ c'.ended.map (·.caller) := by
  simp only [callers, hl, hlive, hended, List.map_append, List.map_cons, List.mem_append,
    List.mem_cons] at ha ⊢
  rcases ha with ha | rfl | ha
  · exact .inl (.inl ha)
  · exact .inr (.inr (.inl he.symm))
  · exact .inl (.inr ha)

/-- The calls around one under way are found by its caller. -/
theorem Orderly.splitAt_caller (ho : c.Orderly i) (hl : c.live = front ++ r :: back) :
    c.splitAt r.caller = (front, r :: back) := by
  have hfront : ∀ q ∈ front, (q.caller != r.caller) = true :=
    fun q hq => bne_iff_ne.mpr (ho.mem_around hl (.inl hq)).2
  unfold splitAt
  rw [hl, List.takeWhile_append_of_pos hfront, List.dropWhile_append_of_pos hfront]
  simp

/-! ## Moves keep the order -/

/-- Nothing about the line has changed. -/
theorem Orderly.still (hc : c.Orderly i) (hturn : (c'.slot i).turn = (c.slot i).turn)
    (hlive : c'.live = c.live) (harrivals : c'.arrivals = c.arrivals)
    (hbegun : c'.begun = c.begun) (hended : c'.ended = c.ended) : c'.Orderly i := by
  have hcallers : c'.callers = c.callers := by simp only [callers, hlive]
  exact {
    turn := by rw [hturn, hcallers]; exact hc.turn
    sorted := by rw [hcallers]; exact hc.sorted
    arrived := by rw [hcallers, harrivals]; exact hc.arrived
    running := by rw [hlive, hturn]; exact hc.running
    gone := by rw [hended, hcallers, harrivals]; exact hc.gone
    endedOnce := by rw [hended]; exact hc.endedOnce
    began := by rw [hbegun, harrivals]; exact hc.began
    begunOnce := by rw [hbegun]; exact hc.begunOnce
    waiting := by rw [hlive, hbegun]; exact hc.waiting }

/-- A call has come and ended at once. -/
theorem Orderly.passBy {q : Resolution} {e : Ending} (hc : c.Orderly i)
    (hturn : (c'.slot i).turn = (c.slot i).turn) (hlive : c'.live = c.live)
    (harrivals : c'.arrivals = c.arrivals ++ [q]) (hbegun : c'.begun = c.begun)
    (hended : c'.ended = c.ended ++ [e]) (he : e.caller = c.arrivals.length) :
    c'.Orderly i := by
  have hcallers : c'.callers = c.callers := by simp only [callers, hlive]
  have hlength : c'.arrivals.length = c.arrivals.length + 1 := by simp [harrivals]
  exact {
    turn := by rw [hturn, hcallers]; exact hc.turn
    sorted := by rw [hcallers]; exact hc.sorted
    arrived := by
      intro a ha
      rw [hcallers] at ha
      have hlt := hc.arrived a ha
      omega
    running := by rw [hlive, hturn]; exact hc.running
    gone := by
      intro e' he'
      rw [hended] at he'
      rw [hcallers]
      rcases List.mem_append.mp he' with he' | he'
      · obtain ⟨hlt, hout⟩ := hc.gone e' he'
        exact ⟨by omega, hout⟩
      · -- its number is new, and those in the line have old ones
        rw [List.mem_singleton.mp he', he]
        refine ⟨by omega, fun hmem => ?_⟩
        have hlt := hc.arrived _ hmem
        omega
    endedOnce := by
      rw [hended, List.map_append, List.nodup_append]
      refine ⟨hc.endedOnce, by simp, ?_⟩
      intro a ha b hb
      obtain ⟨e', he', rfl⟩ := List.mem_map.mp ha
      have hlt := (hc.gone e' he').1
      simp only [List.map_cons, List.map_nil, List.mem_singleton] at hb
      omega
    began := by
      intro b hb
      rw [hbegun] at hb
      have hlt := hc.began b hb
      omega
    begunOnce := by rw [hbegun]; exact hc.begunOnce
    waiting := by rw [hlive, hbegun]; exact hc.waiting }

/-- A call has come and stands at the end of the line. -/
theorem Orderly.enter {q q' : Resolution} {f : Factory} (hc : c.Orderly i)
    (hturn : (c'.slot i).turn = (c.slot i).turn.enter q.caller) (hlive : c'.live = c.live ++ [q])
    (harrivals : c'.arrivals = c.arrivals ++ [q']) (hbegun : c'.begun = c.begun)
    (hended : c'.ended = c.ended) (hq : q.caller = c.arrivals.length) (hp : q.phase = .queued f) :
    c'.Orderly i := by
  have hcallers : c'.callers = c.callers ++ [q.caller] := by simp [callers, hlive]
  have hlength : c'.arrivals.length = c.arrivals.length + 1 := by simp [harrivals]
  exact {
    turn := by rw [hturn, hcallers, hc.turn, Turn.enter_pass]
    sorted := by
      rw [hcallers, List.pairwise_append]
      refine ⟨hc.sorted, by simp, ?_⟩
      intro a ha b hb
      have hlt := hc.arrived a ha
      rw [List.mem_singleton.mp hb]
      omega
    arrived := by
      intro a ha
      rw [hcallers] at ha
      rcases List.mem_append.mp ha with ha | ha
      · have hlt := hc.arrived a ha
        omega
      · rw [List.mem_singleton.mp ha]
        omega
    running := by
      intro p hp' run hrun
      rw [hlive] at hp'
      rcases List.mem_append.mp hp' with hp' | hp'
      · -- who has the turn keeps it when somebody comes
        have hholder := hc.running p hp' run hrun
        rw [hturn, Turn.enter_of_holder_some hholder]
      · rw [List.mem_singleton.mp hp', hp] at hrun
        cases hrun
    gone := by
      intro e he
      rw [hended] at he
      obtain ⟨hlt, hout⟩ := hc.gone e he
      refine ⟨by omega, ?_⟩
      rw [hcallers]
      intro hmem
      rcases List.mem_append.mp hmem with hmem | hmem
      · exact hout hmem
      · rw [List.mem_singleton.mp hmem] at hlt
        omega
    endedOnce := by rw [hended]; exact hc.endedOnce
    began := by
      intro b hb
      rw [hbegun] at hb
      have hlt := hc.began b hb
      omega
    begunOnce := by rw [hbegun]; exact hc.begunOnce
    waiting := by
      intro p hp' f' hf'
      rw [hlive] at hp'
      rw [hbegun]
      rcases List.mem_append.mp hp' with hp' | hp'
      · exact hc.waiting p hp' f' hf'
      · rw [List.mem_singleton.mp hp']
        intro hmem
        obtain ⟨b, hb, hbq⟩ := List.mem_map.mp hmem
        have hlt := hc.began b hb
        omega }

/-- A call has left the line, wherever it stood. -/
theorem Orderly.leave (hc : c.Orderly i) (hl : c.live = front ++ r :: back)
    (hturn : (c'.slot i).turn = (c.slot i).turn.leave r.caller) (hlive : c'.live = front ++ back)
    (harrivals : c'.arrivals = c.arrivals) (hbegun : c'.begun = c.begun)
    (hended : c'.ended = c.ended ∨ ∃ e, c'.ended = c.ended ++ [e] ∧ e.caller = r.caller) :
    c'.Orderly i := by
  have hcallers : c'.callers = c.callers.erase r.caller := by
    rw [← callers_erase hl hc.sorted, callers, hlive]
  have hmem : r.caller ∈ c.callers := by rw [callers_of_live hl]; simp
  have hout : r.caller ∉ c'.callers := by
    rw [hcallers]
    exact hc.nodup.not_mem_erase
  have hsub : ∀ a ∈ c'.callers, a ∈ c.callers := by
    intro a ha
    rw [hcallers] at ha
    exact List.mem_of_mem_erase ha
  have hlive' : ∀ q ∈ c'.live, q ∈ c.live ∧ q.caller ≠ r.caller :=
    fun q hq => hc.mem_without hl (hlive ▸ hq)
  exact {
    turn := by rw [hturn, hcallers, hc.turn, Turn.leave_pass]
    sorted := by rw [hcallers]; exact hc.sorted.sublist List.erase_sublist
    arrived := by
      intro a ha
      rw [harrivals]
      exact hc.arrived a (hsub a ha)
    running := by
      intro q hq run hrun
      -- who runs the factory has the turn, and it is not the one who leaves
      obtain ⟨hq, hne⟩ := hlive' q hq
      have hholder := hc.running q hq run hrun
      rw [hturn, Turn.holder_leave_of_ne (by rw [hholder]; simp [hne])]
      exact hholder
    gone := by
      intro e he
      rw [harrivals]
      have hold : ∀ e ∈ c.ended, e.caller < c.arrivals.length ∧ e.caller ∉ c'.callers :=
        fun e he => ⟨(hc.gone e he).1, fun h => (hc.gone e he).2 (hsub _ h)⟩
      rcases hended with hended | ⟨e', hended, he'⟩
      · rw [hended] at he
        exact hold e he
      · rw [hended] at he
        rcases List.mem_append.mp he with he | he
        · exact hold e he
        · rw [List.mem_singleton.mp he, he']
          exact ⟨hc.arrived _ hmem, hout⟩
    endedOnce := by
      rcases hended with hended | ⟨e', hended, he'⟩
      · rw [hended]
        exact hc.endedOnce
      · rw [hended, List.map_append, List.nodup_append]
        refine ⟨hc.endedOnce, by simp, ?_⟩
        intro a ha b hb
        obtain ⟨e, he, rfl⟩ := List.mem_map.mp ha
        simp only [List.map_cons, List.map_nil, List.mem_singleton] at hb
        rw [hb, he']
        intro heq
        exact (hc.gone e he).2 (heq ▸ hmem)
    began := by rw [hbegun, harrivals]; exact hc.began
    begunOnce := by rw [hbegun]; exact hc.begunOnce
    waiting := by
      intro q hq f hf
      rw [hbegun]
      exact hc.waiting q (hlive' q hq).1 f hf }

/-- The first call has got on with a run. -/
theorem Orderly.runOn {run : FactoryRun} (hc : c.Orderly i) (hl : c.live = front ++ r :: back)
    (hholder : (c.slot i).turn.holder = some r.caller)
    (hturn : (c'.slot i).turn = (c.slot i).turn)
    (hlive : c'.live = front ++ { r with phase := .running run } :: back)
    (harrivals : c'.arrivals = c.arrivals) (hended : c'.ended = c.ended)
    (hbegun : c'.begun = c.begun ∨
      ∃ f, c'.begun = c.begun ++ [⟨r.caller, f⟩] ∧ r.caller ∉ c.begun.map (·.caller)) :
    c'.Orderly i := by
  have hcallers : c'.callers = c.callers := by
    rw [callers_of_live hl, callers_of_live hlive]
  have hmem : r.caller ∈ c.callers := by rw [callers_of_live hl]; simp
  have hlive' : ∀ q ∈ c'.live, q ∈ c.live ∧ q.caller ≠ r.caller ∨
      q = { r with phase := .running run } :=
    fun q hq => hc.mem_replaced hl (hlive ▸ hq)
  exact {
    turn := by rw [hturn, hcallers]; exact hc.turn
    sorted := by rw [hcallers]; exact hc.sorted
    arrived := by rw [hcallers, harrivals]; exact hc.arrived
    running := by
      intro q hq run' hrun'
      rw [hturn]
      rcases hlive' q hq with ⟨hq, -⟩ | rfl
      · exact hc.running q hq run' hrun'
      · exact hholder
    gone := by rw [hended, hcallers, harrivals]; exact hc.gone
    endedOnce := by rw [hended]; exact hc.endedOnce
    began := by
      intro b hb
      rw [harrivals]
      rcases hbegun with hbegun | ⟨f, hbegun, -⟩
      · rw [hbegun] at hb
        exact hc.began b hb
      · rw [hbegun] at hb
        rcases List.mem_append.mp hb with hb | hb
        · exact hc.began b hb
        · rw [List.mem_singleton.mp hb]
          exact hc.arrived _ hmem
    begunOnce := by
      rcases hbegun with hbegun | ⟨f, hbegun, hnot⟩
      · rw [hbegun]
        exact hc.begunOnce
      · rw [hbegun, List.map_append, List.nodup_append]
        refine ⟨hc.begunOnce, by simp, ?_⟩
        intro a ha b hb
        simp only [List.map_cons, List.map_nil, List.mem_singleton] at hb
        rw [hb]
        intro heq
        exact hnot (heq ▸ ha)
    waiting := by
      intro q hq f hf
      rcases hlive' q hq with ⟨hq, hne⟩ | rfl
      · rcases hbegun with hbegun | ⟨f', hbegun, -⟩
        · rw [hbegun]
          exact hc.waiting q hq f hf
        · rw [hbegun, List.map_append, List.mem_append]
          rintro (hmem' | hmem')
          · exact hc.waiting q hq f hf hmem'
          · simp only [List.map_cons, List.map_nil, List.mem_singleton] at hmem'
            exact hne hmem'
      · cases hf }

/-- Every move keeps the line in order. -/
theorem Move.orderly (hm : Move i h c c') (he : c.Entered i) (hc : c.Orderly i) :
    c'.Orderly i := by
  cases hm with
  | greet hh hd => exact hc.passBy rfl rfl rfl rfl rfl rfl
  | refuse hh hd hf => exact hc.passBy rfl rfl rfl rfl rfl rfl
  | enter hh hd hf =>
    refine hc.enter ?_ rfl rfl rfl rfl rfl rfl
    simp [slot, newcomer, Resolution.start]
  | find hl hp ht hd => exact hc.leave hl (by simp [slot]) rfl rfl rfl (.inr ⟨_, rfl, rfl⟩)
  | @launch span front r back f _ hl hp ht hd ha =>
    -- a call that waited has begun no run yet, so this is its first
    have hslot := (he r (mem_of_live hl)).1
    refine hc.runOn hl ?_ rfl rfl rfl rfl (.inr ⟨f, rfl, hc.waiting r (mem_of_live hl) f hp⟩)
    simpa [Resolution.hasTurn, hslot, slot] using ht
  | @work span front r back run g run' hl hp hr =>
    have hslots := (FactoryRun.traffic_eq hr).slots
    exact hc.runOn hl (hc.running r (mem_of_live hl) run hp) (by simp [slot, hslots]) rfl rfl rfl
      (.inl rfl)
  | fail span hl hp hr | install span hl hp hr hd =>
    have hslots := (FactoryRun.traffic_eq hr).slots
    exact hc.leave hl (by simp [slot, hslots]) rfl rfl rfl (.inr ⟨_, rfl, rfl⟩)
  | expire span hl hr ht => exact hc.leave hl (by simp [slot]) rfl rfl rfl (.inr ⟨_, rfl, rfl⟩)
  | abandon hh hl => exact hc.leave hl (by simp [slot]) rfl rfl rfl (.inl rfl)
  | register | reset => exact hc.still (by simp [slot]) rfl rfl rfl rfl
  | reject | elapse | meanwhile => exact hc.still rfl rfl rfl rfl rfl

theorem orderly_opening {g : Gateway} (hturn : (g.slots i).turn = .free) :
    (opening g).Orderly i where
  turn := hturn
  sorted := .nil
  arrived := by simp [callers, opening]
  running := by simp [opening]
  gone := by simp [opening]
  endedOnce := .nil
  began := by simp [opening]
  begunOnce := .nil
  waiting := by simp [opening]

/-- A run keeps the order, and what every single move of an orderly crowd keeps. -/
theorem orderly_induction {P : Crowd → Prop} (hs : List Happening)
    (hP : ∀ h ∈ hs, ∀ c c', c.Entered i → c.Orderly i → P c → Move i h c c' → P c')
    (he : c.Entered i) (ho : c.Orderly i) (h0 : P c) :
    (c.run i hs).Entered i ∧ (c.run i hs).Orderly i ∧ P (c.run i hs) := by
  apply run_induction hs (P := fun c => c.Orderly i ∧ P c) _ he ⟨ho, h0⟩
  intro h hh c c' he hc hm
  exact ⟨hm.orderly he hc.1, hP h hh c c' he hc.1 hc.2 hm⟩

/-- The line is in order after every run. -/
theorem orderly_run (i : Nat) (hs : List Happening) :
    (start.run i hs).Entered i ∧ (start.run i hs).Orderly i :=
  run_induction hs (fun _ _ _ _ he hc hm => hm.orderly he hc) (entered_opening _)
    (orderly_opening rfl)

end Crowd

end MuxBridge
