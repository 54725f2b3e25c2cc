/-
# Windows of new tabs

A delegate is built with a directory that is told of sessions and windows one after the other. Of
the windows that a tab is given the last one counts, and a session is known once it has been told;
what is told of one key has no part in what is found under another. On a connection with such a
delegate, a new window is found exactly if the host reports a tab that was given a window. A host
that reports no tab, or one that nobody has given a window, is no failure.

* `Directory.ofFacts`: the directory that was told these facts in order;
* `Directory.window?_ofFacts_iff`, `Directory.session?_ofFacts_iff`: what is found in it;
* `Service.every_run`: what holds of operations as they begin and stays known of each of them;
* `Service.opens_as_told`: the main result.
-/
import Mathlib.Data.List.Induction
import MuxBridge.Proofs.Service.Failures

namespace MuxBridge

/-! ## Directories that are told facts -/

namespace Directory

/-- What a directory is told. -/
inductive Fact where
  | session (s : SessionId)
  | window (t : TabId) (w : WindowId)
  deriving DecidableEq

/-- What a directory can be asked about. -/
inductive Key where
  | session (s : SessionId)
  | tab (t : TabId)
  deriving DecidableEq

/-- What a fact is about. -/
def Fact.key : Fact → Key
  | .session s => .session s
  | .window t _ => .tab t

/-- Takes in a fact. -/
def learn (d : Directory) : Fact → Directory
  | .session s => d.withSession s
  | .window t w => d.withWindow t w

/-- The directory that was told facts one after the other. -/
def ofFacts (fs : List Fact) : Directory := fs.foldl learn empty

/-- The window that a tab was given last. -/
def GivenLast (fs : List Fact) (t : TabId) (w : WindowId) : Prop :=
  ∃ before after, fs = before ++ .window t w :: after ∧ ∀ w', .window t w' ∉ after

variable {fs gs : List Fact} {s : SessionId} {t : TabId} {w : WindowId}

theorem ofFacts_concat (fs : List Fact) (f : Fact) :
    ofFacts (fs ++ [f]) = (ofFacts fs).learn f := by
  rw [ofFacts, List.foldl_append]
  rfl

/-- Sessions and windows may be told apart from each other. -/
theorem ofLists_eq_ofFacts (sessions : List SessionId) (windows : List (TabId × WindowId)) :
    ofLists sessions windows
      = ofFacts (sessions.map .session ++ windows.map fun p => .window p.1 p.2) := by
  rw [ofFacts, List.foldl_append, List.foldl_map, List.foldl_map]
  rfl

/-! ### What is found -/

theorem givenLast_concat_window (fs : List Fact) (t : TabId) (w : WindowId) :
    GivenLast (fs ++ [.window t w]) t w :=
  ⟨fs, [], rfl, by simp⟩

/-- A fact about something else changes nothing about which window a tab was given last. -/
theorem givenLast_concat_iff {f : Fact} (hf : f.key ≠ .tab t) :
    GivenLast (fs ++ [f]) t w ↔ GivenLast fs t w := by
  have hne : ∀ w', f ≠ .window t w' := by
    rintro w' rfl
    exact hf rfl
  constructor
  · rintro ⟨before, after, hsplit, hafter⟩
    -- the last fact is not the one that gave the window
    rcases List.eq_nil_or_concat after with rfl | ⟨after, f', rfl⟩
    · obtain ⟨-, hlast⟩ := List.append_inj' hsplit rfl
      exact absurd (List.cons.inj hlast).1 (hne w)
    · rw [List.concat_eq_append, ← List.cons_append, ← List.append_assoc] at hsplit
      obtain ⟨rfl, -⟩ := List.append_inj' hsplit rfl
      refine ⟨before, after, rfl, ?_⟩
      intro w' hw'
      apply hafter w'
      rw [List.concat_eq_append]
      exact List.mem_append_left _ hw'
  · rintro ⟨before, after, rfl, hafter⟩
    refine ⟨before, after ++ [f], by simp, ?_⟩
    intro w' hw'
    rcases List.mem_append.mp hw' with hw' | hw'
    · exact hafter w' hw'
    · exact hne w' (List.mem_singleton.mp hw').symm

/-- The window that was given at the very end is the last one. -/
theorem eq_of_givenLast_concat {w' : WindowId} (h : GivenLast (fs ++ [.window t w]) t w') :
    w' = w := by
  obtain ⟨before, after, hsplit, hafter⟩ := h
  rcases List.eq_nil_or_concat after with rfl | ⟨after, f, rfl⟩
  · obtain ⟨-, hlast⟩ := List.append_inj' hsplit rfl
    cases hlast
    rfl
  · rw [List.concat_eq_append] at hsplit hafter
    rw [← List.cons_append, ← List.append_assoc] at hsplit
    obtain ⟨-, hlast⟩ := List.append_inj' hsplit rfl
    obtain rfl : Fact.window t w = f := (List.cons.inj hlast).1
    exact absurd (List.mem_append_right _ List.mem_cons_self) (hafter w)

/-- The window that is found for a tab is the one that it was given last. -/
theorem window?_ofFacts_iff : (ofFacts fs).window? t = some w ↔ GivenLast fs t w := by
  induction fs using List.reverseRecOn with
  | nil =>
    constructor
    · intro h
      cases h
    · rintro ⟨before, after, hsplit, -⟩
      simp at hsplit
  | append_singleton fs f ih =>
    rw [ofFacts_concat]
    by_cases hf : f.key = .tab t
    · -- the last fact gives the tab its window
      cases f with
      | session s' => cases hf
      | window t' w' =>
        obtain rfl : t' = t := Key.tab.inj hf
        rw [learn, window?_withWindow, if_pos rfl]
        constructor
        · intro h
          rw [Option.some.inj h]
          exact givenLast_concat_window fs t' w
        · intro h
          rw [eq_of_givenLast_concat h]
    · rw [givenLast_concat_iff hf, ← ih]
      cases f with
      | session s' => rw [learn, window?_withSession]
      | window t' w' =>
        have hne : t ≠ t' := by
          rintro rfl
          exact hf rfl
        rw [learn, window?_withWindow, if_neg hne]

/-- No window is found for a tab that was given none. -/
theorem window?_ofFacts_eq_none_iff : (ofFacts fs).window? t = none ↔ ∀ w, .window t w ∉ fs := by
  constructor
  · intro hnone w hw
    -- of all windows that the tab was given, one was given last
    have hlast : ∃ w', GivenLast fs t w' := by
      clear hnone
      induction fs using List.reverseRecOn with
      | nil => cases hw
      | append_singleton fs f ih =>
        by_cases hf : f.key = .tab t
        · cases f with
          | session s' => cases hf
          | window t' w' =>
            obtain rfl : t' = t := Key.tab.inj hf
            exact ⟨w', givenLast_concat_window fs t' w'⟩
        · rcases List.mem_append.mp hw with hw | hw
          · obtain ⟨w', hw'⟩ := ih hw
            exact ⟨w', (givenLast_concat_iff hf).mpr hw'⟩
          · rw [← List.mem_singleton.mp hw] at hf
            exact absurd rfl hf
    obtain ⟨w', hw'⟩ := hlast
    rw [window?_ofFacts_iff.mpr hw'] at hnone
    cases hnone
  · intro hnone
    rw [Option.eq_none_iff_forall_ne_some]
    intro w hw
    obtain ⟨before, after, rfl, -⟩ := window?_ofFacts_iff.mp hw
    exact hnone w (by simp)

/-- A session is found exactly if it was told, and it is the one that is asked for. -/
theorem session?_ofFacts_iff {s' : SessionId} :
    (ofFacts fs).session? s = some s' ↔ s' = s ∧ .session s ∈ fs := by
  induction fs using List.reverseRecOn with
  | nil => simp [ofFacts, session?, empty]
  | append_singleton fs f ih =>
    rw [ofFacts_concat]
    cases f with
    | window t w => simpa [learn] using ih
    | session s'' =>
      rw [learn, session?_withSession]
      by_cases hs : s = s''
      · subst hs
        simp [eq_comm]
      · rw [if_neg hs, ih]
        simp [hs]

/-! ### What has no part in what is found -/

/-- The same is found under a key. -/
def AlikeAt (d d' : Directory) : Key → Prop
  | .session s => d.session? s = d'.session? s
  | .tab t => d.window? t = d'.window? t

section AlikeAt

variable {d d' d'' : Directory} {k : Key} {f : Fact}

theorem AlikeAt.symm (h : d.AlikeAt d' k) : d'.AlikeAt d k := by
  cases k <;> exact Eq.symm h

theorem AlikeAt.trans (h : d.AlikeAt d' k) (h' : d'.AlikeAt d'' k) : d.AlikeAt d'' k := by
  cases k <;> exact Eq.trans h h'

/-- What is told of one key is not found under another. -/
theorem alikeAt_learn_of_ne (d : Directory) (hf : f.key ≠ k) : (d.learn f).AlikeAt d k := by
  cases f with
  | session s =>
    cases k with
    | session s' =>
      have hs : s' ≠ s := fun h => hf (congrArg Key.session h.symm)
      show (d.withSession s).session? s' = _
      rw [session?_withSession, if_neg hs]
    | tab t => exact window?_withSession d s t
  | window t w =>
    cases k with
    | session s => exact session?_withWindow d t w s
    | tab t' =>
      have ht : t' ≠ t := fun h => hf (congrArg Key.tab h.symm)
      show (d.withWindow t w).window? t' = _
      rw [window?_withWindow, if_neg ht]

/-- Directories in which the same is found take in a fact alike. -/
theorem AlikeAt.learn (h : d.AlikeAt d' k) (f : Fact) : (d.learn f).AlikeAt (d'.learn f) k := by
  by_cases hf : f.key = k
  · subst hf
    cases f with
    | session s =>
      show (d.withSession s).session? s = (d'.withSession s).session? s
      rw [session?_withSession, session?_withSession, if_pos rfl, if_pos rfl]
    | window t w =>
      show (d.withWindow t w).window? t = (d'.withWindow t w).window? t
      rw [window?_withWindow, window?_withWindow, if_pos rfl, if_pos rfl]
  · exact (alikeAt_learn_of_ne d hf).trans (h.trans (alikeAt_learn_of_ne d' hf).symm)

/-- The facts about a key are enough to find what is found under it. -/
theorem alikeAt_filter (fs : List Fact) (k : Key) :
    (ofFacts fs).AlikeAt (ofFacts (fs.filter (·.key = k))) k := by
  induction fs using List.reverseRecOn with
  | nil => cases k <;> rfl
  | append_singleton fs f ih =>
    rw [List.filter_append, ofFacts_concat]
    by_cases hf : f.key = k
    · rw [List.filter_singleton, decide_eq_true hf, cond_true, ofFacts_concat]
      exact ih.learn f
    · rw [List.filter_singleton, decide_eq_false hf, cond_false, List.append_nil]
      exact (alikeAt_learn_of_ne _ hf).trans ih

/-- What is found under a key depends on nothing but the facts about it and their order. -/
theorem alikeAt_of_filter_eq (h : fs.filter (·.key = k) = gs.filter (·.key = k)) :
    (ofFacts fs).AlikeAt (ofFacts gs) k := by
  have hgs := (alikeAt_filter gs k).symm
  rw [← h] at hgs
  exact (alikeAt_filter fs k).trans hgs

/-- A fact may be told at any time without any part in what is found under another key. -/
theorem alikeAt_insert (before after : List Fact) (hf : f.key ≠ k) :
    (ofFacts (before ++ f :: after)).AlikeAt (ofFacts (before ++ after)) k := by
  apply alikeAt_of_filter_eq
  rw [List.filter_append, List.filter_append, List.filter_cons_of_neg (by simpa using hf)]

end AlikeAt

end Directory

/-! ## New windows -/

/-- A new window is the one that the delegate knows for the tab that the host has reported. -/
theorem Work.outcome_window (affinity : Option WindowId) (d : Delegate) (tab? : Option TabId) :
    (Work.window affinity).outcome d (.ok ⟨.ok, tab?.map .createWindow⟩)
      = .ok (.opened (tab?.bind d.directory.window?)) := by
  cases tab? with
  | none => rfl
  | some tab =>
    have hresult : (⟨.ok, some (.createWindow tab)⟩ : Response).result
        = .ok (some (.createWindow tab)) := rfl
    simp only [outcome, Dispatch.conclude, Option.map_some, hresult, Dispatch.judge,
      Dispatch.openedIn, Option.bind_some]
    split
    · next h => rw [h]
    · next h => rw [h]

namespace Service

variable {g : Gateway} {s s' : Service} {n : Nat} {op : Operation} {call : Call}

/-- Nothing but a beginning makes an operation. -/
theorem operations_step_of_ne {o : Occurrence} (ho : ∀ op, o ≠ .begin op) :
    (s.step o).operations = s.operations := by
  cases o with
  | begin op => exact absurd rfl (ho op)
  | resume m => exact operations_advance s m
  | abandon m =>
    rw [step]
    split <;> rfl
  | register | reset | elapse | retune => rfl

/-- **What holds of operations as they begin stays known of each of them** if it does not depend on
anything else and stays known when the operation goes on. -/
theorem every_run {P : Operation → Nat → Service → Prop}
    (henroll : ∀ (s : Service) op, s.Kept g → s.Heard → P op s.operations.length (s.enroll op))
    (hrests : ∀ op n s s', P op n s → Rests n s s' → P op n s')
    (hadvance : ∀ op n (s : Service) call, s.Kept g → s.Heard →
      s.operations[n]? = some op → s.live n = some call → P op n s → P op n (s.advance n))
    (os : List Occurrence) (hop : ((opening g).run os).operations[n]? = some op) :
    P op n ((opening g).run os) := by
  induction os using List.reverseRecOn with
  | nil => cases hop
  | append_singleton os o ih =>
    have hrun : (opening g).run (os ++ [o]) = ((opening g).run os).step o := by
      simp only [run, List.foldl_append, List.foldl_cons, List.foldl_nil]
    have hkept := kept_run (kept_opening g) os
    have hheard := heard_run (heard_opening g) (kept_opening g) os
    rw [hrun] at hop ⊢
    generalize (opening g).run os = s at *
    by_cases hn : n < s.operations.length
    · -- the operation has begun before
      have hold := List.getElem?_eq_getElem hn
      rw [operation_step hold o] at hop
      rw [hop] at hold
      exact follow_run (hrests op n _ _) (hadvance op n _ _) hkept hheard hold (ih hold) [o]
    · by_cases ho : ∃ op', o = .begin op'
      · -- the operation has just begun
        obtain ⟨op', rfl⟩ := ho
        have hlength : n < (s.step (.begin op')).operations.length :=
          (List.getElem?_eq_some_iff.mp hop).1
        rw [step, operations_advance] at hlength
        obtain rfl : n = s.operations.length := by
          simp only [enroll, List.length_append, List.length_singleton] at hlength
          omega
        obtain rfl : op' = op := Option.some.inj ((operation_begin s op').symm.trans hop)
        have hbegun := henroll s op' hkept hheard
        have hop' : (s.enroll op').operations[s.operations.length]? = some op' := by simp [enroll]
        show P op' s.operations.length ((s.enroll op').advance s.operations.length)
        cases hcall : (s.enroll op').live s.operations.length with
        | none =>
          rw [advance_of_none hcall]
          exact hbegun
        | some call =>
          exact hadvance _ _ _ _ (kept_enroll hkept op') (heard_enroll hheard op') hop' hcall hbegun
      · rw [operations_step_of_ne fun op' h => ho ⟨op', h⟩] at hop
        exact absurd (List.getElem?_eq_some_iff.mp hop).1 hn

/-- Every operation of a service has come to the verdict on its reply, if it has taken one. -/
theorem judged_run (g : Gateway) (os : List Occurrence)
    (hop : ((opening g).run os).operations[n]? = some op) : Judged op n ((opening g).run os) := by
  refine every_run (P := Judged) ?_ (fun _ _ _ _ => Judged.rests) ?_ os hop
  · intro s op hkept hheard
    exact judged_of_unheard (hheard.fresh _ le_rfl)
  · intro op n s call hkept hheard hop hcall _
    exact judged_advance hop hcall hkept hheard

/-- Whoever looks for the session of a connection is answered at once. -/
theorem ended_owningSession (g : Gateway) (os : List Occurrence) {c : Connection}
    (hop : ((opening g).run os).operations[n]? = some (.owningSession c)) :
    ((opening g).run os).ended n = some (.ok (.session c.owningSession)) := by
  let P (op : Operation) (n : Nat) (s : Service) : Prop :=
    op = .owningSession c → s.live n = none ∧ s.ended n = some (.ok (.session c.owningSession))
  have hP : P (.owningSession c) n ((opening g).run os) := by
    refine every_run (P := P) ?_ ?_ ?_ os hop
    · rintro s op - - rfl
      exact ⟨live_enroll s _, ended_enroll s _⟩
    · intro op n s s' hs hrests hop
      obtain ⟨hlive, hended⟩ := hs hop
      refine ⟨?_, hrests.ended.trans hended⟩
      rcases hrests.live with hlive' | hlive'
      · rw [hlive', hlive]
      · exact hlive'
    · intro op n s call _ _ _ hcall hs hsession
      cases hcall.symm.trans (hs hsession).1
  exact (hP rfl).2

/-! ## The main result -/

/-- What an opening of a window comes to on a connection with a delegate that was told facts, after
the host has reported a tab, or none. -/
structure Opens (fs : List Directory.Fact) (tab? : Option TabId) (o : Option (Outcome Finding)) :
    Prop where
  /-- It never fails. -/
  ended : ∃ w?, o = some (.ok (.yielded (.achievement (.opened w?))))
  found : ∀ w, o = some (.ok (.yielded (.achievement (.opened (some w))))) ↔
    ∃ tab, tab? = some tab ∧ Directory.GivenLast fs tab w
  absent : o = some (.ok (.yielded (.achievement (.opened none)))) ↔
    tab? = none ∨ ∃ tab, tab? = some tab ∧ ∀ w, .window tab w ∉ fs

theorem opens_of_directory {d : Directory} {fs : List Directory.Fact} (hd : d = .ofFacts fs)
    (tab? : Option TabId) :
    Opens fs tab? (some (.ok (.yielded (.achievement (.opened (tab?.bind d.window?)))))) where
  ended := ⟨_, rfl⟩
  found := by
    intro w
    simp only [Option.some.injEq, Except.ok.injEq, Finding.yielded.injEq, Yield.achievement.injEq,
      Achievement.opened.injEq, hd, ← Directory.window?_ofFacts_iff]
    cases tab? <;> simp
  absent := by
    simp only [Option.some.injEq, Except.ok.injEq, Finding.yielded.injEq, Yield.achievement.injEq,
      Achievement.opened.injEq, hd, ← Directory.window?_ofFacts_eq_none_iff]
    cases tab? <;> simp

/-- **New windows are opened as the delegate was told.** Whatever else goes on in a service, on a
connection with a delegate that was told facts in any order: an opening of a window whose request
the host has accepted, reporting a tab or none, finds a window exactly if the tab was given one, and
then the one that it was given last; nothing is found exactly if no tab is reported or the tab was
given none. The session of the connection is found exactly if it was told. What is told of one key
has no part in what is found under another: it may be told at any time or not at all, and facts may
be told in any order that keeps the one of those about the same key. -/
theorem opens_as_told (g : Gateway) (os : List Occurrence) {n : Nat} {c : Connection}
    {fs : List Directory.Fact} (hc : c.delegate.directory = .ofFacts fs) :
    (∀ affinity tab?, ((opening g).run os).operations[n]? = some (.work c (.window affinity)) →
        ((opening g).run os).replied n = some (.ok ⟨.ok, tab?.map .createWindow⟩) →
        Opens fs tab? (((opening g).run os).ended n)) ∧
      (((opening g).run os).operations[n]? = some (.owningSession c) →
        ∃ s?, ((opening g).run os).ended n = some (.ok (.session s?)) ∧
          ∀ s, s? = some s ↔ s = c.owner ∧ .session c.owner ∈ fs) ∧
      (∀ before f after k, fs = before ++ f :: after → f.key ≠ k →
        (Directory.ofFacts fs).AlikeAt (.ofFacts (before ++ after)) k) ∧
      ∀ gs k, fs.filter (·.key = k) = gs.filter (·.key = k) →
        (Directory.ofFacts fs).AlikeAt (.ofFacts gs) k := by
  refine ⟨?_, ?_, ?_, fun gs k => Directory.alikeAt_of_filter_eq⟩
  · intro affinity tab? hop hreply
    obtain ⟨d, hd, hended⟩ := (judged_run g os hop).ended _ hreply
    obtain rfl : c.delegate = d := Option.some.inj hd
    rw [hended, Operation.verdict, Work.outcome_window]
    exact opens_of_directory hc tab?
  · intro hop
    refine ⟨_, ended_owningSession g os hop, ?_⟩
    intro s
    rw [Connection.owningSession, hc, Directory.session?_ofFacts_iff]
  · rintro before f after k rfl hf
    exact Directory.alikeAt_insert before after hf

/-- A session and four windows, one of them for a tab without a name and two for another tab. -/
def toldFacts : List Directory.Fact :=
  [.window ⟨""⟩ ⟨"@0"⟩, .window ⟨"7"⟩ ⟨"@1"⟩, .session ⟨"s"⟩, .window ⟨"8"⟩ ⟨"@3"⟩,
    .window ⟨"7"⟩ ⟨"@2"⟩]

/-- A connection of that session with a delegate that was told these facts. -/
def toldConnection : Connection := ⟨⟨"A"⟩, ⟨"s"⟩, ⟨0, default, .ofFacts toldFacts⟩⟩

/-- A window is opened on it twice, and its session is looked for. First the host reports a tab, and
then none. -/
def toldCourse : List Occurrence :=
  [.retune 0 (.replying (.success (.createWindow ⟨"7"⟩))) (some 0),
    .begin (.work toldConnection (.window none)), .retune 0 (.replying ⟨.ok, none⟩) (some 0),
    .begin (.work toldConnection (.window (some ⟨"@0"⟩))), .begin (.owningSession toldConnection)]

/-- The tab has got its second window, nothing is found without a tab although there is one without
a name, and the session is found. -/
theorem opens_as_told_course :
    ((opening .start).run toldCourse).ended 0
        = some (.ok (.yielded (.achievement (.opened (some ⟨"@2"⟩))))) ∧
      ((opening .start).run toldCourse).ended 1
        = some (.ok (.yielded (.achievement (.opened none)))) ∧
      ((opening .start).run toldCourse).ended 2 = some (.ok (.session (some ⟨"s"⟩))) := by
  have hc : toldConnection.delegate.directory = .ofFacts toldFacts := rfl
  refine ⟨?_, ?_, ?_⟩
  · have hopens := (opens_as_told .start toldCourse (n := 0) hc).1 none (some ⟨"7"⟩) rfl rfl
    exact (hopens.found ⟨"@2"⟩).mpr ⟨_, rfl, toldFacts.dropLast, [], rfl, by simp⟩
  · have hopens := (opens_as_told .start toldCourse (n := 1) hc).1 (some ⟨"@0"⟩) none rfl rfl
    exact hopens.absent.mpr (.inl rfl)
  · obtain ⟨s?, hended, hs?⟩ := (opens_as_told .start toldCourse (n := 2) hc).2.1 rfl
    rw [hended, (hs? ⟨"s"⟩).mpr ⟨rfl, by decide⟩]

end Service

end MuxBridge
