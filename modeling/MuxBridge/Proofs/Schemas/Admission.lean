/-
# Readers of admitted values

A reader of records and the schemas of their members fit together if every field takes what its
schema admits, and if the fields that the record needs are those that must not be missing. Then
every object that the schemas admit is read as a record, wherever its members stand and whatever
other members it has. A union is read in the same way once its tag is found, and a schema of tagged
objects admits exactly the objects with the tag of one of its kinds and the members of that kind.

* `Json.Distinct`: no object names a member twice;
* `Record.Fits`: a record and the schemas of its members fit together;
* `Record.Fits.exists_read`: then admitted objects are read;
* `Schema.admits_choices_iff`: what tagged objects are admitted;
* `Union.exists_ofDraft`: unions of records that fit are read.
-/
import MuxBridge.Proofs.Coding.Messages
import MuxBridge.Proofs.Schemas.Validation
import MuxBridge.Schema.Message

namespace MuxBridge

/-! ## Finished values -/

/-- A value in which no object names a member twice. -/
inductive Json.Distinct : Json → Prop
  | null : Distinct .null
  | bool (b : Bool) : Distinct (.bool b)
  | number (n : Number) : Distinct (.number n)
  | string (s : String) : Distinct (.string s)
  | array {items : List Json} (h : ∀ j ∈ items, Distinct j) : Distinct (.array items)
  | object {members : List (String × Json)} (hkeys : (members.map Prod.fst).Nodup)
      (h : ∀ m ∈ members, Distinct m.2) : Distinct (.object members)

namespace Draft

variable {j : Json}

/-- A finished value that is set aside comes back as it is. -/
theorem settle_of_distinct (hj : j.Distinct) : settle none (ofJson j) = .ok j := by
  induction hj with
  | null | bool | number | string => simp only [ofJson, settle]
  | array _ ih =>
    simp only [ofJson, settle, deeper, bind, Except.bind, settleItems_ofItems ih]
    rfl
  | object _ _ ih =>
    simp only [ofJson, settle, deeper, bind, Except.bind, settleMembers_ofMembers ih]
    rfl

/-- Skipping a finished value meets no fault. -/
theorem skip_of_distinct (hj : j.Distinct) : skip (ofJson j) = none := by
  induction hj with
  | null | bool | number | string => rfl
  | array h ih =>
    have hitems : ∀ items : List Json, (∀ j ∈ items, skip (ofJson j) = none) →
        skipItems (ofItems items) none = none := by
      intro items
      induction items with
      | nil => exact fun _ => rfl
      | cons i items ihi =>
        intro hi
        simp only [ofItems, skipItems, hi i List.mem_cons_self, Option.none_or]
        exact ihi fun j hj => hi j (List.mem_cons_of_mem _ hj)
    exact hitems _ ih
  | object _ _ ih =>
    have hmembers : ∀ members : List (String × Json), (∀ m ∈ members, skip (ofJson m.2) = none) →
        skipMembers (ofMembers members) none = none := by
      intro members
      induction members with
      | nil => exact fun _ => rfl
      | cons m members ihm =>
        intro hm
        obtain ⟨name, j⟩ := m
        simp only [ofMembers, skipMembers, nameFault, hm (name, j) List.mem_cons_self,
          Option.none_or]
        exact ihm fun m' hm' => hm m' (List.mem_cons_of_mem _ hm')
    exact hmembers _ ih

end Draft

/-- Where no name stands twice, every member is found under its name. -/
theorem lookup_eq_some_iff_mem {β : Type} {members : List (String × β)}
    (hkeys : (members.map Prod.fst).Nodup) {name : String} {b : β} :
    members.lookup name = some b ↔ (name, b) ∈ members := by
  induction members with
  | nil => simp
  | cons m members ih =>
    obtain ⟨n, c⟩ := m
    rw [List.map_cons, List.nodup_cons] at hkeys
    rw [List.lookup_cons, List.mem_cons, Prod.mk.injEq]
    by_cases hname : name = n
    · subst hname
      have hnone : (name, b) ∉ members := fun hb => hkeys.1 (List.mem_map.mpr ⟨_, hb, rfl⟩)
      simp [hnone, eq_comm]
    · have hne : (name == n) = false := beq_eq_false_iff_ne.mpr hname
      simp [hne, hname, ih hkeys.2]

theorem Source.enter_of_room_none {src : Source} (h : src.room = none) : src.enter = .ok src := by
  cases src with
  | text n => cases h
  | value | buffer => rfl

/-! ## Records -/

/-- A record fits the schemas of its members, where a function tells which fields of a partly read
record have been given. -/
structure Record.Fits {σ ρ : Type} (r : Record σ ρ) (src : Source)
    (ms : List (String × Bool × Schema)) (given : σ → String → Bool) : Prop where
  known : ∀ name ∈ r.fields, ∃ m ∈ ms, m.1 = name
  start : ∀ name ∈ r.fields, given r.start name = false
  /-- A field that has not been given takes every value that its schema admits, and leaves the other
  fields alone. -/
  put : ∀ m ∈ ms, m.1 ∈ r.fields → ∀ j : Json, j.Distinct → m.2.2.admits j = true →
    ∀ s, given s m.1 = false → ∃ s', r.put src m.1 (Draft.ofJson j) s = .ok s' ∧
      given s' m.1 = true ∧ ∀ other ∈ r.fields, other ≠ m.1 → given s' other = given s other
  /-- Nothing is lacking once the fields that must not be missing have been given. -/
  finish : ∀ s, (∀ m ∈ ms, m.2.1 = true → m.1 ∈ r.fields → given s m.1 = true) →
    ∃ a, r.finish s = .ok a

/-- The schemas of members admit an object: every member that is there is admitted by its schema,
and none that must not be missing is. -/
theorem Schema.admitsMembers_iff {members : List (String × Json)}
    (hkeys : (members.map Prod.fst).Nodup) {ms : List (String × Bool × Schema)} :
    Schema.admitsMembers ms members = true ↔ ∀ m ∈ ms,
      (∀ j, (m.1, j) ∈ members → m.2.2.admits j = true) ∧
        (m.2.1 = true → ∃ j, (m.1, j) ∈ members) := by
  induction ms with
  | nil => simp [admitsMembers]
  | cons m ms ih =>
    obtain ⟨name, needed, s⟩ := m
    have hfound : ∀ j, members.lookup name = some j ↔ (name, j) ∈ members :=
      fun j => lookup_eq_some_iff_mem hkeys
    simp only [admitsMembers, Bool.and_eq_true, ih, List.forall_mem_cons, ← hfound]
    refine and_congr_left fun _ => ?_
    cases members.lookup name with
    | none => cases needed <;> simp
    | some j => simp

namespace Record.Fits

variable {σ ρ : Type} {r : Record σ ρ} {src : Source} {ms : List (String × Bool × Schema)}
  {given : σ → String → Bool} {members : List (String × Json)}

/-- The members of an object are put into a record one after the other. -/
theorem exists_putMembers (h : r.Fits src ms given) (hkeys : (members.map Prod.fst).Nodup)
    (hdistinct : ∀ m ∈ members, m.2.Distinct)
    (hadmits : ∀ m ∈ ms, ∀ j, (m.1, j) ∈ members → m.2.2.admits j = true) (s : σ)
    (hfree : ∀ m ∈ members, m.1 ∈ r.fields → given s m.1 = false) :
    ∃ s', r.putMembers src (Draft.ofMembers members) s = .ok s' ∧ ∀ name ∈ r.fields,
      (given s name = true ∨ ∃ j, (name, j) ∈ members) → given s' name = true := by
  induction members generalizing s with
  | nil =>
    refine ⟨s, rfl, ?_⟩
    rintro name - (hgiven | ⟨j, hj⟩)
    · exact hgiven
    · cases hj
  | cons m members ih =>
    obtain ⟨name, j⟩ := m
    rw [List.map_cons, List.nodup_cons] at hkeys
    have hne : ∀ m ∈ members, m.1 ≠ name := by
      rintro m hm rfl
      exact hkeys.1 (List.mem_map.mpr ⟨_, hm, rfl⟩)
    have hrest := ih hkeys.2 (fun m hm => hdistinct m (List.mem_cons_of_mem _ hm))
      fun m hm i hi => hadmits m hm i (List.mem_cons_of_mem _ hi)
    by_cases hname : name ∈ r.fields
    · obtain ⟨m, hm, rfl⟩ := h.known name hname
      obtain ⟨s₁, hput, hgiven, hothers⟩ := h.put m hm hname j (hdistinct _ List.mem_cons_self)
        (hadmits m hm j List.mem_cons_self) s (hfree _ List.mem_cons_self hname)
      obtain ⟨s', hs', hall⟩ := hrest s₁ (by
        intro m' hm' hfield
        rw [hothers m'.1 hfield (hne m' hm')]
        exact hfree m' (List.mem_cons_of_mem _ hm') hfield)
      refine ⟨s', (r.putMembers_cons members hname hput).trans hs', ?_⟩
      intro other hother hcases
      by_cases heq : other = m.1
      · exact hall other hother (.inl (by rw [heq]; exact hgiven))
      · refine hall other hother ?_
        rcases hcases with hbefore | ⟨i, hi⟩
        · exact .inl (by rw [hothers other hother heq]; exact hbefore)
        · rcases List.mem_cons.mp hi with hi | hi
          · exact absurd (congrArg Prod.fst hi) heq
          · exact .inr ⟨i, hi⟩
    · -- a member that the record does not know is skipped
      obtain ⟨s', hs', hall⟩ := hrest s fun m hm => hfree m (List.mem_cons_of_mem _ hm)
      refine ⟨s', ?_, ?_⟩
      · simp only [Draft.ofMembers, putMembers, Draft.name, Read.ofFault, hname, if_false,
          Draft.skip_of_distinct (hdistinct _ List.mem_cons_self), Read.close, bind, Except.bind]
        exact hs'
      · intro other hother hcases
        refine hall other hother (hcases.imp_right ?_)
        rintro ⟨i, hi⟩
        rcases List.mem_cons.mp hi with hi | hi
        · rw [(Prod.mk.inj hi).1] at hother
          exact absurd hother hname
        · exact ⟨i, hi⟩

/-- Every object that the schemas of the members admit is read as a record. -/
theorem exists_read (h : r.Fits src ms given) (hsrc : src.room = none)
    (hdistinct : (Json.object members).Distinct)
    (hadmits : Schema.admitsMembers ms members = true) :
    ∃ a, r.read src (Draft.ofJson (.object members)) = .ok a := by
  cases hdistinct with
  | object hkeys hvalues =>
    have hmembers := Schema.admitsMembers_iff hkeys |>.mp hadmits
    obtain ⟨s, hput, hgiven⟩ := h.exists_putMembers hkeys hvalues
      (fun m hm j hj => (hmembers m hm).1 j hj) r.start
      fun m _ hm => h.start m.1 hm
    obtain ⟨a, ha⟩ := h.finish s (by
      intro m hm hneeded hfield
      exact hgiven m.1 hfield (.inr ((hmembers m hm).2 hneeded)))
    exact ⟨a, r.read_object (Source.enter_of_room_none hsrc) members hput ha⟩

end Record.Fits

/-! ## Unions -/

theorem Schema.admitsMembers_congr {ms : List (String × Bool × Schema)}
    {members others : List (String × Json)}
    (h : ∀ m ∈ ms, others.lookup m.1 = members.lookup m.1) :
    admitsMembers ms others = admitsMembers ms members := by
  induction ms with
  | nil => rfl
  | cons m ms ih =>
    obtain ⟨name, needed, s⟩ := m
    rw [List.forall_mem_cons] at h
    rw [admitsMembers, admitsMembers, h.1, ih h.2]

/-- An object with a tag is read if the variant of the tag is read from its other members. -/
theorem Union.exists_ofDraft {ρ : Type} (u : Union ρ) {src : Source} (hsrc : src.room = none)
    {members : List (String × Json)} (hdistinct : (Json.object members).Distinct) {t : String}
    (htag : members.lookup u.tag = some (.string t)) (ht : t ∈ u.variants)
    (hread : ∀ others, (Json.object others).Distinct →
      (∀ name, name ≠ u.tag → others.lookup name = members.lookup name) →
        ∃ a, u.read t (Draft.ofJson (.object others)) = .ok a) :
    ∃ a, u.ofDraft src (Draft.ofJson (.object members)) = .ok a := by
  cases hdistinct with
  | object hkeys hvalues =>
    -- the other members are set aside until the tag is found, wherever it stands
    obtain ⟨front, back, rfl, -⟩ := List.lookup_eq_some_iff.mp htag
    have hkeys' : (u.tag :: (front ++ back).map Prod.fst).Nodup := by
      have hperm : (front ++ (u.tag, Json.string t) :: back).Perm
          ((u.tag, Json.string t) :: (front ++ back)) := List.perm_middle
      exact ((hperm.map Prod.fst).nodup_iff).mp hkeys
    rw [List.nodup_cons] at hkeys'
    have hothers : ∀ m ∈ front ++ back, m.2.Distinct := by
      intro m hm
      refine hvalues m ?_
      rw [List.mem_append] at hm ⊢
      exact hm.imp_right (List.mem_cons_of_mem _)
    have hname : ∀ m ∈ front ++ back, m.1 ≠ u.tag := by
      rintro m hm heq
      exact hkeys'.1 (List.mem_map.mpr ⟨m, hm, heq⟩)
    rw [u.ofDraft_ofJson front back (Source.enter_of_room_none hsrc) ht hname
      fun m hm => by rw [hsrc]; exact Draft.settle_of_distinct (hothers m hm)]
    refine hread _ (.object hkeys'.2 hothers) ?_
    intro name hne
    rw [List.lookup_append, List.lookup_append, List.lookup_cons, beq_eq_false_iff_ne.mpr hne]

namespace Schema

theorem countAdmitting_eq (ss : List Schema) (j : Json) :
    countAdmitting ss j = ss.countP (·.admits j) := by
  induction ss with
  | nil => rfl
  | cons s ss ih =>
    rw [countAdmitting, ih, List.countP_cons, Nat.add_comm]
    cases s.admits j <;> rfl

theorem isText_iff {j : Json} {v : String} : j.isText (.string v) = true ↔ j = .string v := by
  cases j <;> simp [Json.isText]

/-- A tagged object has the tag and the members of its kind. -/
theorem admits_tagged_iff {k : Kind} {text : String} {ms : List (String × Bool × Schema)}
    {j : Json} : (tagged k text ms).admits j = true ↔ ∃ members, j = .object members ∧
      members.lookup kindTag = some (.string k.name) ∧ admitsMembers ms members = true := by
  cases j with
  | object members =>
    simp only [tagged, admits, admitsMembers, Bool.and_eq_true, Json.object.injEq,
      exists_eq_left', kindTag]
    cases members.lookup "type" with
    | none => simp
    | some v => simp [isText_iff]
  | null | bool | number | string | array => simp [tagged, admits]

/-- Tagged objects are admitted by the members of the kind that their tag names. -/
theorem admits_choices_iff {text : Kind → String} {choice : Kind → List (String × Bool × Schema)}
    {j : Json} : (oneOf (Kind.all.map fun k => tagged k (text k) (choice k))).admits j = true ↔
      ∃ k members, j = .object members ∧ members.lookup kindTag = some (.string k.name) ∧
        admitsMembers (choice k) members = true := by
  rw [admits, countAdmitting_eq, List.countP_map, beq_iff_eq]
  constructor
  · intro h
    obtain ⟨k, -, hk⟩ := List.countP_pos_iff.mp (by rw [h]; exact Nat.one_pos)
    have hk : (tagged k (text k) (choice k)).admits j = true := hk
    exact ⟨k, admits_tagged_iff.mp hk⟩
  · rintro ⟨k, members, rfl, htag, hmembers⟩
    -- no other kind has the tag
    have honly : ∀ k',
        (tagged k' (text k') (choice k')).admits (.object members) = true ↔ k' = k := by
      intro k'
      rw [admits_tagged_iff]
      constructor
      · rintro ⟨members', heq, htag', -⟩
        rw [← Json.object.inj heq, htag] at htag'
        have hname : k.name = k'.name := by simpa using htag'
        have hfound := congrArg Kind.ofName? hname
        rw [Kind.ofName?_name, Kind.ofName?_name] at hfound
        exact (Option.some.inj hfound).symm
      · rintro rfl
        exact ⟨members, rfl, htag, hmembers⟩
    have hcount : Kind.all.countP (· = k) = 1 := by cases k <;> rfl
    rw [← hcount]
    refine List.countP_congr ?_
    intro k' _
    simpa using honly k'

end Schema

/-- A union whose variants are records that fit is read from every admitted tagged object. -/
theorem Union.exists_of_admits {ρ : Type} (u : Union ρ) (htag : u.tag = kindTag)
    (hvariants : u.variants = Kind.names) {text : Kind → String}
    {choice : Kind → List (String × Bool × Schema)} (hchoice : ∀ k, ∀ m ∈ choice k, m.1 ≠ kindTag)
    (hfits : ∀ k, ∃ (σ : Type) (r : Record σ ρ) (given : σ → String → Bool),
      u.read k.name = r.read .buffer ∧ r.Fits .buffer (choice k) given)
    {j : Json} (hj : j.Distinct)
    (hadmits : (Schema.oneOf
      (Kind.all.map fun k => .tagged k (text k) (choice k))).admits j = true)
    {src : Source} (hsrc : src.room = none) : ∃ a, u.ofDraft src (Draft.ofJson j) = .ok a := by
  obtain ⟨k, members, rfl, hlookup, hmembers⟩ := Schema.admits_choices_iff.mp hadmits
  obtain ⟨σ, r, given, hread, hr⟩ := hfits k
  refine u.exists_ofDraft hsrc hj (by rw [htag]; exact hlookup)
    (by rw [hvariants]; exact k.name_mem_names) ?_
  intro others hothers hsame
  rw [hread]
  refine hr.exists_read rfl hothers ?_
  rw [← hmembers]
  refine Schema.admitsMembers_congr ?_
  intro m hm
  exact hsame m.1 (by rw [htag]; exact hchoice k m hm)

end MuxBridge
