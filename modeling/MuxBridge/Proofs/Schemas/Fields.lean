/-
# Records, field by field

A record is read from an object by its fields: each of them takes the value of the member that has
its name, wherever the member stands, and members of other names are passed over. So what is read
depends on nothing but the members that the fields are looked up under; the same holds of unions
once their tag is looked up.

* `Record.MadeOf`: the fields of which a record is made;
* `Record.MadeOf.read_object_iff`: when a record is read from an object, and as what;
* `Union.ofDraft_object_iff`: when a union is read from an object, and as what.
-/
import Mathlib.Data.List.Nodup
import MuxBridge.Proofs.Schemas.Admission

namespace MuxBridge

/-! ## Plain values -/

namespace Draft

variable {α : Type} {j : Json}

/-- What is not expected is not read. -/
theorem unexpected_ne_ok (d : Draft) (expected : String) (a : α) :
    d.unexpected expected ≠ .ok a := by
  unfold unexpected
  cases d.found <;> simp

theorem readText_iff {t : String} : (ofJson j).readText = .ok t ↔ j = .string t := by
  cases j with
  | string s =>
    simp only [ofJson, readText, Except.ok.injEq, Json.string.injEq]
  | null | bool | number | array | object =>
    simp only [ofJson, readText, unexpected_ne_ok, reduceCtorEq]

theorem readFlag_iff {b : Bool} : (ofJson j).readFlag = .ok b ↔ j = .bool b := by
  cases j with
  | bool c => simp only [ofJson, readFlag, Except.ok.injEq, Json.bool.injEq]
  | null | string | number | array | object =>
    simp only [ofJson, readFlag, unexpected_ne_ok, reduceCtorEq]

theorem readVariant_iff {known : List String} {t : String} :
    (ofJson j).readVariant known = .ok t ↔ j = .string t ∧ t ∈ known := by
  cases j with
  | string s =>
    simp only [ofJson, readVariant, Json.string.injEq]
    by_cases hs : s ∈ known
    · rw [if_pos hs, Except.ok.injEq]
      exact ⟨fun h => ⟨h, h ▸ hs⟩, And.left⟩
    · rw [if_neg hs]
      simp only [reduceCtorEq, false_iff, not_and]
      rintro rfl
      exact hs
  | null | bool | number | array | object =>
    simp only [ofJson, readVariant, unexpected_ne_ok, reduceCtorEq, false_and]

/-- A value that may be null is nothing if it is null, and read as it is otherwise. -/
theorem readOptional_iff {read : Draft → Read α} {o : Option α} :
    (ofJson j).readOptional read = .ok o ↔
      j = .null ∧ o = none ∨ j ≠ .null ∧ ∃ a, read (ofJson j) = .ok a ∧ o = some a := by
  have hread : (Except.map some (read (ofJson j)) : Read (Option α)) = .ok o ↔
      ∃ a, read (ofJson j) = .ok a ∧ o = some a := by
    cases read (ofJson j) with
    | error e => simp [Except.map]
    | ok a => simp [Except.map, eq_comm]
  cases j with
  | null => simp [ofJson, readOptional, eq_comm]
  | bool | number | string | array | object =>
    simp only [ne_eq, reduceCtorEq, not_false_eq_true, true_and, false_and, false_or]
    exact hread

end Draft

theorem Id.read_iff {kind : IdKind} {j : Json} {a : Id kind} :
    Id.read (Draft.ofJson j) = .ok a ↔ j = .string a.text := by
  rw [← Draft.readText_iff, Id.read]
  cases (Draft.ofJson j).readText with
  | error e => simp [Except.map]
  | ok t => exact ⟨fun h => by rw [← Except.ok.inj h], fun h => by rw [Except.ok.inj h]; rfl⟩

/-! ## Fields -/

theorem lookup_eq_none_iff_forall_ne {β : Type} {members : List (String × β)} {name : String} :
    members.lookup name = none ↔ ∀ m ∈ members, m.1 ≠ name := by
  simp only [List.lookup_eq_none_iff, bne_iff_ne, ne_comm]

/-- A field of a record: how its value is read, and where it stands in what is known of the record
in between. -/
structure Field (σ : Type) where
  name : String
  Value : Type
  read : Draft → Read Value
  get : σ → Option Value
  set : σ → Option Value → σ

/-- What a reader makes of a member that may be absent. -/
def ReadsMember {α : Type} (read : Draft → Read α) (member : Option Json) (value : Option α) :
    Prop :=
  match member with
  | none => value = none
  | some j => ∃ a, read (Draft.ofJson j) = .ok a ∧ value = some a

/-- What becomes of a field as the member of its name is put in, if there is one: it must not have
been given before. -/
def Field.Takes {σ : Type} (f : Field σ) (member : Option Json) (s s' : σ) : Prop :=
  match member with
  | none => f.get s' = f.get s
  | some _ => f.get s = none ∧ ReadsMember f.read member (f.get s')

/-- The fields of which a record is made. They stand beside each other and are all that is known of
the record in between. -/
structure Record.MadeOf {σ ρ : Type} (r : Record σ ρ) (src : Source) (fs : List (Field σ)) :
    Prop where
  names : fs.map Field.name = r.fields
  nodup : r.fields.Nodup
  start : ∀ f ∈ fs, f.get r.start = none
  put : ∀ f ∈ fs, ∀ d s,
    r.put src f.name d s = (setOnce f.name (f.get s) (f.read d)).map (f.set s)
  get_set : ∀ f ∈ fs, ∀ s x, f.get (f.set s x) = x
  get_set_of_ne : ∀ f ∈ fs, ∀ f' ∈ fs, f'.name ≠ f.name → ∀ s x, f'.get (f.set s x) = f'.get s
  ext : ∀ s s', (∀ f ∈ fs, f.get s = f.get s') → s = s'

theorem setOnce_eq_ok {α : Type} {name : String} {old : Option α} {read : Read α} {x : Option α} :
    setOnce name old read = .ok x ↔ old = none ∧ ∃ a, read = .ok a ∧ x = some a := by
  cases old with
  | some b => simp [setOnce]
  | none => cases read <;> simp [setOnce, Except.map, eq_comm]

namespace Record.MadeOf

variable {σ ρ : Type} {r : Record σ ρ} {src : Source} {fs : List (Field σ)} {f : Field σ}
  {members : List (String × Json)}

theorem name_mem (h : r.MadeOf src fs) (hf : f ∈ fs) : f.name ∈ r.fields := by
  rw [← h.names]
  exact List.mem_map_of_mem hf

/-- No two fields have the same name. -/
theorem eq_of_name_eq (h : r.MadeOf src fs) {f' : Field σ} (hf : f ∈ fs) (hf' : f' ∈ fs)
    (hname : f'.name = f.name) : f' = f := by
  have hnodup : (fs.map Field.name).Nodup := by
    rw [h.names]
    exact h.nodup
  exact List.inj_on_of_nodup_map hnodup hf' hf hname

/-- A value is put into a field if the field is free and takes the value. -/
theorem put_eq_ok (h : r.MadeOf src fs) (hf : f ∈ fs) {j : Json} {s s' : σ} :
    r.put src f.name (Draft.ofJson j) s = .ok s' ↔
      f.get s = none ∧ ∃ a, f.read (Draft.ofJson j) = .ok a ∧ s' = f.set s (some a) := by
  rw [h.put f hf]
  cases hset : setOnce f.name (f.get s) (f.read (Draft.ofJson j)) with
  | error e =>
    simp only [Except.map, reduceCtorEq, false_iff, not_and, not_exists]
    intro hfree a ha
    cases hset.symm.trans (setOnce_eq_ok.mpr ⟨hfree, a, ha, rfl⟩)
  | ok x =>
    obtain ⟨hfree, a, ha, rfl⟩ := setOnce_eq_ok.mp hset
    simp only [Except.map, Except.ok.injEq]
    constructor
    · rintro rfl
      exact ⟨hfree, a, ha, rfl⟩
    · rintro ⟨-, b, hb, rfl⟩
      rw [Except.ok.inj (ha.symm.trans hb)]

/-- What is put into a field first and what the members that follow do to the fields. -/
theorem takes_cons (h : r.MadeOf src fs) (hf : f ∈ fs) {j : Json} {s s' : σ}
    (hnone : members.lookup f.name = none) :
    (∃ s₁, r.put src f.name (Draft.ofJson j) s = .ok s₁ ∧
        ∀ f' ∈ fs, f'.Takes (members.lookup f'.name) s₁ s') ↔
      ∀ f' ∈ fs, f'.Takes (((f.name, j) :: members).lookup f'.name) s s' := by
  have hself : ((f.name, j) :: members).lookup f.name = some j := List.lookup_cons_self
  have hothers : ∀ f' : Field σ, f'.name ≠ f.name →
      ((f.name, j) :: members).lookup f'.name = members.lookup f'.name := by
    intro f' hne
    rw [List.lookup_cons, beq_eq_false_iff_ne.mpr hne]
  constructor
  · rintro ⟨s₁, hput, htakes⟩ f' hf'
    obtain ⟨hfree, a, ha, rfl⟩ := (h.put_eq_ok hf).mp hput
    have hf'takes := htakes f' hf'
    by_cases hname : f'.name = f.name
    · obtain rfl := h.eq_of_name_eq hf hf' hname
      rw [hnone, Field.Takes, h.get_set f' hf'] at hf'takes
      rw [hself]
      exact ⟨hfree, a, ha, hf'takes⟩
    · rw [hothers f' hname]
      simp only [Field.Takes, h.get_set_of_ne f hf f' hf' hname] at hf'takes ⊢
      exact hf'takes
  · intro htakes
    have hftakes := htakes f hf
    rw [hself] at hftakes
    obtain ⟨hfree, a, ha, hgot⟩ := hftakes
    refine ⟨f.set s (some a), (h.put_eq_ok hf).mpr ⟨hfree, a, ha, rfl⟩, ?_⟩
    intro f' hf'
    have hf'takes := htakes f' hf'
    by_cases hname : f'.name = f.name
    · obtain rfl := h.eq_of_name_eq hf hf' hname
      rw [hnone, Field.Takes, h.get_set f' hf']
      exact hgot
    · rw [hothers f' hname] at hf'takes
      simp only [Field.Takes, h.get_set_of_ne f hf f' hf' hname]
      exact hf'takes

/-- Members are put into the fields of their names, in any order. -/
theorem putMembers_eq_ok (h : r.MadeOf src fs) (hkeys : (members.map Prod.fst).Nodup)
    (hdistinct : ∀ m ∈ members, m.2.Distinct) {s s' : σ} :
    r.putMembers src (Draft.ofMembers members) s = .ok s' ↔
      ∀ f ∈ fs, f.Takes (members.lookup f.name) s s' := by
  induction members generalizing s with
  | nil =>
    simp only [Draft.ofMembers, putMembers, Except.ok.injEq, List.lookup_nil, Field.Takes]
    constructor
    · rintro rfl f -
      rfl
    · intro hsame
      exact h.ext s s' fun f hf => (hsame f hf).symm
  | cons m members ih =>
    obtain ⟨name, j⟩ := m
    rw [List.map_cons, List.nodup_cons] at hkeys
    have hrest := fun s => ih hkeys.2 (fun m hm => hdistinct m (List.mem_cons_of_mem _ hm)) (s := s)
    have hnone : members.lookup name = none :=
      lookup_eq_none_iff_forall_ne.mpr fun m hm heq =>
        hkeys.1 (List.mem_map.mpr ⟨m, hm, heq⟩)
    by_cases hname : name ∈ r.fields
    · rw [← h.names] at hname
      obtain ⟨f, hf, rfl⟩ := List.mem_map.mp hname
      have hfield : f.name ∈ r.fields := h.name_mem hf
      have hcons : r.putMembers src (Draft.ofMembers ((f.name, j) :: members)) s
          = r.put src f.name (Draft.ofJson j) s >>= r.putMembers src (Draft.ofMembers members) := by
        simp only [Draft.ofMembers, putMembers, Draft.name, Read.ofFault, hfield, if_true, bind,
          Except.bind]
      rw [hcons, ← h.takes_cons hf hnone]
      simp only [← hrest]
      cases r.put src f.name (Draft.ofJson j) s with
      | error e => simp [bind, Except.bind]
      | ok s₁ => simp [bind, Except.bind]
    · -- a member that the record does not know is passed over
      have hskip : r.putMembers src (Draft.ofMembers ((name, j) :: members)) s
          = r.putMembers src (Draft.ofMembers members) s := by
        simp only [Draft.ofMembers, putMembers, Draft.name, Read.ofFault, hname, if_false,
          Draft.skip_of_distinct (hdistinct _ List.mem_cons_self), Read.close, bind, Except.bind]
      rw [hskip, hrest]
      refine forall₂_congr fun f hf => ?_
      have hne : f.name ≠ name := by
        rintro rfl
        exact hname (h.name_mem hf)
      rw [List.lookup_cons, beq_eq_false_iff_ne.mpr hne]

/-- **A record is read from an object** by looking its fields up. -/
theorem read_object_iff (h : r.MadeOf src fs) {src' : Source} (henter : src'.enter = .ok src)
    (hdistinct : (Json.object members).Distinct) {a : ρ} :
    r.read src' (Draft.ofJson (.object members)) = .ok a ↔
      ∃ s, (∀ f ∈ fs, ReadsMember f.read (members.lookup f.name) (f.get s)) ∧
        r.finish s = .ok a := by
  cases hdistinct with
  | object hkeys hvalues =>
    have hput : ∀ s, r.putMembers src (Draft.ofMembers members) r.start = .ok s ↔
        ∀ f ∈ fs, f.Takes (members.lookup f.name) r.start s :=
      fun s => h.putMembers_eq_ok hkeys hvalues
    have htakes : ∀ s, (∀ f ∈ fs, f.Takes (members.lookup f.name) r.start s) ↔
        ∀ f ∈ fs, ReadsMember f.read (members.lookup f.name) (f.get s) := by
      intro s
      refine forall₂_congr fun f hf => ?_
      unfold Field.Takes ReadsMember
      split <;> simp [h.start f hf]
    simp only [← htakes, ← hput]
    simp only [Draft.ofJson, read, henter, ofMembers, bind, Except.bind]
    cases r.putMembers src (Draft.ofMembers members) r.start with
    | error e => simp
    | ok s =>
      simp only [Read.close, Except.ok.injEq, exists_eq_left']
      cases r.finish s <;> simp

end Record.MadeOf

/-! ## Unions -/

/-- **A union is read from an object** by looking its tag up, and then from the other members. -/
theorem Union.ofDraft_object_iff {ρ : Type} (u : Union ρ) {src : Source} (hsrc : src.room = none)
    {members : List (String × Json)} (hdistinct : (Json.object members).Distinct) {a : ρ} :
    u.ofDraft src (Draft.ofJson (.object members)) = .ok a ↔
      ∃ t ∈ u.variants, members.lookup u.tag = some (.string t) ∧
        u.read t (Draft.ofJson (.object (members.filter fun m => m.1 ≠ u.tag))) = .ok a := by
  cases hdistinct with
  | object hkeys hvalues =>
    have henter := Source.enter_of_room_none hsrc
    have hsettle : ∀ m ∈ members, (Draft.ofJson m.2).settle src.room = .ok m.2 := by
      intro m hm
      rw [hsrc]
      exact Draft.settle_of_distinct (hvalues m hm)
    cases htag : members.lookup u.tag with
    | none =>
      -- all members are set aside, and no tag is found
      have hname := lookup_eq_none_iff_forall_ne.mp htag
      have hgather := u.gather_ofMembers members none hname hsettle [] []
      rw [List.append_nil] at hgather
      simp [Draft.ofJson, ofDraft, henter, hgather, gather, Read.close, bind, Except.bind]
    | some j =>
      obtain ⟨front, back, rfl, hfront⟩ := List.lookup_eq_some_iff.mp htag
      have hname : ∀ m ∈ front ++ back, m.1 ≠ u.tag := by
        have hperm : (front ++ (u.tag, j) :: back).Perm ((u.tag, j) :: (front ++ back)) :=
          List.perm_middle
        have hkeys' := ((hperm.map Prod.fst).nodup_iff).mp hkeys
        rw [List.map_cons, List.nodup_cons] at hkeys'
        intro m hm heq
        exact hkeys'.1 (List.mem_map.mpr ⟨m, hm, heq⟩)
      have hsettle' : ∀ m ∈ front ++ back, (Draft.ofJson m.2).settle src.room = .ok m.2 := by
        intro m hm
        refine hsettle m ?_
        rw [List.mem_append] at hm ⊢
        exact hm.imp_right (List.mem_cons_of_mem _)
      have hothers : (front ++ (u.tag, j) :: back).filter (fun m => m.1 ≠ u.tag)
          = front ++ back := by
        have hall : (front ++ back).filter (fun m => m.1 ≠ u.tag) = front ++ back := by
          refine List.filter_eq_self.mpr ?_
          intro m hm
          simpa using hname m hm
        rw [← hall, List.filter_append, List.filter_append]
        simp
      simp only [Option.some.injEq, hothers]
      cases hvariant : (Draft.ofJson j).readVariant u.variants with
      | ok t =>
        obtain ⟨rfl, ht⟩ := Draft.readVariant_iff.mp hvariant
        rw [u.ofDraft_ofJson front back henter ht hname hsettle']
        constructor
        · intro h
          exact ⟨t, ht, rfl, h⟩
        · rintro ⟨t', -, heq, h⟩
          rwa [Json.string.inj heq]
      | error e =>
        -- the tag is no name of a variant
        have hgather := u.gather_ofMembers front none
          (fun m hm => hname m (List.mem_append_left _ hm))
          (fun m hm => hsettle' m (List.mem_append_left _ hm))
          (Draft.ofMembers ((u.tag, j) :: back)) []
        rw [← Draft.ofMembers_append] at hgather
        have herror : u.ofDraft src (Draft.ofJson (.object (front ++ (u.tag, j) :: back)))
            = .error e := by
          simp only [Draft.ofJson, ofDraft, henter, hgather, Draft.ofMembers, gather, Draft.name,
            Read.ofFault, if_true, setOnce, hvariant, Except.map, bind, Except.bind]
        rw [herror]
        simp only [reduceCtorEq, false_iff, not_exists, not_and]
        rintro t ht rfl
        cases hvariant.symm.trans (Draft.readVariant_iff.mpr ⟨rfl, ht⟩)

end MuxBridge
