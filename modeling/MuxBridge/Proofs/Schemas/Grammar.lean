/-
# The grammar of messages

An object is a request or a payload exactly if its tag names a kind and the members of that kind are
what they have to be; which message it is depends on nothing else.

* `Request.Grammar`, `Payload.Grammar`: what the members of a message have to be;
* `FollowsGrammar`: a type of messages is read as its grammar has it;
* `messages_follow_grammar`: the main result.
-/
import MuxBridge.Proofs.Schemas.Spelling

namespace MuxBridge

/-! ## Grammars -/

/-- A member is there and is a text. -/
def Members.HasText (find : Members) (name : String) : Prop := ∃ t, find name = some (.string t)

/-- A member is absent, null, or a text. -/
def Members.MayHaveText (find : Members) (name : String) : Prop :=
  find name = none ∨ find name = some .null ∨ find.HasText name

/-- What the members of a request have to be, by its kind. -/
def Request.Grammar (find : Members) : Prop :=
  ∃ k : Kind, find kindTag = some (.string k.name) ∧
    match k with
    | .listConnections => True
    | .sendCommand => find.HasText "connection_id" ∧ find.HasText "command"
    | .setWindowVisible =>
      find.HasText "connection_id" ∧ find.HasText "window_id" ∧
        ∃ b, find "visible" = some (.bool b)
    | .createWindow => find.HasText "connection_id" ∧ find.MayHaveText "affinity"

/-- What the members of a payload have to be, by its kind. -/
def Payload.Grammar (find : Members) : Prop :=
  ∃ k : Kind, find kindTag = some (.string k.name) ∧
    match k with
    | .listConnections =>
      find "connections" = none ∨
        ∃ items, find "connections" = some (.array items) ∧
          ∀ j ∈ items, ∃ e : Entry, e.SpelledBy j
    | .sendCommand => find.MayHaveText "output"
    | .setWindowVisible => True
    | .createWindow => find.HasText "tab_id"

/-- A member that may be a text is one that spells something. -/
theorem Members.mayHaveText_iff {find : Members} {name : String} :
    find.MayHaveText name ↔ ∃ o, find.SpellsOption name o := by
  constructor
  · rintro (h | h | ⟨t, h⟩)
    · exact ⟨none, .inl h⟩
    · exact ⟨none, .inr h⟩
    · exact ⟨some t, h⟩
  · rintro ⟨_ | t, h⟩
    · exact h.imp_right .inl
    · exact .inr (.inr ⟨t, h⟩)

theorem Request.grammar_iff {find : Members} :
    Request.Grammar find ↔ ∃ q : Request, q.SpelledBy find := by
  constructor
  · rintro ⟨k, htag, h⟩
    cases k with
    | listConnections => exact ⟨.listConnections, htag, trivial⟩
    | sendCommand =>
      obtain ⟨⟨c, hc⟩, text, htext⟩ := h
      exact ⟨.sendCommand ⟨c⟩ text, htag, hc, htext⟩
    | setWindowVisible =>
      obtain ⟨⟨c, hc⟩, ⟨w, hw⟩, v, hv⟩ := h
      exact ⟨.setWindowVisible ⟨c⟩ ⟨w⟩ v, htag, hc, hw, hv⟩
    | createWindow =>
      obtain ⟨⟨c, hc⟩, ha⟩ := h
      obtain ⟨a, ha⟩ := Members.mayHaveText_iff.mp ha
      refine ⟨.createWindow ⟨c⟩ (a.map Id.mk), htag, hc, ?_⟩
      rw [Option.map_map]
      cases a <;> exact ha
  · rintro ⟨q, htag, h⟩
    refine ⟨q.kind, htag, ?_⟩
    cases q with
    | listConnections => trivial
    | sendCommand c text => exact ⟨⟨_, h.1⟩, _, h.2⟩
    | setWindowVisible c w v => exact ⟨⟨_, h.1⟩, ⟨_, h.2.1⟩, _, h.2.2⟩
    | createWindow c a => exact ⟨⟨_, h.1⟩, Members.mayHaveText_iff.mpr ⟨_, h.2⟩⟩

/-- What spells one thing each spells a list of them. -/
theorem exists_forall₂_iff {α β : Type} {R : α → β → Prop} {as : List α} :
    (∃ bs, List.Forall₂ R as bs) ↔ ∀ a ∈ as, ∃ b, R a b := by
  induction as with
  | nil => simp
  | cons a as ih =>
    simp only [List.forall₂_cons_left_iff, List.forall_mem_cons, ← ih]
    constructor
    · rintro ⟨-, b, bs, hb, hbs, -⟩
      exact ⟨⟨b, hb⟩, bs, hbs⟩
    · rintro ⟨⟨b, hb⟩, bs, hbs⟩
      exact ⟨b :: bs, b, bs, hb, hbs, rfl⟩

theorem Payload.grammar_iff {find : Members} :
    Payload.Grammar find ↔ ∃ p : Payload, p.SpelledBy find := by
  constructor
  · rintro ⟨k, htag, h⟩
    cases k with
    | listConnections =>
      rcases h with hnone | ⟨items, hitems, hall⟩
      · exact ⟨.listConnections [], htag, .inl ⟨hnone, rfl⟩⟩
      · obtain ⟨es, hes⟩ := exists_forall₂_iff.mpr hall
        exact ⟨.listConnections es, htag, .inr ⟨items, hitems, hes⟩⟩
    | sendCommand =>
      obtain ⟨o, ho⟩ := Members.mayHaveText_iff.mp h
      exact ⟨.sendCommand o, htag, ho⟩
    | setWindowVisible => exact ⟨.setWindowVisible, htag, trivial⟩
    | createWindow =>
      obtain ⟨tab, htab⟩ := h
      exact ⟨.createWindow ⟨tab⟩, htag, htab⟩
  · rintro ⟨p, htag, h⟩
    refine ⟨p.kind, htag, ?_⟩
    cases p with
    | listConnections es =>
      rcases h with ⟨hnone, -⟩ | ⟨items, hitems, hes⟩
      · exact .inl hnone
      · exact .inr ⟨items, hitems, exists_forall₂_iff.mp ⟨es, hes⟩⟩
    | sendCommand o => exact Members.mayHaveText_iff.mpr ⟨o, h⟩
    | setWindowVisible => trivial
    | createWindow tab => exact ⟨_, h⟩

/-! ## The main result -/

/-- How a type of messages is read from an object with these members. -/
structure FollowsGrammar {α : Type} (read : Source → Draft → Read α) (grammar : Members → Prop)
    (spelledBy : Members → α → Prop) (names : Kind → List String) (members : List (String × Json)) :
    Prop where
  /-- It is read if its members are as the grammar has them. -/
  accepts : (∃ a, Json.readValue read (.object members) = .ok a) ↔ grammar (.of members)
  /-- It is read as what its members spell. -/
  spells : ∀ a, Json.readValue read (.object members) = .ok a ↔ spelledBy (.of members) a
  /-- The order of the members does not matter. -/
  order : ∀ others : List (String × Json), others.Perm members → ∀ a,
    Json.readValue read (.object others) = .ok a ↔ Json.readValue read (.object members) = .ok a
  /-- Members other than the tag and those of its kind do not matter. -/
  others : ∀ others : List (String × Json), (Json.object others).Distinct →
    others.lookup kindTag = members.lookup kindTag →
    (∀ k : Kind, members.lookup kindTag = some (.string k.name) →
      ∀ name ∈ names k, others.lookup name = members.lookup name) →
    ∀ a, Json.readValue read (.object others) = .ok a ↔
      Json.readValue read (.object members) = .ok a

theorem Json.Distinct.perm {members others : List (String × Json)}
    (h : (Json.object members).Distinct) (hperm : others.Perm members) :
    (Json.object others).Distinct ∧ ∀ name, others.lookup name = members.lookup name := by
  cases h with
  | object hkeys hvalues =>
    have hkeys' := ((hperm.map Prod.fst).nodup_iff).mpr hkeys
    refine ⟨.object hkeys' fun m hm => hvalues m (hperm.mem_iff.mp hm), ?_⟩
    intro name
    refine Option.ext fun j => ?_
    rw [lookup_eq_some_iff_mem hkeys', lookup_eq_some_iff_mem hkeys, hperm.mem_iff]

/-- A type of messages follows its grammar if it is read as what its members spell, which only the
tag and the members of a kind have a part in. -/
theorem followsGrammar_of_readValue_iff {α : Type} {read : Source → Draft → Read α}
    {grammar : Members → Prop} {beside : Members → α → Prop} {kind : α → Kind}
    {names : Kind → List String}
    (hread : ∀ members : List (String × Json), (Json.object members).Distinct → ∀ a,
      Json.readValue read (.object members) = .ok a ↔
        members.lookup kindTag = some (.string (kind a).name) ∧ beside (.of members) a)
    (hgrammar : ∀ find : Members, grammar find ↔
      ∃ a, find kindTag = some (.string (kind a).name) ∧ beside find a)
    (hcongr : ∀ (find find' : Members) a, (∀ name ∈ names (kind a), find' name = find name) →
      (beside find' a ↔ beside find a))
    {members : List (String × Json)} (hdistinct : (Json.object members).Distinct) :
    FollowsGrammar read grammar
      (fun find a => find kindTag = some (.string (kind a).name) ∧ beside find a) names
      members := by
  have hothers : ∀ others : List (String × Json), (Json.object others).Distinct →
      others.lookup kindTag = members.lookup kindTag →
      (∀ k : Kind, members.lookup kindTag = some (.string k.name) →
        ∀ name ∈ names k, others.lookup name = members.lookup name) →
      ∀ a, Json.readValue read (.object others) = .ok a ↔
        Json.readValue read (.object members) = .ok a := by
    intro others hdistinct' htag hnames a
    rw [hread others hdistinct', hread members hdistinct, htag]
    exact and_congr_right fun hkind => hcongr (.of members) (.of others) a (hnames _ hkind)
  refine ⟨?_, hread members hdistinct, ?_, hothers⟩
  · rw [hgrammar]
    exact exists_congr fun a => hread members hdistinct a
  · intro others hperm
    obtain ⟨hdistinct', hlookup⟩ := hdistinct.perm hperm
    exact hothers others hdistinct' (hlookup _) fun _ _ name _ => hlookup name

/-- **Messages follow their grammar.** An object that names no member twice is read as a request, or
as a payload, exactly if its tag names a kind and the members of that kind are what they have to be;
it is read as the message that these members spell; and neither the order of its members nor any
others of them matter. -/
theorem messages_follow_grammar {members : List (String × Json)}
    (hdistinct : (Json.object members).Distinct) :
    FollowsGrammar Request.read Request.Grammar (fun find q => q.SpelledBy find) Request.names
        members ∧
      FollowsGrammar Payload.read Payload.Grammar (fun find p => p.SpelledBy find) Payload.names
        members :=
  ⟨followsGrammar_of_readValue_iff (fun _ h _ => Request.readValue_iff h)
      (fun _ => Request.grammar_iff) Request.spelledBeside_congr hdistinct,
    followsGrammar_of_readValue_iff (fun _ h _ => Payload.readValue_iff h)
      (fun _ => Payload.grammar_iff) Payload.spelledBeside_congr hdistinct⟩

/-- Two reported connections, one as an array and one as an object in another order and with more to
it. -/
def mixedEntries : List Json :=
  [.array [.string "A", .string "s1"],
    .object [("owning_session_id", .string "s2"), ("note", .null), ("connection_id", .string "B")]]

/-- The members of a list of connections with an unknown member in front and the tag at the end. -/
def tagLast : List (String × Json) :=
  [("visible", .array []), ("connections", .array mixedEntries),
    ("type", .string "list_connections")]

/-- The tag may come last, entries may be written in both ways, and members that belong to other
kinds may be anything. -/
theorem messages_follow_grammar_tagLast :
    (Json.object tagLast).Distinct ∧ Json.readValue Payload.read (.object tagLast)
      = .ok (.listConnections [⟨⟨"A"⟩, ⟨"s1"⟩⟩, ⟨⟨"B"⟩, ⟨"s2"⟩⟩]) := by
  have hentries : ∀ j ∈ mixedEntries, j.Distinct := by
    intro j hj
    rcases List.mem_pair.mp hj with rfl | rfl
    · exact .array (by simp [Json.Distinct.string])
    · exact .object (by decide) (by simp [Json.Distinct.string, Json.Distinct.null])
  have hdistinct : (Json.object tagLast).Distinct := by
    refine .object (by decide) ?_
    intro m hm
    simp only [tagLast, List.mem_cons, List.not_mem_nil, or_false] at hm
    rcases hm with rfl | rfl | rfl
    · exact .array (by simp)
    · exact .array hentries
    · exact .string _
  refine ⟨hdistinct, ((messages_follow_grammar hdistinct).2.spells _).mpr ⟨rfl, .inr ⟨_, rfl, ?_⟩⟩⟩
  exact .cons (.inr rfl) (.cons (.inl ⟨_, rfl, by decide, rfl, rfl⟩) .nil)

end MuxBridge
