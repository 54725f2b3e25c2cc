/-
# What members spell

Which objects are requests and payloads, said by their members alone: the tag names a kind, and the
kind says which other members there are. Optional members may be absent or null, a list of
connections is empty if it is absent, and a reported connection may be an object or an array of its
two texts.

* `Request.SpelledBy`, `Payload.SpelledBy`: the members that spell a message;
* `Record.madeOf_pair`, `Record.madeOf_single`: records of two fields and of one;
* `Union.readValue_iff`: a union is read as what its members spell;
* `Request.readValue_iff`, `Payload.readValue_iff`: what is read is what is spelled.
-/
import Mathlib.Data.List.Forall2
import MuxBridge.Proofs.Schemas.Fields

namespace MuxBridge

/-! ## What members spell -/

/-- The members of an object under their names. -/
abbrev Members := String → Option Json

/-- The members of a list under their names. -/
abbrev Members.of (members : List (String × Json)) : Members := fun name => members.lookup name

/-- What an optional member spells: nothing if it is absent or null. -/
def Members.SpellsOption (find : Members) (name : String) : Option String → Prop
  | none => find name = none ∨ find name = some .null
  | some t => find name = some (.string t)

/-- A value spells a reported connection: an object with the two texts, or an array of just them. -/
def Entry.SpelledBy (e : Entry) (j : Json) : Prop :=
  (∃ members, j = .object members ∧ (members.map Prod.fst).Nodup ∧
    members.lookup "connection_id" = some (.string e.connection.text) ∧
    members.lookup "owning_session_id" = some (.string e.owner.text)) ∨
  j = .array [.string e.connection.text, .string e.owner.text]

/-- The members beside the tag spell a request. -/
def Request.SpelledBeside (find : Members) : Request → Prop
  | .listConnections => True
  | .sendCommand c text =>
    find "connection_id" = some (.string c.text) ∧ find "command" = some (.string text)
  | .setWindowVisible c w v =>
    find "connection_id" = some (.string c.text) ∧ find "window_id" = some (.string w.text) ∧
      find "visible" = some (.bool v)
  | .createWindow c a =>
    find "connection_id" = some (.string c.text) ∧ find.SpellsOption "affinity" (a.map Id.text)

/-- Members spell a request: the tag names its kind, and the others are those of the kind. -/
def Request.SpelledBy (find : Members) (q : Request) : Prop :=
  find kindTag = some (.string q.kind.name) ∧ q.SpelledBeside find

/-- The members beside the tag spell a payload. -/
def Payload.SpelledBeside (find : Members) : Payload → Prop
  | .listConnections es =>
    find "connections" = none ∧ es = [] ∨
      ∃ items, find "connections" = some (.array items) ∧
        List.Forall₂ (fun j (e : Entry) => e.SpelledBy j) items es
  | .sendCommand o => find.SpellsOption "output" o
  | .setWindowVisible => True
  | .createWindow tab => find "tab_id" = some (.string tab.text)

/-- Members spell a payload: the tag names its kind, and the others are those of the kind. -/
def Payload.SpelledBy (find : Members) (p : Payload) : Prop :=
  find kindTag = some (.string p.kind.name) ∧ p.SpelledBeside find

/-- The members that a request of a kind has beside its tag. -/
def Request.names : Kind → List String
  | .listConnections => []
  | .sendCommand => ["connection_id", "command"]
  | .setWindowVisible => ["connection_id", "window_id", "visible"]
  | .createWindow => ["connection_id", "affinity"]

/-- The members that a payload of a kind has beside its tag. -/
def Payload.names : Kind → List String
  | .listConnections => ["connections"]
  | .sendCommand => ["output"]
  | .setWindowVisible => []
  | .createWindow => ["tab_id"]

/-! ## Members that are read -/

section Members

variable {find : Members} {name : String}

/-- A reader that takes one value for each thing finds a thing in the member that has its value. -/
theorem readsMember_iff {α : Type} {read : Draft → Read α} {value : α → Json}
    (hread : ∀ j a, read (Draft.ofJson j) = .ok a ↔ j = value a) {a : α} :
    ReadsMember read (find name) (some a) ↔ find name = some (value a) := by
  unfold ReadsMember
  cases find name with
  | none => simp
  | some j =>
    simp only [Option.some.injEq, hread]
    constructor
    · rintro ⟨b, hb, rfl⟩
      exact hb
    · exact fun h => ⟨a, h, rfl⟩

theorem readsMember_id {kind : IdKind} {a : Id kind} :
    ReadsMember Id.read (find name) (some a) ↔ find name = some (.string a.text) :=
  readsMember_iff fun _ _ => Id.read_iff

theorem readsMember_text {t : String} :
    ReadsMember Draft.readText (find name) (some t) ↔ find name = some (.string t) :=
  readsMember_iff fun _ _ => Draft.readText_iff

theorem readsMember_flag {b : Bool} :
    ReadsMember Draft.readFlag (find name) (some b) ↔ find name = some (.bool b) :=
  readsMember_iff fun _ _ => Draft.readFlag_iff

/-- A reader of optional members makes nothing of one that is absent or null. -/
theorem readsMember_optional {α : Type} {read : Draft → Read α} {text : α → String}
    (hread : ∀ j a, read (Draft.ofJson j) = .ok a ↔ j = .string (text a)) {o : Option α} :
    (∃ x, ReadsMember (Draft.readOptional read) (find name) x ∧ x.getD none = o) ↔
      find.SpellsOption name (o.map text) := by
  unfold ReadsMember
  cases hfind : find name with
  | none => cases o <;> simp [Members.SpellsOption, hfind]
  | some j =>
    simp only [Draft.readOptional_iff, hread]
    constructor
    · rintro ⟨x, ⟨y, ⟨rfl, rfl⟩ | ⟨-, a, rfl, rfl⟩, rfl⟩, rfl⟩
      · exact .inr hfind
      · exact hfind
    · cases o with
      | none =>
        rintro (h | h)
        · cases hfind.symm.trans h
        · exact ⟨some none, ⟨none, .inl ⟨Option.some.inj (hfind.symm.trans h), rfl⟩, rfl⟩, rfl⟩
      | some a =>
        intro h
        have hj : j = .string (text a) := Option.some.inj (hfind.symm.trans h)
        exact ⟨some (some a), ⟨some a, .inr ⟨by rw [hj]; simp, a, hj, rfl⟩, rfl⟩, rfl⟩

end Members

/-! ## Records -/

theorem Read.bind_pure_eq_map {α β : Type} (x : Read α) (f : α → β) :
    (do return f (← x)) = x.map f := by
  cases x <;> rfl

/-- A record of two fields is made of its fields. -/
theorem Record.madeOf_pair {α β ρ : Type} {r : Record (Option α × Option β) ρ} {src : Source}
    {first second : String} {read : Draft → Read α} {read' : Draft → Read β}
    (hfields : r.fields = [first, second]) (hne : first ≠ second) (hstart : r.start = (none, none))
    (hfirst : ∀ d s, r.put src first d s = do return (← setOnce first s.1 (read d), s.2))
    (hsecond : ∀ d s, r.put src second d s = do return (s.1, ← setOnce second s.2 (read' d))) :
    r.MadeOf src
      [⟨first, α, read, Prod.fst, fun s x => (x, s.2)⟩,
        ⟨second, β, read', Prod.snd, fun s x => (s.1, x)⟩] where
  names := hfields.symm
  nodup := by simp [hfields, hne]
  start := by simp [hstart]
  put := by
    intro f hf d s
    rcases List.mem_pair.mp hf with rfl | rfl
    · exact (hfirst d s).trans (Read.bind_pure_eq_map _ _)
    · exact (hsecond d s).trans (Read.bind_pure_eq_map _ _)
  get_set := by simp
  get_set_of_ne := by simp [hne, hne.symm]
  ext := by
    rintro ⟨a, b⟩ ⟨a', b'⟩ h
    simpa using h

/-- A record of one field is made of it. -/
theorem Record.madeOf_single {α ρ : Type} {r : Record (Option α) ρ} {src : Source} {name : String}
    {read : Draft → Read α} (hfields : r.fields = [name]) (hstart : r.start = none)
    (hput : ∀ d s, r.put src name d s = setOnce name s (read d)) :
    r.MadeOf src [⟨name, α, read, id, fun _ x => x⟩] where
  names := hfields.symm
  nodup := by simp [hfields]
  start := by simp [hstart]
  put := by
    intro f hf d s
    rw [List.mem_singleton.mp hf]
    show r.put src name d s = (setOnce name s (read d)).map fun x => x
    rw [hput]
    cases setOnce name s (read d) <;> rfl
  get_set := by simp
  get_set_of_ne := by simp
  ext := by
    intro s s' h
    simpa using h

/-- A record without fields is made of none. -/
theorem Record.madeOf_unit {ρ : Type} (label : String) (a : ρ) (src : Source) :
    (Record.unit label a).MadeOf src [] where
  names := rfl
  nodup := List.nodup_nil
  start := by simp
  put := by simp
  get_set := by simp
  get_set_of_ne := by simp
  ext := fun _ _ _ => rfl

/-! ## Reported connections -/

namespace Entry

variable {j : Json} {e : Entry}

theorem madeOf (src : Source) : Entry.record.MadeOf src
    [⟨"connection_id", ConnectionId, Id.read, Prod.fst, fun s x => (x, s.2)⟩,
      ⟨"owning_session_id", SessionId, Id.read, Prod.snd, fun s x => (s.1, x)⟩] :=
  Record.madeOf_pair rfl (by decide) rfl (fun _ _ => rfl) fun _ _ => rfl

theorem finish_eq_ok {s : Option ConnectionId × Option SessionId} :
    Entry.record.finish s = .ok e ↔ s = (some e.connection, some e.owner) := by
  obtain ⟨c, o⟩ := s
  cases c with
  | none => simp [record, require, bind, Except.bind]
  | some c =>
    cases o with
    | none => simp [record, require, bind, Except.bind]
    | some o =>
      obtain ⟨c', o'⟩ := e
      simp [record, require, bind, Except.bind, pure, Except.pure]

theorem read_object_iff {members : List (String × Json)}
    (hdistinct : (Json.object members).Distinct) :
    Entry.read .buffer (Draft.ofJson (.object members)) = .ok e ↔
      members.lookup "connection_id" = some (.string e.connection.text) ∧
        members.lookup "owning_session_id" = some (.string e.owner.text) := by
  rw [Entry.read, (madeOf .buffer).read_object_iff rfl hdistinct]
  simp only [finish_eq_ok, exists_eq_right, List.forall_mem_cons, List.not_mem_nil,
    IsEmpty.forall_iff, implies_true, and_true]
  exact and_congr (@readsMember_id (.of members) _ _ _) (@readsMember_id (.of members) _ _ _)

/-- An array is read as a reported connection by its first two items, which must be all. -/
theorem read_array_cons (a b : Json) (rest : List Json) :
    Entry.read .buffer (Draft.ofJson (.array (a :: b :: rest))) = .ok e ↔
      Id.read (Draft.ofJson a) = .ok e.connection ∧ Id.read (Draft.ofJson b) = .ok e.owner ∧
        rest = [] := by
  simp only [Entry.read, Draft.ofJson, Draft.ofItems, Record.read, Source.enter, Record.ofItems,
    bind, Except.bind]
  cases ha : (Id.read (Draft.ofJson a) : Read ConnectionId) with
  | error err => simp [record, Record.putItems, setOnce, ha, bind, Except.bind, Except.map]
  | ok c =>
    cases hb : (Id.read (Draft.ofJson b) : Read SessionId) with
    | error err =>
      simp [record, Record.putItems, setOnce, ha, hb, bind, Except.bind, pure, Except.pure,
        Except.map]
    | ok o =>
      obtain ⟨c', o'⟩ := e
      cases rest with
      | nil =>
        simp [record, Record.putItems, Record.closeItems, Read.close, setOnce, require, ha, hb,
          bind, Except.bind, pure, Except.pure, Except.map, Draft.ofItems]
      | cons x rest =>
        have hlength : ¬(Draft.ofItems rest).length + 1 + 1 + 1 < 2 := by omega
        simp [record, Record.putItems, Record.closeItems, setOnce, require, ha, hb, hlength,
          bind, Except.bind, pure, Except.pure, Except.map, Draft.ofItems]

/-- An array is read as a reported connection if it consists of the two texts. -/
theorem read_array_iff {items : List Json} :
    Entry.read .buffer (Draft.ofJson (.array items)) = .ok e ↔
      items = [.string e.connection.text, .string e.owner.text] := by
  rcases items with _ | ⟨a, _ | ⟨b, rest⟩⟩
  · simp [Entry.read, Record.read, Draft.ofJson, Draft.ofItems, Record.ofItems, Record.putItems,
      Source.enter, Read.close, bind, Except.bind, record, require]
  · cases ha : (Id.read (Draft.ofJson a) : Read ConnectionId) <;>
    simp [Entry.read, Record.read, Draft.ofJson, Draft.ofItems, Record.ofItems, Record.putItems,
      Source.enter, Read.close, bind, Except.bind, pure, Except.pure, record, require, setOnce, ha,
      Except.map]
  · simp only [read_array_cons, Id.read_iff, List.cons.injEq]

/-- What is read as a reported connection is what spells it. -/
theorem read_iff (hj : j.Distinct) :
    Entry.read .buffer (Draft.ofJson j) = .ok e ↔ e.SpelledBy j := by
  cases hj with
  | object hkeys hvalues =>
    rw [read_object_iff (.object hkeys hvalues)]
    simp [SpelledBy, hkeys]
  | array h =>
    rw [read_array_iff]
    simp [SpelledBy]
  | null | bool | number | string =>
    simp [SpelledBy, Entry.read, Record.read, Draft.ofJson, Draft.unexpected_ne_ok]

end Entry

section Lists

variable {α : Type} {read : Draft → Read α} {spells : Json → α → Prop}

/-- Items are read one by one. -/
theorem readItems_iff {items : List Json} {as : List α}
    (hread : ∀ i ∈ items, ∀ a, read (Draft.ofJson i) = .ok a ↔ spells i a) :
    readItems read (Draft.ofItems items) = .ok as ↔ List.Forall₂ spells items as := by
  induction items generalizing as with
  | nil => simp [Draft.ofItems, readItems, eq_comm]
  | cons i items ih =>
    have hrest : ∀ as, readItems read (Draft.ofItems items) = .ok as ↔
        List.Forall₂ spells items as :=
      fun as => ih fun i' hi' => hread i' (List.mem_cons_of_mem _ hi')
    simp only [Draft.ofItems, readItems, Read.bind_eq_ok, hread i List.mem_cons_self, hrest,
      List.forall₂_cons_left_iff]
    constructor
    · rintro ⟨a, ha, as', has', heq⟩
      exact ⟨a, as', ha, has', (Except.ok.inj heq).symm⟩
    · rintro ⟨a, as', ha, has', rfl⟩
      exact ⟨a, ha, as', has', rfl⟩

/-- A list is read from an array. -/
theorem readList_iff {j : Json} {as : List α}
    (hread : ∀ items, j = .array items → ∀ i ∈ items, ∀ a,
      read (Draft.ofJson i) = .ok a ↔ spells i a) :
    readList read (Draft.ofJson j) = .ok as ↔
      ∃ items, j = .array items ∧ List.Forall₂ spells items as := by
  cases j with
  | array items =>
    have hclose : Read.close none = .ok () := rfl
    simp only [Draft.ofJson, readList, Read.bind_eq_ok, readItems_iff (hread items rfl), hclose,
      Json.array.injEq, exists_eq_left']
    constructor
    · rintro ⟨as', has', -, -, heq⟩
      rwa [← Except.ok.inj heq]
    · intro has
      exact ⟨as, has, (), trivial, rfl⟩
  | null | bool | number | string | object =>
    simp [Draft.ofJson, readList, Draft.unexpected_ne_ok]

end Lists

/-! ## Requests -/

namespace Request

variable {members : List (String × Json)} {q : Request}

theorem read_unit_iff (label : String) (hdistinct : (Json.object members).Distinct) :
    (Record.unit label Request.listConnections).read .buffer (Draft.ofJson (.object members))
        = .ok q ↔ q.kind = .listConnections ∧ q.SpelledBeside (.of members) := by
  rw [(Record.madeOf_unit label _ .buffer).read_object_iff rfl hdistinct]
  constructor
  · rintro ⟨_, -, h⟩
    rw [← Except.ok.inj h]
    exact ⟨rfl, trivial⟩
  · rintro ⟨hkind, -⟩
    cases q with
    | listConnections => exact ⟨(), by simp, rfl⟩
    | sendCommand | setWindowVisible | createWindow => cases hkind

theorem read_command_iff (hdistinct : (Json.object members).Distinct) :
    commandRecord.read .buffer (Draft.ofJson (.object members)) = .ok q ↔
      q.kind = .sendCommand ∧ q.SpelledBeside (.of members) := by
  have hmade : commandRecord.MadeOf .buffer _ :=
    Record.madeOf_pair rfl (by decide) rfl (fun _ _ => rfl) fun _ _ => rfl
  have hfinish : ∀ s, commandRecord.finish s = .ok q ↔
      ∃ c text, s = (some c, some text) ∧ q = .sendCommand c text := by
    rintro ⟨_ | c, _ | text⟩ <;>
      simp [commandRecord, require, bind, Except.bind, pure, Except.pure, eq_comm]
  rw [hmade.read_object_iff rfl hdistinct]
  simp only [hfinish, List.forall_mem_cons]
  constructor
  · rintro ⟨-, ⟨hc, htext, -⟩, c, text, rfl, rfl⟩
    exact ⟨rfl, readsMember_id.mp hc, readsMember_text.mp htext⟩
  · rintro ⟨hkind, hq⟩
    cases q with
    | sendCommand c text =>
      obtain ⟨hc, htext⟩ := hq
      exact ⟨_, ⟨readsMember_id.mpr hc, readsMember_text.mpr htext, by simp⟩, c, text, rfl, rfl⟩
    | listConnections | setWindowVisible | createWindow => cases hkind

/-- A change of visibility is made of three fields. -/
theorem madeOf_visibility (src : Source) : visibilityRecord.MadeOf src
    [⟨"connection_id", ConnectionId, Id.read, fun s => s.1, fun s x => (x, s.2)⟩,
      ⟨"window_id", WindowId, Id.read, fun s => s.2.1, fun s x => (s.1, x, s.2.2)⟩,
      ⟨"visible", Bool, Draft.readFlag, fun s => s.2.2, fun s x => (s.1, s.2.1, x)⟩] where
  names := rfl
  nodup := by decide
  start := by simp [visibilityRecord]
  put := by
    intro f hf d s
    simp only [List.mem_cons, List.not_mem_nil, or_false] at hf
    rcases hf with rfl | rfl | rfl
    · exact Read.bind_pure_eq_map _ _
    · exact Read.bind_pure_eq_map _ _
    · exact Read.bind_pure_eq_map _ _
  get_set := by simp
  get_set_of_ne := by simp
  ext := by
    rintro ⟨c, w, v⟩ ⟨c', w', v'⟩ h
    simpa using h

theorem read_visibility_iff (hdistinct : (Json.object members).Distinct) :
    visibilityRecord.read .buffer (Draft.ofJson (.object members)) = .ok q ↔
      q.kind = .setWindowVisible ∧ q.SpelledBeside (.of members) := by
  have hfinish : ∀ s, visibilityRecord.finish s = .ok q ↔
      ∃ c w v, s = (some c, some w, some v) ∧ q = .setWindowVisible c w v := by
    rintro ⟨_ | c, _ | w, _ | v⟩ <;>
      simp [visibilityRecord, require, bind, Except.bind, pure, Except.pure, eq_comm,
        -Bool.exists_bool]
  rw [(madeOf_visibility .buffer).read_object_iff rfl hdistinct]
  simp only [hfinish, List.forall_mem_cons]
  constructor
  · rintro ⟨-, ⟨hc, hw, hv, -⟩, c, w, v, rfl, rfl⟩
    exact ⟨rfl, readsMember_id.mp hc, readsMember_id.mp hw, readsMember_flag.mp hv⟩
  · rintro ⟨hkind, hq⟩
    cases q with
    | setWindowVisible c w v =>
      obtain ⟨hc, hw, hv⟩ := hq
      exact ⟨_, ⟨readsMember_id.mpr hc, readsMember_id.mpr hw, readsMember_flag.mpr hv, by simp⟩,
        c, w, v, rfl, rfl⟩
    | listConnections | sendCommand | createWindow => cases hkind

theorem read_window_iff (hdistinct : (Json.object members).Distinct) :
    windowRecord.read .buffer (Draft.ofJson (.object members)) = .ok q ↔
      q.kind = .createWindow ∧ q.SpelledBeside (.of members) := by
  have hmade : windowRecord.MadeOf .buffer _ :=
    Record.madeOf_pair rfl (by decide) rfl (fun _ _ => rfl) fun _ _ => rfl
  have hfinish : ∀ s, windowRecord.finish s = .ok q ↔
      ∃ c x, s = (some c, x) ∧ q = .createWindow c (x.getD none) := by
    rintro ⟨_ | c, x⟩ <;>
      simp [windowRecord, require, bind, Except.bind, pure, Except.pure, eq_comm]
  have hoption := fun a => @readsMember_optional (.of members) "affinity" _ _ _
    (fun _ _ => @Id.read_iff .window _ _) a
  rw [hmade.read_object_iff rfl hdistinct]
  simp only [hfinish, List.forall_mem_cons]
  constructor
  · rintro ⟨-, ⟨hc, hx, -⟩, c, x, rfl, rfl⟩
    exact ⟨rfl, readsMember_id.mp hc, (hoption _).mp ⟨x, hx, rfl⟩⟩
  · rintro ⟨hkind, hq⟩
    cases q with
    | createWindow c a =>
      obtain ⟨hc, ha⟩ := hq
      obtain ⟨x, hx, rfl⟩ := (hoption a).mpr ha
      exact ⟨_, ⟨readsMember_id.mpr hc, hx, by simp⟩, c, x, rfl, rfl⟩
    | listConnections | sendCommand | setWindowVisible => cases hkind

end Request

/-! ## Payloads -/

namespace Payload

variable {members : List (String × Json)} {p : Payload}

theorem read_unit_iff (label : String) (hdistinct : (Json.object members).Distinct) :
    (Record.unit label Payload.setWindowVisible).read .buffer (Draft.ofJson (.object members))
        = .ok p ↔ p.kind = .setWindowVisible ∧ p.SpelledBeside (.of members) := by
  rw [(Record.madeOf_unit label _ .buffer).read_object_iff rfl hdistinct]
  constructor
  · rintro ⟨_, -, h⟩
    rw [← Except.ok.inj h]
    exact ⟨rfl, trivial⟩
  · rintro ⟨hkind, -⟩
    cases p with
    | setWindowVisible => exact ⟨(), by simp, rfl⟩
    | listConnections | sendCommand | createWindow => cases hkind

theorem read_tab_iff (hdistinct : (Json.object members).Distinct) :
    tabRecord.read .buffer (Draft.ofJson (.object members)) = .ok p ↔
      p.kind = .createWindow ∧ p.SpelledBeside (.of members) := by
  have hmade : tabRecord.MadeOf .buffer _ := Record.madeOf_single rfl rfl fun _ _ => rfl
  have hfinish : ∀ s, tabRecord.finish s = .ok p ↔ ∃ tab, s = some tab ∧ p = .createWindow tab := by
    rintro (_ | tab) <;>
      simp [tabRecord, require, bind, Except.bind, pure, Except.pure, eq_comm]
  rw [hmade.read_object_iff rfl hdistinct]
  simp only [hfinish, List.forall_mem_cons]
  constructor
  · rintro ⟨-, ⟨htab, -⟩, tab, rfl, rfl⟩
    exact ⟨rfl, readsMember_id.mp htab⟩
  · rintro ⟨hkind, htab⟩
    cases p with
    | createWindow tab => exact ⟨_, ⟨readsMember_id.mpr htab, by simp⟩, tab, rfl, rfl⟩
    | listConnections | sendCommand | setWindowVisible => cases hkind

theorem read_output_iff (hdistinct : (Json.object members).Distinct) :
    outputRecord.read .buffer (Draft.ofJson (.object members)) = .ok p ↔
      p.kind = .sendCommand ∧ p.SpelledBeside (.of members) := by
  have hmade : outputRecord.MadeOf .buffer _ := Record.madeOf_single rfl rfl fun _ _ => rfl
  have hoption := fun o => @readsMember_optional (.of members) "output" _ _ id
    (fun _ _ => Draft.readText_iff) o
  rw [hmade.read_object_iff rfl hdistinct]
  simp only [List.forall_mem_cons]
  constructor
  · rintro ⟨x, ⟨hx, -⟩, h⟩
    rw [← Except.ok.inj h]
    refine ⟨rfl, ?_⟩
    have hspells := (hoption _).mp ⟨x, hx, rfl⟩
    rwa [Option.map_id_fun, id] at hspells
  · rintro ⟨hkind, ho⟩
    cases p with
    | sendCommand o =>
      obtain ⟨x, hx, rfl⟩ := (hoption o).mpr (by rw [Option.map_id_fun, id]; exact ho)
      exact ⟨x, ⟨hx, by simp⟩, rfl⟩
    | listConnections | setWindowVisible | createWindow => cases hkind

theorem read_list_iff (hdistinct : (Json.object members).Distinct) :
    listRecord.read .buffer (Draft.ofJson (.object members)) = .ok p ↔
      p.kind = .listConnections ∧ p.SpelledBeside (.of members) := by
  have hmade : listRecord.MadeOf .buffer _ := Record.madeOf_single rfl rfl fun _ _ => rfl
  have hlist : ∀ j, members.lookup "connections" = some j → ∀ es,
      readList (Entry.read .buffer) (Draft.ofJson j) = .ok es ↔
        ∃ items, j = .array items ∧ List.Forall₂ (fun j (e : Entry) => e.SpelledBy j) items es := by
    intro j hj es
    refine readList_iff ?_
    rintro items rfl i hi e
    cases hdistinct with
    | object hkeys hvalues =>
      cases hvalues _ ((lookup_eq_some_iff_mem hkeys).mp hj) with
      | array h => exact Entry.read_iff (h i hi)
  rw [hmade.read_object_iff rfl hdistinct]
  simp only [List.forall_mem_cons]
  constructor
  · rintro ⟨x, ⟨hx, -⟩, h⟩
    rw [← Except.ok.inj h]
    refine ⟨rfl, ?_⟩
    unfold ReadsMember at hx
    split at hx
    · next hnone =>
      obtain rfl : x = none := hx
      exact .inl ⟨hnone, rfl⟩
    · next j hj =>
      obtain ⟨es, hes, hx⟩ := hx
      obtain rfl : x = some es := hx
      obtain ⟨items, rfl, hitems⟩ := (hlist j hj es).mp hes
      exact .inr ⟨items, hj, hitems⟩
  · rintro ⟨hkind, hp⟩
    cases p with
    | listConnections es =>
      rcases hp with ⟨hnone, rfl⟩ | ⟨items, hj, hitems⟩
      · have hx : ReadsMember (readList (Entry.read .buffer)) (members.lookup "connections")
            none := by
          rw [show members.lookup "connections" = none from hnone]
          rfl
        exact ⟨none, ⟨hx, by simp⟩, rfl⟩
      · have hx : ReadsMember (readList (Entry.read .buffer)) (members.lookup "connections")
            (some es) := by
          have hes := (hlist _ hj es).mpr ⟨items, rfl, hitems⟩
          rw [show members.lookup "connections" = some (.array items) from hj]
          exact ⟨es, hes, rfl⟩
        exact ⟨some es, ⟨hx, by simp⟩, rfl⟩
    | sendCommand | setWindowVisible | createWindow => cases hkind

end Payload

/-! ## Unions -/

/-- The members beside the tag. -/
def besideTag (members : List (String × Json)) : List (String × Json) :=
  members.filter fun m => m.1 ≠ kindTag

theorem lookup_besideTag (members : List (String × Json)) {name : String} (hname : name ≠ kindTag) :
    (besideTag members).lookup name = members.lookup name := by
  induction members with
  | nil => rfl
  | cons m members ih =>
    obtain ⟨n, j⟩ := m
    by_cases hn : n = kindTag
    · subst hn
      rw [besideTag, List.filter_cons_of_neg (by simp), List.lookup_cons,
        beq_eq_false_iff_ne.mpr hname]
      exact ih
    · rw [besideTag, List.filter_cons_of_pos (by simpa using hn), List.lookup_cons,
        List.lookup_cons]
      split
      · rfl
      · exact ih

theorem distinct_besideTag {members : List (String × Json)} (h : (Json.object members).Distinct) :
    (Json.object (besideTag members)).Distinct := by
  cases h with
  | object hkeys hvalues =>
    exact .object (hkeys.sublist (List.filter_sublist.map _))
      fun m hm => hvalues m (List.mem_of_mem_filter hm)

/-- **A union is read as what its members spell** if every kind of it is read as what the members
beside the tag spell. -/
theorem Union.readValue_iff {ρ : Type} (u : Union ρ) (htag : u.tag = kindTag)
    (hvariants : u.variants = Kind.names) {kind : ρ → Kind} {beside : Members → ρ → Prop}
    (names : Kind → List String) (hnames : ∀ k, ∀ name ∈ names k, name ≠ kindTag)
    (hcongr : ∀ (find find' : Members) a, (∀ name ∈ names (kind a), find' name = find name) →
      (beside find' a ↔ beside find a))
    (hread : ∀ (k : Kind) (members : List (String × Json)), (Json.object members).Distinct → ∀ a,
      u.read k.name (Draft.ofJson (.object members)) = .ok a ↔ kind a = k ∧ beside (.of members) a)
    {members : List (String × Json)} (hdistinct : (Json.object members).Distinct) {a : ρ} :
    Json.readValue u.ofDraft (.object members) = .ok a ↔
      members.lookup kindTag = some (.string (kind a).name) ∧ beside (.of members) a := by
  have hbeside : beside (.of (besideTag members)) a ↔ beside (.of members) a :=
    hcongr _ _ a fun name hname => lookup_besideTag members (hnames _ name hname)
  have hread := fun k => hread k _ (distinct_besideTag hdistinct) a
  simp only [hbeside] at hread
  rw [Json.readValue, u.ofDraft_object_iff rfl hdistinct, htag, hvariants]
  constructor
  · rintro ⟨t, ht, hlookup, h⟩
    obtain ⟨k, -, rfl⟩ := List.mem_map.mp ht
    obtain ⟨rfl, ha⟩ := (hread k).mp h
    exact ⟨hlookup, ha⟩
  · rintro ⟨hlookup, ha⟩
    exact ⟨(kind a).name, (kind a).name_mem_names, hlookup, (hread _).mpr ⟨rfl, ha⟩⟩

namespace Request

/-- Only the members of its kind spell a request. -/
theorem spelledBeside_congr (find find' : Members) (q : Request)
    (h : ∀ name ∈ names q.kind, find' name = find name) :
    q.SpelledBeside find' ↔ q.SpelledBeside find := by
  cases q <;> simp_all [names, kind, SpelledBeside, Members.SpellsOption]

/-- What is read as a request is what spells it. -/
theorem readValue_iff {members : List (String × Json)} (hdistinct : (Json.object members).Distinct)
    {q : Request} :
    Json.readValue Request.read (.object members) = .ok q ↔ q.SpelledBy (.of members) := by
  refine union.readValue_iff rfl rfl names ?_ spelledBeside_congr ?_ hdistinct
  · intro k
    cases k <;> simp [names, kindTag]
  · intro k members hdistinct q
    cases k with
    | listConnections => exact read_unit_iff _ hdistinct
    | sendCommand => exact read_command_iff hdistinct
    | setWindowVisible => exact read_visibility_iff hdistinct
    | createWindow => exact read_window_iff hdistinct

end Request

namespace Payload

/-- Only the members of its kind spell a payload. -/
theorem spelledBeside_congr (find find' : Members) (p : Payload)
    (h : ∀ name ∈ names p.kind, find' name = find name) :
    p.SpelledBeside find' ↔ p.SpelledBeside find := by
  cases p <;> simp_all [names, kind, SpelledBeside, Members.SpellsOption]

/-- What is read as a payload is what spells it. -/
theorem readValue_iff {members : List (String × Json)} (hdistinct : (Json.object members).Distinct)
    {p : Payload} :
    Json.readValue Payload.read (.object members) = .ok p ↔ p.SpelledBy (.of members) := by
  refine union.readValue_iff rfl rfl names ?_ spelledBeside_congr ?_ hdistinct
  · intro k
    cases k <;> simp [names, kindTag]
  · intro k members hdistinct p
    cases k with
    | listConnections => exact read_list_iff hdistinct
    | sendCommand => exact read_output_iff hdistinct
    | setWindowVisible => exact read_unit_iff _ hdistinct
    | createWindow => exact read_tab_iff hdistinct

end Payload

end MuxBridge
