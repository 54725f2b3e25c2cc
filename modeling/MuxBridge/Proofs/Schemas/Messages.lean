/-
# Messages and their published schemas

The published schema of every type of message agrees with its codec: whatever is written meets the
schema, and whatever meets the schema can be read.

* `Schema.Agrees`: a schema agrees with a way of writing and reading values;
* one agreement for each type of message, from those of its parts;
* `MessageType.schema_agrees`: the main result.
-/
import MuxBridge.Message.Coding
import MuxBridge.Proofs.Schemas.Admission

namespace MuxBridge

/-- A schema agrees with a way of writing and reading values: it admits what is written, and what it
admits can be read. -/
structure Schema.Agrees {α : Type} (s : Schema) (toJson : α → Json)
    (read : Source → Draft → Read α) : Prop where
  writes : ∀ a, s.admits (toJson a) = true
  reads : ∀ j : Json, j.Distinct → s.admits j = true → ∀ src : Source, src.room = none →
    ∃ a, read src (Draft.ofJson j) = .ok a

/-! ## Plain values -/

theorem Json.hasType_string {j : Json} : j.hasType "string" = true ↔ ∃ t, j = .string t := by
  cases j with
  | number n => cases n <;> simp [hasType]
  | null | bool | string | array | object => simp [hasType]

theorem Json.hasType_boolean {j : Json} : j.hasType "boolean" = true ↔ ∃ b, j = .bool b := by
  cases j with
  | number n => cases n <;> simp [hasType]
  | null | bool | string | array | object => simp [hasType]

theorem Json.hasType_null {j : Json} : j.hasType "null" = true ↔ j = .null := by
  cases j with
  | number n => cases n <;> simp [hasType]
  | null | bool | string | array | object => simp [hasType]

theorem Id.admits_iff {kind : IdKind} {j : Json} :
    (Schema.ofIdKind kind).admits j = true ↔ ∃ t, j = .string t := by
  cases kind <;> exact Json.hasType_string

theorem Id.agrees (kind : IdKind) :
    (Schema.ofIdKind kind).Agrees (α := Id kind) Id.toJson fun _ => Id.read where
  writes := fun a => Id.admits_iff.mpr ⟨a.text, rfl⟩
  reads := by
    intro j _ hj src _
    obtain ⟨t, rfl⟩ := Id.admits_iff.mp hj
    exact ⟨⟨t⟩, rfl⟩

theorem Status.admits_iff {j : Json} :
    Schema.status.admits j = true ↔ ∃ s : Status, j = .string s.name := by
  have hcount : Schema.status.admits j
      = (Status.all.countP (fun s => j.isText (.string s.name)) == 1) := by
    rw [Schema.status, Schema.admits, Schema.admits, Schema.countAdmitting_eq, List.countP_map]
    rfl
  rw [hcount, beq_iff_eq]
  constructor
  · intro h
    obtain ⟨s, -, hs⟩ := List.countP_pos_iff.mp (by rw [h]; exact Nat.one_pos)
    exact ⟨s, Schema.isText_iff.mp hs⟩
  · rintro ⟨s, rfl⟩
    cases s <;> rfl

theorem Status.agrees : Schema.status.Agrees Status.toJson Status.read where
  writes := fun s => Status.admits_iff.mpr ⟨s, rfl⟩
  reads := by
    intro j _ hj src hsrc
    obtain ⟨s, rfl⟩ := Status.admits_iff.mp hj
    exact ⟨s, Status.readsWritten s src (by simp [Source.Holds, hsrc])⟩

/-! ## Members -/

namespace Schema

variable (name text : String) (s : Schema)

@[simp] theorem name_required : (required name text s).1 = name := rfl

@[simp] theorem name_optional : (optional name text s).1 = name := rfl

@[simp] theorem name_target : target.1 = "connection_id" := rfl

end Schema

/-- A record without fields fits a schema without members. -/
theorem Record.fits_unit {ρ : Type} (label : String) (a : ρ) (src : Source) :
    (Record.unit label a).Fits src [] fun _ _ => false where
  known := by simp [unit]
  start := by simp
  put := by simp
  finish := fun _ _ => ⟨a, rfl⟩

/-! ## Reported connections -/

namespace Entry

/-- The members of a reported connection, as its schema has them. -/
def schemaMembers : List (String × Bool × Schema) :=
  [Schema.required "connection_id" "Connection identifier" (Schema.id .connection),
    Schema.required "owning_session_id" "Session running `tmux -CC`" (Schema.id .session)]

/-- Which fields of a partly read connection have been given. -/
def given (s : Option ConnectionId × Option SessionId) (name : String) : Bool :=
  if name = "connection_id" then s.1.isSome else s.2.isSome

theorem fits (src : Source) : Entry.record.Fits src schemaMembers given where
  known := by simp [record, schemaMembers]
  start := by simp [record, given]
  put := by
    intro m hm _ j _ hj s hs
    obtain ⟨c, o⟩ := s
    simp only [schemaMembers, List.mem_cons, List.not_mem_nil, or_false] at hm
    rcases hm with rfl | rfl
    · obtain ⟨t, rfl⟩ := Id.admits_iff.mp hj
      obtain rfl : c = none := by simpa [given] using hs
      exact ⟨(some ⟨t⟩, o), rfl, rfl, by simp [record, given]⟩
    · obtain ⟨t, rfl⟩ := Id.admits_iff.mp hj
      obtain rfl : o = none := by simpa [given] using hs
      exact ⟨(c, some ⟨t⟩), rfl, rfl, by simp [record, given]⟩
  finish := by
    rintro ⟨c, o⟩ hs
    have hc : c.isSome = true := hs _ (.head _) rfl (by decide)
    have ho : o.isSome = true := hs _ (.tail _ (.head _)) rfl (by decide)
    obtain ⟨c, rfl⟩ := Option.isSome_iff_exists.mp hc
    obtain ⟨o, rfl⟩ := Option.isSome_iff_exists.mp ho
    exact ⟨⟨c, o⟩, rfl⟩

theorem agrees : Schema.entry.Agrees Entry.toJson Entry.read where
  writes := by
    intro e
    simp [Schema.entry, Schema.admits, Schema.admitsMembers, Schema.required, Schema.id, toJson,
      List.lookup_cons, Id.admits_iff, Id.toJson]
  reads := by
    intro j hj hadmits src hsrc
    cases j with
    | object members => exact (fits src).exists_read hsrc hj hadmits
    | null | bool | number | string | array => cases hadmits

end Entry

/-! ## Requests -/

namespace Request

/-- What the schema of requests tells of a kind. -/
def schemaText : Kind → String
  | .listConnections => "Enumerate live tmux integration connections."
  | .sendCommand => "Run a tmux command on a connection."
  | .setWindowVisible => "Show or hide a tmux window."
  | .createWindow => "Open a new tmux window."

/-- The members beside the tag that the schema of requests has for a kind. -/
def schemaMembers : Kind → List (String × Bool × Schema)
  | .listConnections => []
  | .sendCommand =>
    [Schema.target, Schema.required "command" "Command text, e.g. `list-sessions`" .string]
  | .setWindowVisible =>
    [Schema.target, Schema.required "window_id" "tmux window to show or hide" (Schema.id .window),
      Schema.required "visible" "`true` to show, `false` to hide" .boolean]
  | .createWindow =>
    [Schema.target, Schema.optional "affinity"
      "When set, the new tab joins the native window holding this tmux window"
      (.nullable (Schema.id .window))]

theorem schema_eq : Schema.request = .described "A tmux request sent to the host application."
    (.oneOf (Kind.all.map fun k => Schema.tagged k (schemaText k) (schemaMembers k))) := rfl

/-- Which fields of a partly read command have been given. -/
def commandGiven (s : Option ConnectionId × Option String) (name : String) : Bool :=
  if name = "connection_id" then s.1.isSome else s.2.isSome

theorem fits_command : commandRecord.Fits .buffer (schemaMembers .sendCommand) commandGiven where
  known := by simp [commandRecord, schemaMembers]
  start := by simp [commandRecord, commandGiven]
  put := by
    intro m hm _ j _ hj s hs
    obtain ⟨c, text⟩ := s
    simp only [schemaMembers, List.mem_cons, List.not_mem_nil, or_false] at hm
    rcases hm with rfl | rfl
    · obtain ⟨t, rfl⟩ := Id.admits_iff.mp hj
      obtain rfl : c = none := by simpa [commandGiven] using hs
      exact ⟨(some ⟨t⟩, text), rfl, rfl, by simp [commandRecord, commandGiven]⟩
    · obtain ⟨t, rfl⟩ := Json.hasType_string.mp hj
      obtain rfl : text = none := by simpa [commandGiven] using hs
      exact ⟨(c, some t), rfl, rfl, by simp [commandRecord, commandGiven]⟩
  finish := by
    rintro ⟨c, text⟩ hs
    have hc : c.isSome = true := hs _ (.head _) rfl (by decide)
    have htext : text.isSome = true := hs _ (.tail _ (.head _)) rfl (by decide)
    obtain ⟨c, rfl⟩ := Option.isSome_iff_exists.mp hc
    obtain ⟨text, rfl⟩ := Option.isSome_iff_exists.mp htext
    exact ⟨.sendCommand c text, rfl⟩

/-- Which fields of a partly read change of visibility have been given. -/
def visibilityGiven (s : Option ConnectionId × Option WindowId × Option Bool) (name : String) :
    Bool :=
  if name = "connection_id" then s.1.isSome
  else if name = "window_id" then s.2.1.isSome
  else s.2.2.isSome

theorem fits_visibility :
    visibilityRecord.Fits .buffer (schemaMembers .setWindowVisible) visibilityGiven where
  known := by simp [visibilityRecord, schemaMembers]
  start := by simp [visibilityRecord, visibilityGiven]
  put := by
    intro m hm _ j _ hj s hs
    obtain ⟨c, w, v⟩ := s
    simp only [schemaMembers, List.mem_cons, List.not_mem_nil, or_false] at hm
    rcases hm with rfl | rfl | rfl
    · obtain ⟨t, rfl⟩ := Id.admits_iff.mp hj
      obtain rfl : c = none := by simpa [visibilityGiven] using hs
      exact ⟨(some ⟨t⟩, w, v), rfl, rfl, by simp [visibilityRecord, visibilityGiven]⟩
    · obtain ⟨t, rfl⟩ := Id.admits_iff.mp hj
      obtain rfl : w = none := by simpa [visibilityGiven] using hs
      exact ⟨(c, some ⟨t⟩, v), rfl, rfl, by simp [visibilityRecord, visibilityGiven]⟩
    · obtain ⟨b, rfl⟩ := Json.hasType_boolean.mp hj
      obtain rfl : v = none := by simpa [visibilityGiven] using hs
      exact ⟨(c, w, some b), rfl, rfl, by simp [visibilityRecord, visibilityGiven]⟩
  finish := by
    rintro ⟨c, w, v⟩ hs
    have hc : c.isSome = true := hs _ (.head _) rfl (by decide)
    have hw : w.isSome = true := hs _ (.tail _ (.head _)) rfl (by decide)
    have hv : v.isSome = true := hs _ (.tail _ (.tail _ (.head _))) rfl (by decide)
    obtain ⟨c, rfl⟩ := Option.isSome_iff_exists.mp hc
    obtain ⟨w, rfl⟩ := Option.isSome_iff_exists.mp hw
    obtain ⟨v, rfl⟩ := Option.isSome_iff_exists.mp hv
    exact ⟨.setWindowVisible c w v, rfl⟩

/-- Which fields of a partly read request for a window have been given. -/
def windowGiven (s : Option ConnectionId × Option (Option WindowId)) (name : String) : Bool :=
  if name = "connection_id" then s.1.isSome else s.2.isSome

theorem fits_window : windowRecord.Fits .buffer (schemaMembers .createWindow) windowGiven where
  known := by simp [windowRecord, schemaMembers]
  start := by simp [windowRecord, windowGiven]
  put := by
    intro m hm _ j _ hj s hs
    obtain ⟨c, w⟩ := s
    simp only [schemaMembers, List.mem_cons, List.not_mem_nil, or_false] at hm
    rcases hm with rfl | rfl
    · obtain ⟨t, rfl⟩ := Id.admits_iff.mp hj
      obtain rfl : c = none := by simpa [windowGiven] using hs
      exact ⟨(some ⟨t⟩, w), rfl, rfl, by simp [windowRecord, windowGiven]⟩
    · obtain rfl : w = none := by simpa [windowGiven] using hs
      rcases Bool.or_eq_true _ _ |>.mp hj with hid | hnull
      · obtain ⟨t, rfl⟩ := Id.admits_iff.mp hid
        exact ⟨(c, some (some ⟨t⟩)), rfl, rfl, by simp [windowRecord, windowGiven]⟩
      · obtain rfl := Json.hasType_null.mp hnull
        exact ⟨(c, some none), rfl, rfl, by simp [windowRecord, windowGiven]⟩
  finish := by
    rintro ⟨c, w⟩ hs
    have hc : c.isSome = true := hs _ (.head _) rfl (by decide)
    obtain ⟨c, rfl⟩ := Option.isSome_iff_exists.mp hc
    exact ⟨.createWindow c (w.getD none), rfl⟩

/-- The schema of requests admits the objects with a tag and the members of its kind. -/
theorem admits_iff {j : Json} : Schema.request.admits j = true ↔
    ∃ k members, j = .object members ∧ members.lookup kindTag = some (.string k.name) ∧
      Schema.admitsMembers (schemaMembers k) members = true := by
  rw [schema_eq, Schema.admits]
  exact Schema.admits_choices_iff

theorem agrees : Schema.request.Agrees Request.toJson Request.read where
  writes := by
    intro q
    rw [admits_iff]
    cases q with
    | listConnections => exact ⟨.listConnections, _, rfl, rfl, rfl⟩
    | sendCommand c text => exact ⟨.sendCommand, _, rfl, rfl, rfl⟩
    | setWindowVisible c w v => exact ⟨.setWindowVisible, _, rfl, rfl, rfl⟩
    | createWindow c a =>
      cases a with
      | none => exact ⟨.createWindow, _, rfl, rfl, rfl⟩
      | some w => exact ⟨.createWindow, _, rfl, rfl, rfl⟩
  reads := by
    intro j hj hadmits src hsrc
    have hchoices : (Schema.oneOf (Kind.all.map fun k =>
        Schema.tagged k (schemaText k) (schemaMembers k))).admits j = true := hadmits
    refine union.exists_of_admits rfl rfl ?_ ?_ hj hchoices hsrc
    · intro k
      cases k <;> simp [schemaMembers, kindTag]
    · intro k
      cases k with
      | listConnections => exact ⟨Unit, _, _, rfl, Record.fits_unit _ _ _⟩
      | sendCommand => exact ⟨_, _, _, rfl, fits_command⟩
      | setWindowVisible => exact ⟨_, _, _, rfl, fits_visibility⟩
      | createWindow => exact ⟨_, _, _, rfl, fits_window⟩

end Request

/-! ## Payloads -/

/-- A list is read if its items are. -/
theorem exists_readItems {α : Type} {read : Draft → Read α} {items : List Json}
    (h : ∀ j ∈ items, ∃ a, read (Draft.ofJson j) = .ok a) :
    ∃ as, readItems read (Draft.ofItems items) = .ok as := by
  induction items with
  | nil => exact ⟨[], rfl⟩
  | cons j items ih =>
    obtain ⟨a, ha⟩ := h j List.mem_cons_self
    obtain ⟨as, has⟩ := ih fun i hi => h i (List.mem_cons_of_mem _ hi)
    refine ⟨a :: as, ?_⟩
    simp only [Draft.ofItems, readItems, ha, has, bind, Except.bind]
    rfl

namespace Payload

/-- What the schema of payloads tells of a kind. -/
def schemaText : Kind → String
  | .listConnections => "Reply to [`TmuxRequest::ListConnections`]."
  | .sendCommand => "Reply to [`TmuxRequest::SendCommand`]."
  | .setWindowVisible => "Reply to [`TmuxRequest::SetWindowVisible`]."
  | .createWindow => "Reply to [`TmuxRequest::CreateWindow`]."

/-- The members beside the tag that the schema of payloads has for a kind. -/
def schemaMembers : Kind → List (String × Bool × Schema)
  | .listConnections =>
    [Schema.optional "connections" "Connections in the order the host reported them"
      (.defaulted (.array []) (.array (.named "ConnectionEntry" Schema.entry)))]
  | .sendCommand =>
    [Schema.optional "output" "Command output; absent when tmux reported an error" .stringOrNull]
  | .setWindowVisible => []
  | .createWindow =>
    [Schema.required "tab_id" "Tab that now represents the new tmux window" (Schema.id .tab)]

theorem schema_eq : Schema.payload = .described "Request-specific part of a successful response."
    (.oneOf (Kind.all.map fun k => Schema.tagged k (schemaText k) (schemaMembers k))) := rfl

theorem fits_list : listRecord.Fits .buffer (schemaMembers .listConnections)
    fun s _ => s.isSome where
  known := by simp [listRecord, schemaMembers]
  start := by simp [listRecord]
  put := by
    intro m hm _ j hdistinct hj s hs
    obtain rfl : s = none := by simpa using hs
    obtain rfl := List.mem_singleton.mp hm
    cases hdistinct with
    | array hitems =>
      have hreads : ∀ i ∈ _, ∃ e, Entry.read .buffer (Draft.ofJson i) = .ok e := fun i hi =>
        Entry.agrees.reads i (hitems i hi) (List.all_eq_true.mp hj i hi) .buffer rfl
      obtain ⟨es, hes⟩ := exists_readItems hreads
      refine ⟨some es, ?_, rfl, by simp [listRecord]⟩
      refine setOnce_of_ok "connections" ?_
      simp only [Draft.ofJson, readList, hes, bind, Except.bind]
      rfl
    | null | bool | number | string | object => cases hj
  finish := fun s _ => ⟨.listConnections (s.getD []), rfl⟩

theorem fits_output : outputRecord.Fits .buffer (schemaMembers .sendCommand)
    fun s _ => s.isSome where
  known := by simp [outputRecord, schemaMembers]
  start := by simp [outputRecord]
  put := by
    intro m hm _ j _ hj s hs
    obtain rfl : s = none := by simpa using hs
    obtain rfl := List.mem_singleton.mp hm
    rcases Bool.or_eq_true _ _ |>.mp hj with htext | hnull
    · obtain ⟨t, rfl⟩ := Json.hasType_string.mp htext
      exact ⟨some (some t), rfl, rfl, by simp [outputRecord]⟩
    · obtain rfl := Json.hasType_null.mp hnull
      exact ⟨some none, rfl, rfl, by simp [outputRecord]⟩
  finish := fun s _ => ⟨.sendCommand (s.getD none), rfl⟩

theorem fits_tab : tabRecord.Fits .buffer (schemaMembers .createWindow) fun s _ => s.isSome where
  known := by simp [tabRecord, schemaMembers]
  start := by simp [tabRecord]
  put := by
    intro m hm _ j _ hj s hs
    obtain rfl : s = none := by simpa using hs
    obtain rfl := List.mem_singleton.mp hm
    obtain ⟨t, rfl⟩ := Id.admits_iff.mp hj
    exact ⟨some ⟨t⟩, rfl, rfl, by simp [tabRecord]⟩
  finish := by
    intro s hs
    have ht : s.isSome = true := hs _ (.head _) rfl (by decide)
    obtain ⟨t, rfl⟩ := Option.isSome_iff_exists.mp ht
    exact ⟨.createWindow t, rfl⟩

/-- The schema of payloads admits the objects with a tag and the members of its kind. -/
theorem admits_iff {j : Json} : Schema.payload.admits j = true ↔
    ∃ k members, j = .object members ∧ members.lookup kindTag = some (.string k.name) ∧
      Schema.admitsMembers (schemaMembers k) members = true := by
  rw [schema_eq, Schema.admits]
  exact Schema.admits_choices_iff

theorem agrees : Schema.payload.Agrees Payload.toJson Payload.read where
  writes := by
    intro p
    rw [admits_iff]
    cases p with
    | listConnections es =>
      refine ⟨.listConnections, _, rfl, rfl, ?_⟩
      -- every entry is admitted where it stands
      have hes : (es.map Entry.toJson).all Schema.entry.admits = true := by
        rw [List.all_map, List.all_eq_true]
        exact fun e _ => Entry.agrees.writes e
      exact (Bool.and_true _).trans hes
    | sendCommand output =>
      cases output with
      | none => exact ⟨.sendCommand, _, rfl, rfl, rfl⟩
      | some text => exact ⟨.sendCommand, _, rfl, rfl, rfl⟩
    | setWindowVisible => exact ⟨.setWindowVisible, _, rfl, rfl, rfl⟩
    | createWindow t => exact ⟨.createWindow, _, rfl, rfl, rfl⟩
  reads := by
    intro j hj hadmits src hsrc
    have hchoices : (Schema.oneOf (Kind.all.map fun k =>
        Schema.tagged k (schemaText k) (schemaMembers k))).admits j = true := hadmits
    refine union.exists_of_admits rfl rfl ?_ ?_ hj hchoices hsrc
    · intro k
      cases k <;> simp [schemaMembers, kindTag]
    · intro k
      cases k with
      | listConnections => exact ⟨_, _, _, rfl, fits_list⟩
      | sendCommand => exact ⟨_, _, _, rfl, fits_output⟩
      | setWindowVisible => exact ⟨Unit, _, _, rfl, Record.fits_unit _ _ _⟩
      | createWindow => exact ⟨_, _, _, rfl, fits_tab⟩

end Payload

/-! ## Responses -/

namespace Response

/-- The members of a response, as its schema has them. -/
def schemaMembers : List (String × Bool × Schema) :=
  [Schema.required "status" "Outcome code" (.named "TmuxStatus" Schema.status),
    Schema.optional "payload" "Request-specific payload; only meaningful when `status` is OK"
      (.nullable (.named "TmuxResponsePayload" Schema.payload))]

/-- Which fields of a partly read response have been given. -/
def given (s : Option Status × Option (Option Payload)) (name : String) : Bool :=
  if name = "status" then s.1.isSome else s.2.isSome

theorem fits {src : Source} (hsrc : src.room = none) :
    Response.record.Fits src schemaMembers given where
  known := by simp [record, schemaMembers]
  start := by simp [record, given]
  put := by
    intro m hm _ j hdistinct hj s hs
    obtain ⟨status, payload⟩ := s
    simp only [schemaMembers, List.mem_cons, List.not_mem_nil, or_false] at hm
    rcases hm with rfl | rfl
    · obtain rfl : status = none := by simpa [given] using hs
      obtain ⟨a, ha⟩ := Status.agrees.reads j hdistinct hj src hsrc
      refine ⟨(some a, payload), ?_, rfl, by simp [record, given]⟩
      simp only [record, Schema.name_required, setOnce_of_ok _ ha, bind, Except.bind]
      rfl
    · obtain rfl : payload = none := by simpa [given] using hs
      rcases Bool.or_eq_true _ _ |>.mp hj with hpayload | hnull
      · obtain ⟨p, hp⟩ := Payload.agrees.reads j hdistinct hpayload src hsrc
        -- a payload that is there is an object, and so not taken for null
        have hread : (Draft.ofJson j).readOptional (Payload.read src) = .ok (some p) := by
          cases j with
          | object members => exact congrArg (Except.map some) hp
          | null | bool | number | string | array => cases hpayload
        refine ⟨(status, some (some p)), ?_, rfl, by simp [record, given]⟩
        simp only [record, Schema.name_optional, setOnce_of_ok _ hread, bind, Except.bind]
        rfl
      · obtain rfl := Json.hasType_null.mp hnull
        exact ⟨(status, some none), rfl, rfl, by simp [record, given]⟩
  finish := by
    rintro ⟨status, payload⟩ hs
    have hstatus : status.isSome = true := hs _ (.head _) rfl (by decide)
    obtain ⟨a, rfl⟩ := Option.isSome_iff_exists.mp hstatus
    exact ⟨⟨a, payload.getD none⟩, rfl⟩

theorem agrees : Schema.response.Agrees Response.toJson Response.read where
  writes := by
    rintro ⟨status, payload⟩
    have hstatus := Status.agrees.writes status
    cases payload with
    | none =>
      simp [Schema.response, Schema.admits, Schema.admitsMembers, Schema.required, Schema.optional,
        toJson, optionalMember, List.lookup_cons, hstatus]
    | some p =>
      have hpayload := Payload.agrees.writes p
      simp [Schema.response, Schema.admits, Schema.admitsMembers, Schema.required, Schema.optional,
        toJson, optionalMember, List.lookup_cons, hstatus, hpayload]
  reads := by
    intro j hj hadmits src hsrc
    cases j with
    | object members => exact (fits hsrc).exists_read hsrc hj hadmits
    | null | bool | number | string | array => cases hadmits

end Response

/-! ## All types of messages -/

namespace MessageType

/-- The values of a type. -/
def Value : MessageType → Type
  | .id kind => Id kind
  | .status => Status
  | .request => Request
  | .entry => Entry
  | .payload => Payload
  | .response => Response

/-- A value of a type in JSON. -/
def toJson : (t : MessageType) → t.Value → Json
  | .id _ => Id.toJson
  | .status => Status.toJson
  | .request => Request.toJson
  | .entry => Entry.toJson
  | .payload => Payload.toJson
  | .response => Response.toJson

/-- Reads a value of a type. -/
def read : (t : MessageType) → Source → Draft → Read t.Value
  | .id _ => fun _ => Id.read
  | .status => Status.read
  | .request => Request.read
  | .entry => Entry.read
  | .payload => Payload.read
  | .response => Response.read

theorem agrees (t : MessageType) : t.schema.Agrees t.toJson t.read := by
  cases t with
  | id kind => exact Id.agrees kind
  | status => exact Status.agrees
  | request => exact Request.agrees
  | entry => exact Entry.agrees
  | payload => exact Payload.agrees
  | response => exact Response.agrees

theorem name_injective : Function.Injective name := by
  intro t t' h
  cases t with
  | id kind =>
    cases t' with
    | id kind' =>
      have hkind : Schema.idName kind = Schema.idName kind' := h
      cases kind <;> cases kind' <;> simp_all [Schema.idName]
    | status | request | entry | payload | response =>
      cases kind <;> simp [name, Schema.idName] at h
  | status | request | entry | payload | response =>
    cases t' with
    | id kind => cases kind <;> simp [name, Schema.idName] at h
    | status | request | entry | payload | response => simp_all [name]

/-- The types that the schema of a type refers to, directly or through others. -/
def referred : MessageType → List MessageType
  | .id _ | .status => []
  | .request => [.id .connection, .id .connection, .id .window, .id .connection, .id .window]
  | .entry => [.id .connection, .id .session]
  | .payload => [.entry, .id .connection, .id .session, .id .tab]
  | .response => [.status, .payload, .entry, .id .connection, .id .session, .id .tab]

theorem references_schema (t : MessageType) :
    t.schema.references = t.referred.map fun t' => (t'.name, t'.schema) := by
  cases t with
  | id kind => cases kind <;> rfl
  | status | request | entry | payload | response => rfl

theorem lookup_published {t : MessageType} {ts : List MessageType} (h : t ∈ ts) :
    (ts.map fun t' => (t'.name, t'.schema)).lookup t.name = some t.schema := by
  induction ts with
  | nil => cases h
  | cons t' ts ih =>
    rw [List.map_cons, List.lookup_cons]
    by_cases hname : t.name = t'.name
    · rw [name_injective hname, beq_self_eq_true]
    · have hne : t ≠ t' := fun heq => hname (congrArg name heq)
      rw [beq_eq_false_iff_ne.mpr hname]
      exact ih ((List.mem_cons.mp h).resolve_left hne)

/-- No schema refers to two types under one name. -/
theorem coherent (t : MessageType) : t.schema.Coherent := by
  intro r hr
  rw [references_schema] at hr ⊢
  obtain ⟨t', ht', rfl⟩ := List.mem_map.mp hr
  exact lookup_published ht'

/-- **The published schemas and the codec agree**, for every type of message: the JSON of every
value meets the published schema of its type, and every JSON value that meets it is read as a value
of the type. Objects of JSON values have no member twice. -/
theorem schema_agrees (t : MessageType) :
    (∀ a : t.Value, (t.toJson a).Meets t.document) ∧
      ∀ j : Json, j.Distinct → j.Meets t.document → ∃ a, Json.readValue t.read j = .ok a := by
  have hmeets : ∀ j : Json, j.Meets t.document ↔ t.schema.admits j = true :=
    fun j => Schema.meets_document_iff t.coherent t.name j
  constructor
  · intro a
    rw [hmeets]
    exact t.agrees.writes a
  · intro j hj hadmits
    exact t.agrees.reads j hj ((hmeets j).mp hadmits) .value rfl

/-- Members may stand in any order and beside unknown ones. -/
theorem schema_agrees_createWindow :
    let j : Json := .object [("since", .number (.int 3)), ("affinity", .null),
      ("connection_id", .string "main"), ("type", .string "create_window")]
    j.Distinct ∧ j.Meets (document .request) ∧ (toJson .request (.createWindow ⟨"main"⟩ none)).Meets
      (document .request) ∧ ∃ q, Json.readValue (read .request) j = .ok q := by
  intro j
  have hdistinct : j.Distinct := by
    refine .object (by decide) ?_
    simp only [List.forall_mem_cons]
    exact ⟨.number _, .null, .string _, .string _, fun _ h => by cases h⟩
  have hmeets : j.Meets (document .request) :=
    (Schema.meets_document_iff (coherent .request) _ _).mpr rfl
  exact ⟨hdistinct, hmeets, (schema_agrees .request).1 _,
    (schema_agrees .request).2 j hdistinct hmeets⟩

end MessageType

end MuxBridge
