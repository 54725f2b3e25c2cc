/-
# Written messages

Every message is read back from its JSON text: identifiers, statuses, requests, reported
connections, payloads and responses. Readers of unions set the members beside the
tag aside and read them again as finished values; optional members that were left out come back as
absent.

* `Draft.settle_ofJson`: a simple value that is set aside comes back as it is;
* `Union.ofDraft_tagged`: a tagged message is read as the variant of its tag;
* `ReadsWritten`: a reader makes of a written message what it was; one theorem for each type.
-/
import MuxBridge.Message.Coding
import MuxBridge.Proofs.Coding.Values

namespace MuxBridge

/-! ## Values set aside -/

namespace Draft

variable {n : Nat} {room : Option Nat}

theorem settleItems_ofItems {items : List Json} (h : ∀ j ∈ items, settle room (ofJson j) = .ok j) :
    settleItems room (ofItems items) = .ok items := by
  induction items with
  | nil => rfl
  | cons j js ih =>
    have hj : settle room (ofJson j) = .ok j := h j (by simp)
    have hjs := ih fun i hi => h i (List.mem_cons_of_mem j hi)
    simp only [ofItems, settleItems, hj, hjs]
    rfl

theorem settleMembers_ofMembers {members : List (String × Json)}
    (h : ∀ m ∈ members, settle room (ofJson m.2) = .ok m.2) :
    settleMembers room (ofMembers members) = .ok members := by
  induction members with
  | nil => rfl
  | cons m ms ih =>
    obtain ⟨name, j⟩ := m
    have hj : settle room (ofJson j) = .ok j := h (name, j) (by simp)
    have hms := ih fun i hi => h i (List.mem_cons_of_mem _ hi)
    simp only [ofMembers, settleMembers, Draft.name, hj, hms]
    rfl

theorem ofMembers_append (members others : List (String × Json)) :
    ofMembers (members ++ others) = ofMembers members ++ ofMembers others := by
  induction members with
  | nil => rfl
  | cons m ms ih =>
    obtain ⟨name, j⟩ := m
    exact congrArg ((.string name, ofJson j) :: ·) ih

/-- Room for one more level than so many leaves room for so many. -/
theorem deeper_of_lt (h : ∀ m ∈ room, n + 1 < m) :
    ∃ room', deeper room = .ok room' ∧ ∀ m ∈ room', n < m := by
  cases room with
  | none => exact ⟨none, rfl, by simp⟩
  | some m =>
    have hm : n + 1 < m := h m rfl
    refine ⟨some (m - 1), by rw [deeper, if_neg (by omega)], ?_⟩
    intro k hk
    rw [← Option.some.inj hk]
    omega

/-- A simple value that fits the room settles to itself. -/
theorem settle_ofJson {j : Json} (hj : j.Simple n) :
    ∀ room : Option Nat, (∀ m ∈ room, n < m) → settle room (ofJson j) = .ok j := by
  induction hj with
  | null | bool | nat | string =>
    intro room _
    simp only [Json.nat, ofJson, settle]
  | array _ ih =>
    intro room hroom
    obtain ⟨room', hdeeper, hroom'⟩ := deeper_of_lt hroom
    simp only [ofJson, settle, hdeeper, bind, Except.bind,
      settleItems_ofItems fun j hj => ih j hj room' hroom']
    rfl
  | object _ ih =>
    intro room hroom
    obtain ⟨room', hdeeper, hroom'⟩ := deeper_of_lt hroom
    simp only [ofJson, settle, hdeeper, bind, Except.bind,
      settleMembers_ofMembers fun m hm => ih m hm room' hroom']
    rfl

end Draft

/-! ## Sources -/

namespace Source

variable {n : Nat} {src : Source}

/-- Whether values of so many levels can be read from a source. -/
def Holds (n : Nat) (src : Source) : Prop := ∀ m ∈ src.room, n < m

theorem Holds.mono {k : Nat} (h : src.Holds n) (hk : k ≤ n) : src.Holds k :=
  fun m hm => Nat.lt_of_le_of_lt hk (h m hm)

/-- One level deeper there is room for one level less. -/
theorem enter_of_holds (h : src.Holds (n + 1)) : ∃ src', src.enter = .ok src' ∧ src'.Holds n := by
  cases src with
  | text m =>
    have hm : n + 1 < m := h m rfl
    refine ⟨.text (m - 1), by rw [enter, if_neg (by omega)], ?_⟩
    intro k hk
    rw [← Option.some.inj hk]
    omega
  | value => exact ⟨.value, rfl, by simp [Holds, room]⟩
  | buffer => exact ⟨.buffer, rfl, by simp [Holds, room]⟩

theorem holds_buffer (n : Nat) : Source.buffer.Holds n := by
  simp [Holds, room]

end Source

/-! ## Unions -/

namespace Union

variable {ρ : Type} (u : Union ρ) {n : Nat} {src : Source} (members : List (String × Json))

/-- Members beside the tag are set aside in their order. -/
theorem gather_ofMembers (tag : Option String) (hname : ∀ m ∈ members, m.1 ≠ u.tag)
    (hsettle : ∀ m ∈ members, (Draft.ofJson m.2).settle src.room = .ok m.2)
    (rest : List (Draft × Draft)) (others : List (String × Json)) :
    u.gather src (Draft.ofMembers members ++ rest) tag others
      = u.gather src rest tag (others ++ members) := by
  induction members generalizing others with
  | nil => rw [Draft.ofMembers, List.nil_append, List.append_nil]
  | cons m ms ih =>
    obtain ⟨name, j⟩ := m
    have hne : name ≠ u.tag := hname (name, j) (by simp)
    have hj : (Draft.ofJson j).settle src.room = .ok j := hsettle (name, j) (by simp)
    have hms := ih (fun i hi => hname i (List.mem_cons_of_mem _ hi))
      (fun i hi => hsettle i (List.mem_cons_of_mem _ hi)) (others ++ [(name, j)])
    rw [List.append_assoc] at hms
    simp only [Draft.ofMembers, List.cons_append, gather, Draft.name, Read.ofFault, bind,
      Except.bind, hne, if_false, hj]
    exact hms

/-- Wherever the tag stands, an object is read as the variant of the tag from its other members. -/
theorem ofDraft_ofJson (front back : List (String × Json)) {src' : Source}
    (henter : src.enter = .ok src') {t : String} (ht : t ∈ u.variants)
    (hname : ∀ m ∈ front ++ back, m.1 ≠ u.tag)
    (hsettle : ∀ m ∈ front ++ back, (Draft.ofJson m.2).settle src'.room = .ok m.2) :
    u.ofDraft src (Draft.ofJson (.object (front ++ (u.tag, .string t) :: back)))
      = u.read t (Draft.ofJson (.object (front ++ back))) := by
  have hfront := u.gather_ofMembers front none
    (fun m hm => hname m (List.mem_append_left _ hm))
    (fun m hm => hsettle m (List.mem_append_left _ hm))
    (Draft.ofMembers ((u.tag, .string t) :: back)) []
  have hback := u.gather_ofMembers back (some t)
    (fun m hm => hname m (List.mem_append_right _ hm))
    (fun m hm => hsettle m (List.mem_append_right _ hm)) [] front
  have htag : u.gather src' (Draft.ofMembers ((u.tag, .string t) :: back)) none front
      = u.gather src' (Draft.ofMembers back) (some t) front := by
    simp only [Draft.ofMembers, Draft.ofJson, gather, Draft.name, Read.ofFault, if_true, setOnce,
      Draft.readVariant, ht, Except.map, bind, Except.bind]
  rw [List.append_nil] at hback
  rw [← Draft.ofMembers_append, List.nil_append, htag, hback] at hfront
  simp only [Draft.ofJson, ofDraft, henter, bind, Except.bind, hfront]
  rfl

/-- A message of a kind is read as the variant that the kind names, from its other members. -/
theorem ofDraft_tagged (hsrc : src.Holds (n + 1)) (k : Kind) (htag : u.tag = kindTag)
    (hk : k.name ∈ u.variants) (hname : ∀ m ∈ members, m.1 ≠ u.tag)
    (hsimple : ∀ m ∈ members, m.2.Simple n) :
    u.ofDraft src (Draft.ofJson (tagged k members))
      = u.read k.name (Draft.ofJson (.object members)) := by
  obtain ⟨src', henter, hholds⟩ := Source.enter_of_holds hsrc
  rw [tagged, ← htag]
  exact u.ofDraft_ofJson [] members henter hk hname
    fun m hm => Draft.settle_ofJson (hsimple m hm) src'.room hholds

end Union

/-! ## Records -/

theorem setOnce_of_ok {α : Type} (name : String) {read : Read α} {a : α} (h : read = .ok a) :
    setOnce name none read = .ok (some a) := by
  rw [h]
  rfl

namespace Record

variable {σ ρ : Type} (r : Record σ ρ) {src src' : Source} {s s' : σ} {a : ρ}

/-- A known member is put into the record, and the others follow. -/
theorem putMembers_cons {name : String} {j : Json} (members : List (String × Json))
    (hname : name ∈ r.fields) (hput : r.put src name (Draft.ofJson j) s = .ok s') :
    r.putMembers src (Draft.ofMembers ((name, j) :: members)) s
      = r.putMembers src (Draft.ofMembers members) s' := by
  simp only [Draft.ofMembers, putMembers, Draft.name, Read.ofFault, hname, if_true, hput, bind,
    Except.bind]

/-- A record is read from an object when its members give the record. -/
theorem read_object (henter : src.enter = .ok src') (members : List (String × Json))
    (hput : r.putMembers src' (Draft.ofMembers members) r.start = .ok s)
    (hfinish : r.finish s = .ok a) : r.read src (Draft.ofJson (.object members)) = .ok a := by
  simp only [Draft.ofJson, read, henter, ofMembers, bind, Except.bind, hput, hfinish]
  rfl

end Record

/-! ## Messages -/

/-- From every source with room for so many levels, a message is read as it was written. -/
def ReadsWritten {α : Type} (n : Nat) (toJson : α → Json) (read : Source → Draft → Read α)
    (a : α) : Prop :=
  ∀ src : Source, src.Holds n → read src (Draft.ofJson (toJson a)) = .ok a

theorem Id.simple_toJson {kind : IdKind} (n : Nat) (a : Id kind) : a.toJson.Simple n :=
  .string n a.text

theorem Id.readsWritten {kind : IdKind} (a : Id kind) :
    ReadsWritten 0 Id.toJson (fun _ => Id.read) a := by
  intro src _
  rfl

theorem Status.simple_toJson (s : Status) : s.toJson.Simple 0 := .string 0 s.name

theorem Status.readsWritten (s : Status) : ReadsWritten 0 Status.toJson Status.read s := by
  intro src _
  have hname : s.name ∈ Status.names := List.mem_map_of_mem (by cases s <;> decide)
  simp only [Status.toJson, Draft.ofJson, Status.read, Draft.readEnumerated, Draft.readVariant,
    hname, if_true, bind, Except.bind, Status.ofName?_name]

theorem Entry.simple_toJson (e : Entry) : e.toJson.Simple 1 := by
  refine .object ?_
  simp [Id.simple_toJson]

theorem Entry.readsWritten (e : Entry) : ReadsWritten 1 Entry.toJson Entry.read e := by
  intro src hsrc
  obtain ⟨src', henter, -⟩ := Source.enter_of_holds hsrc
  simp only [Entry.read, Entry.toJson, Draft.ofJson, Record.read, henter]
  rfl

theorem Kind.name_mem_names (k : Kind) : k.name ∈ Kind.names :=
  List.mem_map_of_mem (by cases k <;> decide)

/-- A tagged message is simple when its members are. -/
theorem simple_tagged {n : Nat} (k : Kind) {members : List (String × Json)}
    (h : ∀ m ∈ members, m.2.Simple n) : (tagged k members).Simple (n + 1) := by
  refine .object ?_
  simp only [List.mem_cons, forall_eq_or_imp]
  exact ⟨.string n k.name, h⟩

theorem Request.simple_toJson (q : Request) : q.toJson.Simple 1 := by
  cases q with
  | listConnections | sendCommand | setWindowVisible =>
    refine simple_tagged _ ?_
    simp [Id.simple_toJson, Json.Simple.string, Json.Simple.bool]
  | createWindow c a =>
    refine simple_tagged _ ?_
    cases a <;> simp [Id.simple_toJson, optionalMember]

theorem Request.readsWritten (q : Request) : ReadsWritten 1 Request.toJson Request.read q := by
  intro src hsrc
  have htagged := fun k members =>
    Request.union.ofDraft_tagged members hsrc k rfl k.name_mem_names
  cases q with
  | listConnections =>
    refine (htagged .listConnections [] (by simp) (by simp)).trans ?_
    rfl
  | sendCommand c text =>
    refine (htagged .sendCommand _ ?_ ?_).trans ?_
    · simp [Request.union, kindTag]
    · simp [Id.simple_toJson, Json.Simple.string]
    · rfl
  | setWindowVisible c w v =>
    refine (htagged .setWindowVisible _ ?_ ?_).trans ?_
    · simp [Request.union, kindTag]
    · simp [Id.simple_toJson, Json.Simple.bool]
    · rfl
  | createWindow c a =>
    refine (htagged .createWindow _ ?_ ?_).trans ?_
    · cases a <;> simp [Request.union, kindTag, optionalMember]
    · cases a <;> simp [Id.simple_toJson, optionalMember]
    · -- an affinity that was left out comes back as absent
      cases a <;> rfl

/-- The items of a list are read one after the other. -/
theorem readItems_ofItems {α : Type} {n : Nat} {toJson : α → Json} {read : Source → Draft → Read α}
    {src : Source} (hsrc : src.Holds n) (as : List α)
    (h : ∀ a ∈ as, ReadsWritten n toJson read a) :
    readItems (read src) (Draft.ofItems (as.map toJson)) = .ok as := by
  induction as with
  | nil => rfl
  | cons a as ih =>
    have ha : read src (Draft.ofJson (toJson a)) = .ok a := h a (by simp) src hsrc
    have has := ih fun b hb => h b (List.mem_cons_of_mem a hb)
    simp only [List.map_cons, Draft.ofItems, readItems, ha, has]
    rfl

theorem Entry.simple_map_toJson (es : List Entry) :
    (Json.array (es.map Entry.toJson)).Simple 2 := by
  refine .array ?_
  simp only [List.mem_map, forall_exists_index, and_imp, forall_apply_eq_imp_iff₂]
  exact fun e _ => e.simple_toJson

theorem Payload.simple_toJson (p : Payload) : p.toJson.Simple 3 := by
  cases p with
  | listConnections es =>
    refine simple_tagged _ ?_
    simpa using Entry.simple_map_toJson es
  | sendCommand o =>
    refine simple_tagged _ ?_
    cases o <;> simp [Json.Simple.string, optionalMember]
  | setWindowVisible | createWindow =>
    refine simple_tagged _ ?_
    simp [Id.simple_toJson]

theorem Payload.readsWritten (p : Payload) : ReadsWritten 3 Payload.toJson Payload.read p := by
  intro src hsrc
  have htagged := fun k members =>
    Payload.union.ofDraft_tagged members hsrc k rfl k.name_mem_names
  cases p with
  | listConnections es =>
    refine (htagged .listConnections _ ?_ ?_).trans ?_
    · simp [Payload.union, kindTag]
    · simpa using Entry.simple_map_toJson es
    · have hitems := readItems_ofItems (Source.holds_buffer 1) es fun e _ => e.readsWritten
      have hput : Payload.listRecord.put .buffer "connections"
          (Draft.ofJson (.array (es.map Entry.toJson))) none = .ok (some es) := by
        refine setOnce_of_ok "connections" ?_
        simp only [Draft.ofJson, readList, hitems]
        rfl
      exact Payload.listRecord.read_object rfl _
        (Payload.listRecord.putMembers_cons [] (by simp [Payload.listRecord]) hput) rfl
  | sendCommand o =>
    refine (htagged .sendCommand _ ?_ ?_).trans ?_
    · cases o <;> simp [Payload.union, kindTag, optionalMember]
    · cases o <;> simp [Json.Simple.string, optionalMember]
    · -- no output stays different from an empty one
      cases o <;> rfl
  | setWindowVisible =>
    refine (htagged .setWindowVisible [] (by simp) (by simp)).trans ?_
    rfl
  | createWindow tab =>
    refine (htagged .createWindow _ ?_ ?_).trans ?_
    · simp [Payload.union, kindTag]
    · simp [Id.simple_toJson]
    · rfl

theorem Response.simple_toJson (r : Response) : r.toJson.Simple 4 := by
  obtain ⟨status, payload⟩ := r
  refine .object ?_
  cases payload with
  | none => simp [Status.toJson, Json.Simple.string, optionalMember]
  | some p => simp [Status.toJson, Json.Simple.string, optionalMember, p.simple_toJson]

theorem Response.readsWritten (r : Response) : ReadsWritten 4 Response.toJson Response.read r := by
  intro src hsrc
  obtain ⟨src', henter, hsrc'⟩ := Source.enter_of_holds hsrc
  obtain ⟨status, payload⟩ := r
  have hstatus : Response.record.put src' "status" (Draft.ofJson status.toJson) (none, none)
      = .ok (some status, none) := by
    have hread : Status.read src' (Draft.ofJson status.toJson) = .ok status :=
      status.readsWritten src' (hsrc'.mono (by omega))
    show (do return (← setOnce _ _ (Status.read src' _), _)) = _
    rw [hread]
    rfl
  cases payload with
  | none =>
    exact Response.record.read_object henter _
      (Response.record.putMembers_cons [] (by simp [Response.record]) hstatus) rfl
  | some p =>
    have hpayload : Response.record.put src' "payload" (Draft.ofJson p.toJson) (some status, none)
        = .ok (some status, some (some p)) := by
      have hp : Payload.read src' (Draft.ofJson p.toJson) = .ok p := p.readsWritten src' hsrc'
      have hread : Draft.readOptional (Payload.read src') (Draft.ofJson p.toJson)
          = .ok (some p) := by
        cases p <;> exact congrArg (Except.map some) hp
      show (do return (_, ← setOnce _ _ (Draft.readOptional (Payload.read src') _))) = _
      rw [hread]
      rfl
    have hput : Response.record.putMembers src' (Draft.ofMembers
        [("status", status.toJson), ("payload", p.toJson)]) (none, none)
          = .ok (some status, some (some p)) := by
      rw [Response.record.putMembers_cons _ (by simp [Response.record]) hstatus,
        Response.record.putMembers_cons _ (by simp [Response.record]) hpayload]
      rfl
    exact Response.record.read_object henter _ hput rfl

end MuxBridge
