/-
# Texts and values agree

What is written as a JSON text is read back from it, for messages and configurations alike, and
whatever can be read at all can be written and read again. A configuration has numbers of 64 bits,
and a reader accepts no larger ones.

* `Record.exists_of_read`: what every field of a record keeps holds of the record that is read;
* `Json.Faithful`: the agreement of texts and values of a type;
* `messages_roundTrip`: it holds of all types that have texts.
-/
import MuxBridge.Config.Coding
import MuxBridge.Proofs.Coding.Messages

namespace MuxBridge

/-! ## Records that are read -/

namespace Record

variable {σ ρ : Type} (r : Record σ ρ) {P : σ → Prop} {src : Source} {s s' : σ} {a : ρ}

/-- Whatever is put into a record keeps a property of it. -/
def Keeps (P : σ → Prop) : Prop :=
  ∀ src name d s s', P s → r.put src name d s = .ok s' → P s'

theorem keeps_putMembers (hr : r.Keeps P) (members : List (Draft × Draft)) (hs : P s)
    (h : r.putMembers src members s = .ok s') : P s' := by
  induction members generalizing s with
  | nil =>
    rw [← Except.ok.inj h]
    exact hs
  | cons m ms ih =>
    obtain ⟨n, d⟩ := m
    rw [putMembers] at h
    obtain ⟨name, -, h⟩ := Read.bind_eq_ok.mp h
    split at h
    · obtain ⟨s₁, hput, h⟩ := Read.bind_eq_ok.mp h
      exact ih (hr src name d s s₁ hs hput) h
    · obtain ⟨-, -, h⟩ := Read.bind_eq_ok.mp h
      exact ih hs h

theorem keeps_putItems (hr : r.Keeps P) (names : List String) (items : List Draft) (hs : P s)
    (h : r.putItems src names items s = .ok s') : P s' := by
  induction names generalizing items s with
  | nil =>
    rw [putItems] at h
    · rw [← Except.ok.inj h]
      exact hs
    · simp
  | cons name names ih =>
    cases items with
    | nil =>
      rw [← Except.ok.inj h]
      exact hs
    | cons d ds =>
      rw [putItems] at h
      obtain ⟨s₁, hput, h⟩ := Read.bind_eq_ok.mp h
      exact ih ds (hr src name d s s₁ hs hput) h

/-- A record that is read has gone through the hands of its fields only. -/
theorem exists_of_read (hr : r.Keeps P) (hstart : P r.start) {d : Draft}
    (h : r.read src d = .ok a) : ∃ s, P s ∧ r.finish s = .ok a := by
  cases d with
  | object members ending =>
    obtain ⟨src', -, h⟩ := Read.bind_eq_ok.mp h
    obtain ⟨s, hput, h⟩ := Read.bind_eq_ok.mp h
    obtain ⟨-, -, h⟩ := Read.bind_eq_ok.mp h
    refine ⟨s, r.keeps_putMembers hr members hstart hput, ?_⟩
    split at h
    · next b hb => rw [hb, Except.ok.inj h]
    · cases h
  | array items ending =>
    obtain ⟨src', -, h⟩ := Read.bind_eq_ok.mp h
    obtain ⟨s, hput, h⟩ := Read.bind_eq_ok.mp h
    refine ⟨s, r.keeps_putItems hr r.fields items hstart hput, ?_⟩
    cases hfinish : r.finish s with
    | ok b =>
      simp only [hfinish] at h
      have hclose : (do r.closeItems src' items.length ending; return b) = .ok a := by
        split at h
        · exact (Read.bind_eq_ok.mp h).choose_spec.2
        · exact h
      obtain ⟨-, -, hb⟩ := Read.bind_eq_ok.mp hclose
      rw [Except.ok.inj hb]
    | error name =>
      simp only [hfinish] at h
      split at h
      · cases (Read.bind_eq_ok.mp h).choose_spec.2
      · cases h
  | null | bool | string | flawed => cases h
  | number x => cases x <;> cases h

end Record

/-! ## Configurations -/

theorem Draft.readWord64_nat {n : Nat} (hn : n ≤ Numeral.maxWord) :
    Draft.readWord64 (Draft.ofJson (.nat n)) = .ok n := by
  have hbetween : (0 : Int) ≤ n ∧ (n : Int) ≤ Numeral.maxWord := by omega
  simp only [Json.nat, Draft.ofJson, Draft.readWord64, Draft.readBetween, hbetween, and_self,
    if_true]
  rfl

theorem Draft.le_maxWord_of_readWord64 {d : Draft} {n : Nat} (h : d.readWord64 = .ok n) :
    n ≤ Numeral.maxWord := by
  cases d with
  | number x =>
    cases x with
    | int m =>
      rw [readWord64, readBetween] at h
      split at h
      · next hm =>
        rw [← Except.ok.inj h]
        omega
      · cases h
    | float => cases h
  | _ => cases h

/-- A field that is given has been read. -/
theorem exists_of_setOnce {α : Type} {name : String} {old new : Option α} {read : Read α}
    (h : setOnce name old read = .ok new) : ∃ a, read = .ok a ∧ new = some a := by
  cases old with
  | some => cases h
  | none =>
    cases read with
    | error e => cases h
    | ok a => exact ⟨a, rfl, (Except.ok.inj h).symm⟩

/-- The number of a section is one of 64 bits. -/
theorem Record.keeps_word {ρ : Type} (r : Record (Option Nat) ρ) (key : String)
    (hr : ∀ src name d given, r.put src name d given = setOnce key given d.readWord64) :
    r.Keeps fun given => ∀ n ∈ given, n ≤ Numeral.maxWord := by
  intro src name d given given' _ hput n hn
  rw [hr] at hput
  obtain ⟨m, hm, rfl⟩ := exists_of_setOnce hput
  rw [← Option.some.inj hn]
  exact Draft.le_maxWord_of_readWord64 hm

/-- A section is read from its number. -/
theorem Record.read_word {ρ : Type} (r : Record (Option Nat) ρ) {key : String} {n : Nat} {a : ρ}
    {src : Source}
    (hr : ∀ src name d given, r.put src name d given = setOnce key given d.readWord64)
    (hkey : key ∈ r.fields) (hstart : r.start = none) (hfinish : r.finish (some n) = .ok a)
    (hn : n ≤ Numeral.maxWord) (hsrc : src.Holds 1) :
    r.read src (Draft.ofJson (.object [(key, .nat n)])) = .ok a := by
  obtain ⟨src', henter, -⟩ := Source.enter_of_holds hsrc
  have hput : r.put src' key (Draft.ofJson (.nat n)) r.start = .ok (some n) := by
    rw [hr, hstart]
    exact setOnce_of_ok key (Draft.readWord64_nat hn)
  exact r.read_object henter _ (r.putMembers_cons [] hkey hput) hfinish

namespace RpcSettings

/-- Whether the deadline is a number of 64 bits. -/
def FitsWord (s : RpcSettings) : Prop := s.requestMillis ≤ Numeral.maxWord

theorem fitsWord_default : RpcSettings.default.FitsWord := by
  simp [FitsWord, RpcSettings.default, Numeral.maxWord]

variable {s : RpcSettings}

theorem simple_toJson (h : s.FitsWord) : s.toJson.Simple 1 := by
  refine .object ?_
  simpa using Json.Simple.nat 0 h

theorem readsWritten (h : s.FitsWord) : ReadsWritten 1 toJson read s := by
  intro src hsrc
  exact record.read_word (fun _ _ _ _ => rfl) (by simp [record]) rfl rfl h hsrc

/-- No larger deadline is read. -/
theorem fitsWord_of_read {src : Source} {d : Draft} (h : read src d = .ok s) : s.FitsWord := by
  have hkeeps := record.keeps_word _ fun _ _ _ _ => rfl
  obtain ⟨given, hgiven, hfinish⟩ := record.exists_of_read hkeeps (by simp [record]) h
  rw [← Except.ok.inj hfinish]
  cases given with
  | none => exact fitsWord_default
  | some n => exact hgiven n rfl

end RpcSettings

namespace DelegateSettings

/-- Whether the deadline is a number of 64 bits. -/
def FitsWord (s : DelegateSettings) : Prop := s.resolveMillis ≤ Numeral.maxWord

theorem fitsWord_default : DelegateSettings.default.FitsWord := by
  simp [FitsWord, DelegateSettings.default]

variable {s : DelegateSettings}

theorem simple_toJson (h : s.FitsWord) : s.toJson.Simple 1 := by
  refine .object ?_
  simpa using Json.Simple.nat 0 h

theorem readsWritten (h : s.FitsWord) : ReadsWritten 1 toJson read s := by
  intro src hsrc
  exact record.read_word (fun _ _ _ _ => rfl) (by simp [record]) rfl rfl h hsrc

/-- No larger deadline is read. -/
theorem fitsWord_of_read {src : Source} {d : Draft} (h : read src d = .ok s) : s.FitsWord := by
  have hkeeps := record.keeps_word _ fun _ _ _ _ => rfl
  obtain ⟨given, hgiven, hfinish⟩ := record.exists_of_read hkeeps (by simp [record]) h
  rw [← Except.ok.inj hfinish]
  cases given with
  | none => exact fitsWord_default
  | some n => exact hgiven n rfl

end DelegateSettings

namespace Config

/-- Whether both deadlines are numbers of 64 bits. -/
def FitsWords (c : Config) : Prop := c.rpc.FitsWord ∧ c.delegate.FitsWord

variable {c : Config}

theorem simple_toJson (h : c.FitsWords) : c.toJson.Simple 2 := by
  refine .object ?_
  simpa using ⟨RpcSettings.simple_toJson h.1, DelegateSettings.simple_toJson h.2⟩

theorem readsWritten (h : c.FitsWords) : ReadsWritten 2 toJson read c := by
  intro src hsrc
  obtain ⟨src', henter, hsrc'⟩ := Source.enter_of_holds hsrc
  have hrpc : record.put src' rpcKey (Draft.ofJson c.rpc.toJson) (none, none)
      = .ok (some c.rpc, none) := by
    show (do return (← setOnce _ _ (RpcSettings.read src' _), _)) = _
    rw [RpcSettings.readsWritten h.1 src' hsrc']
    rfl
  have hdelegate : record.put src' delegateKey (Draft.ofJson c.delegate.toJson)
      (some c.rpc, none) = .ok (some c.rpc, some c.delegate) := by
    show (do return (_, ← setOnce _ _ (DelegateSettings.read src' _))) = _
    rw [DelegateSettings.readsWritten h.2 src' hsrc']
    rfl
  have hput : record.putMembers src' (Draft.ofMembers
      [(rpcKey, c.rpc.toJson), (delegateKey, c.delegate.toJson)]) (none, none)
        = .ok (some c.rpc, some c.delegate) := by
    rw [record.putMembers_cons _ (by simp [record]) hrpc,
      record.putMembers_cons _ (by simp [record]) hdelegate]
    rfl
  exact record.read_object henter _ hput rfl

/-- No larger deadlines are read. -/
theorem fitsWords_of_read {src : Source} {d : Draft} (h : read src d = .ok c) : c.FitsWords := by
  have hkeeps : record.Keeps fun given =>
      (∀ s ∈ given.1, s.FitsWord) ∧ ∀ s ∈ given.2, s.FitsWord := by
    intro src name d given given' hgiven hput
    simp only [record] at hput
    split at hput
    · obtain ⟨rpc, hrpc, hput⟩ := Read.bind_eq_ok.mp hput
      obtain ⟨s, hs, rfl⟩ := exists_of_setOnce hrpc
      rw [← Except.ok.inj hput]
      refine ⟨?_, hgiven.2⟩
      intro s' hs'
      rw [← Option.some.inj hs']
      exact RpcSettings.fitsWord_of_read hs
    · obtain ⟨delegate, hdelegate, hput⟩ := Read.bind_eq_ok.mp hput
      obtain ⟨s, hs, rfl⟩ := exists_of_setOnce hdelegate
      rw [← Except.ok.inj hput]
      refine ⟨hgiven.1, ?_⟩
      intro s' hs'
      rw [← Option.some.inj hs']
      exact DelegateSettings.fitsWord_of_read hs
  obtain ⟨given, ⟨hrpc, hdelegate⟩, hfinish⟩ :=
    record.exists_of_read hkeeps (by simp [record]) h
  rw [← Except.ok.inj hfinish]
  obtain ⟨rpc, delegate⟩ := given
  constructor
  · cases rpc with
    | none => exact RpcSettings.fitsWord_default
    | some s => exact hrpc s rfl
  · cases delegate with
    | none => exact DelegateSettings.fitsWord_default
    | some s => exact hdelegate s rfl

end Config

/-! ## Agreement of texts and values -/

/-- How texts and values of a type agree, for the values that the type admits. -/
structure Json.Faithful {α : Type} (valid : α → Prop) (toJson : α → Json)
    (read : Source → Draft → Read α) : Prop where
  /-- A value is read back from its text. -/
  back : ∀ a, valid a → Json.readText read (toJson a).text = .ok a
  /-- Different values have different texts. -/
  distinct : ∀ a b, valid a → valid b → (toJson a).text = (toJson b).text → a = b
  /-- What is read from any text is read back from its own text as well. -/
  ofText : ∀ text a, Json.readText read text = .ok a →
    valid a ∧ Json.readText read (toJson a).text = .ok a
  /-- So is what is read from any finished value. -/
  ofValue : ∀ j a, Json.readValue read j = .ok a →
    valid a ∧ Json.readText read (toJson a).text = .ok a

variable {α : Type} {toJson : α → Json} {read : Source → Draft → Read α} {n : Nat}

/-- What is read from a text is read from its draft. -/
theorem Json.read_of_readText {text : String} {a : α} (h : Json.readText read text = .ok a) :
    read (.text maxLevels) (Draft.ofText text).1 = .ok a := by
  obtain ⟨b, hb, h⟩ := Read.bind_eq_ok.mp h
  obtain ⟨-, -, h⟩ := Read.bind_eq_ok.mp h
  exact hb.trans (congrArg Except.ok (Except.ok.inj h))

/-- A simple value that is read as it was written is read back from its text. -/
theorem Json.readText_text {a : α} (hn : n < maxLevels) (hsimple : (toJson a).Simple n)
    (hreads : ReadsWritten n toJson read a) : Json.readText read (toJson a).text = .ok a := by
  have hread : read (.text maxLevels) (Draft.ofJson (toJson a)) = .ok a := by
    refine hreads _ ?_
    intro m hm
    rwa [← Option.some.inj hm]
  rw [Json.readText, Draft.ofText_text hsimple]
  simp only [hread]
  rfl

theorem Json.faithful_of_readsWritten {valid : α → Prop} (hn : n < maxLevels)
    (hsimple : ∀ a, valid a → (toJson a).Simple n)
    (hreads : ∀ a, valid a → ReadsWritten n toJson read a)
    (hvalid : ∀ src d a, read src d = .ok a → valid a) : Json.Faithful valid toJson read := by
  have hback : ∀ a, valid a → Json.readText read (toJson a).text = .ok a :=
    fun a ha => Json.readText_text hn (hsimple a ha) (hreads a ha)
  refine ⟨hback, ?_, ?_, ?_⟩
  · intro a b ha hb htext
    have hread := hback a ha
    rw [htext, hback b hb] at hread
    exact (Except.ok.inj hread).symm
  · intro text a h
    have ha : valid a := hvalid _ _ a (Json.read_of_readText h)
    exact ⟨ha, hback a ha⟩
  · intro j a h
    have ha : valid a := hvalid _ _ a h
    exact ⟨ha, hback a ha⟩

/-- A type of which every value is admitted. -/
theorem Json.faithful_of_all (hn : n < maxLevels) (hsimple : ∀ a, (toJson a).Simple n)
    (hreads : ∀ a, ReadsWritten n toJson read a) : Json.Faithful (fun _ => True) toJson read :=
  Json.faithful_of_readsWritten hn (fun a _ => hsimple a) (fun a _ => hreads a)
    fun _ _ _ _ => trivial

/-- **Messages and configurations survive their texts**: every value is read back from its text,
different values have different texts, and what is read from any text or value at all is
read again from the text that it is written as. -/
theorem messages_roundTrip :
    (∀ kind : IdKind, Json.Faithful (fun _ : Id kind => True) Id.toJson fun _ => Id.read) ∧
      Json.Faithful (fun _ => True) Status.toJson Status.read ∧
      Json.Faithful (fun _ => True) Request.toJson Request.read ∧
      Json.Faithful (fun _ => True) Entry.toJson Entry.read ∧
      Json.Faithful (fun _ => True) Payload.toJson Payload.read ∧
      Json.Faithful (fun _ => True) Response.toJson Response.read ∧
      Json.Faithful Config.FitsWords Config.toJson Config.read ∧
      Json.Faithful RpcSettings.FitsWord RpcSettings.toJson RpcSettings.read ∧
      Json.Faithful DelegateSettings.FitsWord DelegateSettings.toJson DelegateSettings.read := by
  refine ⟨fun kind => ?_, ?_, ?_, ?_, ?_, ?_, ?_, ?_, ?_⟩
  · exact Json.faithful_of_all (by decide) (Id.simple_toJson 0) Id.readsWritten
  · exact Json.faithful_of_all (by decide) Status.simple_toJson Status.readsWritten
  · exact Json.faithful_of_all (by decide) Request.simple_toJson Request.readsWritten
  · exact Json.faithful_of_all (by decide) Entry.simple_toJson Entry.readsWritten
  · exact Json.faithful_of_all (by decide) Payload.simple_toJson Payload.readsWritten
  · exact Json.faithful_of_all (by decide) Response.simple_toJson Response.readsWritten
  · exact Json.faithful_of_readsWritten (by decide) (fun _ => Config.simple_toJson)
      (fun _ => Config.readsWritten) fun _ _ _ => Config.fitsWords_of_read
  · exact Json.faithful_of_readsWritten (by decide) (fun _ => RpcSettings.simple_toJson)
      (fun _ => RpcSettings.readsWritten) fun _ _ _ => RpcSettings.fitsWord_of_read
  · exact Json.faithful_of_readsWritten (by decide) (fun _ => DelegateSettings.simple_toJson)
      (fun _ => DelegateSettings.readsWritten) fun _ _ _ => DelegateSettings.fitsWord_of_read

end MuxBridge
