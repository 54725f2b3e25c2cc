/-
# Reading typed values

Readers of strings, flags, numbers, records and unions from a draft. A reader reports the first
thing that is wrong in the order of the text, be it the text itself or a value of the wrong type.

Records are described by a `Record`: the names of its fields, what each of them does to a partly
read record, and what the finished record is. The same description reads an object, in which
unknown members are skipped, and an array, which lists the fields in their order. A `Union` is an
object or an array whose tag says how to read the other members.
-/
import MuxBridge.Json.Draft
import MuxBridge.Json.Written
import MuxBridge.Mismatch

namespace MuxBridge

/-- JSON names the empty value as it is written. -/
def jsonDialect : Dialect := ⟨"null", jsonFloats⟩

/-- Why a JSON document cannot be read as a type: the text is faulty, or the value does not fit. -/
inductive JsonFailure where
  | fault (f : Fault)
  | mismatch (m : Mismatch)
  deriving DecidableEq, Repr

/-- Where a draft comes from. -/
inductive Source where
  /-- A text, which may open this many further levels of nesting. -/
  | text (room : Nat)
  /-- A finished value. -/
  | value
  /-- Members set aside while the tag of their union was looked for. -/
  | buffer
  deriving DecidableEq, Repr

/-- The outcome of reading. -/
abbrev Read (α : Type) := Except JsonFailure α

/-- A text may nest values 127 levels deep. -/
def maxLevels : Nat := 128

namespace Source

/-- Opens one more level of nesting. -/
def enter : Source → Read Source
  | .text n => if n ≤ 1 then .error (.fault .malformed) else .ok (.text (n - 1))
  | s => .ok s

/-- The bound on the nesting of values that are set aside. -/
def room : Source → Option Nat
  | .text n => some n
  | _ => none

end Source

/-- A reader succeeds in two steps if the first succeeds, and the second with what the first has
read. -/
theorem Read.bind_eq_ok {α β : Type} {x : Read α} {f : α → Read β} {b : β} :
    (x >>= f) = .ok b ↔ ∃ a, x = .ok a ∧ f a = .ok b := by
  cases x <;> simp [bind, Except.bind]

/-- A faulty part as the failure of its reader. -/
def Read.ofFault {α : Type} : Except Fault α → Read α
  | .ok a => .ok a
  | .error f => .error (.fault f)

/-- The end of an array or object as the outcome of reading it. -/
def Read.close : Option Fault → Read Unit
  | none => .ok ()
  | some f => .error (.fault f)

namespace Draft

/-! ## Plain values -/

/-- What a draft turns out to be. -/
def found : Draft → Read Found
  | .null => .ok .absent
  | .bool b => .ok (.boolean b)
  | .number (.int n) => .ok (.integer n)
  | .number (.float x) => .ok (.float x)
  | .string s => .ok (.string s)
  | .array _ _ => .ok .sequence
  | .object _ _ => .ok .map
  | .flawed _ f _ => .error (.fault f)

/-- The failure of a reader that expects something else than the draft. -/
def unexpected {α : Type} (d : Draft) (expected : String) : Read α :=
  match d.found with
  | .ok f => .error (.mismatch (.invalidType f expected))
  | .error e => .error e

/-- Reads a string. -/
def readText : Draft → Read String
  | .string s => .ok s
  | d => d.unexpected "a string"

/-- Reads a flag. -/
def readFlag : Draft → Read Bool
  | .bool b => .ok b
  | d => d.unexpected "a boolean"

/-- Reads an integer between bounds, for a type of the given name. -/
def readBetween (low high : Int) (type : String) : Draft → Read Int
  | .number (.int n) =>
    if low ≤ n ∧ n ≤ high then .ok n
    else .error (.mismatch (.invalidValue (.integer n) type))
  | d => d.unexpected type

/-- Reads a natural number of 64 bits. -/
def readWord64 (d : Draft) : Read Nat :=
  (readBetween 0 Numeral.maxWord "u64" d).map Int.toNat

/-- Reads the empty value. -/
def readUnit : Draft → Read Unit
  | .null => .ok ()
  | d => d.unexpected "unit"

/-- Reads a value that may be null. -/
def readOptional {α : Type} (read : Draft → Read α) : Draft → Read (Option α)
  | .null => .ok none
  | d => (read d).map some

/-- Reads the name of one of a union's variants. -/
def readVariant (known : List String) : Draft → Read String
  | .string s =>
    if s ∈ known then .ok s else .error (.mismatch (.unknownVariant s known))
  | d => d.unexpected "variant identifier"

end Draft

/-! ## Records -/

/-- A count of elements. -/
def elements (n : Nat) : String := toString n ++ (if n = 1 then " element" else " elements")

/-- How a record of type `ρ` is read, with `σ` for what is known of it in between. -/
structure Record (σ ρ : Type) where
  /-- What a message calls the record. -/
  label : String
  /-- The fields in their order. -/
  fields : List String
  start : σ
  /-- Reads the value of a field. -/
  put : Source → String → Draft → σ → Read σ
  /-- The record, or the first field that it lacks. -/
  finish : σ → Except String ρ

/-- Sets a field that may be given only once. -/
def setOnce {α : Type} (name : String) (old : Option α) (read : Read α) : Read (Option α) :=
  match old with
  | some _ => .error (.mismatch (.duplicateField name))
  | none => read.map some

/-- The value of a field without a default. -/
def require {α : Type} (name : String) : Option α → Except String α
  | some a => .ok a
  | none => .error name

namespace Record

variable {σ ρ : Type}

/-- Reads members one after the other. -/
def putMembers (r : Record σ ρ) (src : Source) : List (Draft × Draft) → σ → Read σ
  | [], s => .ok s
  | (n, d) :: ms, s => do
    let name ← Read.ofFault (Draft.name n)
    if name ∈ r.fields then
      r.putMembers src ms (← r.put src name d s)
    else
      Read.close d.skip
      r.putMembers src ms s

/-- Reads a record from the members of an object. -/
def ofMembers (r : Record σ ρ) (src : Source) (members : List (Draft × Draft))
    (ending : Option Fault) : Read ρ := do
  let s ← r.putMembers src members r.start
  Read.close ending
  match r.finish s with
  | .ok a => .ok a
  | .error name => .error (.mismatch (.missingField name))

/-- Reads fields from the items of an array, as far as both go. -/
def putItems (r : Record σ ρ) (src : Source) : List String → List Draft → σ → Read σ
  | name :: names, d :: ds, s => do r.putItems src names ds (← r.put src name d s)
  | _, _, s => .ok s

/-- The end of an array that lists the fields of a record. -/
def closeItems (r : Record σ ρ) (src : Source) (count : Nat) (ending : Option Fault) : Read Unit :=
  if count ≤ r.fields.length then Read.close ending
  else
    match src with
    | .text _ => .error (.fault .malformed)
    | .value => .error (.mismatch (.invalidLength count "fewer elements in array"))
    | .buffer =>
      .error (.mismatch (.invalidLength count (elements r.fields.length ++ " in sequence")))

/-- Reads a record from the items of an array. -/
def ofItems (r : Record σ ρ) (src : Source) (items : List Draft) (ending : Option Fault) :
    Read ρ := do
  let s ← r.putItems src r.fields items r.start
  if items.length < r.fields.length then Read.close ending
  match r.finish s with
  | .ok a =>
    r.closeItems src items.length ending
    return a
  | .error _ =>
    .error (.mismatch (.invalidLength items.length
      (r.label ++ " with " ++ elements r.fields.length)))

/-- Reads a record. -/
def read (r : Record σ ρ) (src : Source) : Draft → Read ρ
  | .object members ending => do r.ofMembers (← src.enter) members ending
  | .array items ending => do r.ofItems (← src.enter) items ending
  | d => d.unexpected r.label

end Record

/-- The record without fields. -/
def Record.unit {ρ : Type} (label : String) (a : ρ) : Record Unit ρ :=
  { label := label
    fields := []
    start := ()
    put := fun _ _ _ s => .ok s
    finish := fun _ => .ok a }

/-! ## Unions -/

/-- How a union of type `ρ` is read whose variants carry a tag among their members. -/
structure Union (ρ : Type) where
  /-- What a message calls the union. -/
  label : String
  /-- The member that holds the tag. -/
  tag : String
  variants : List String
  /-- Reads the variant of a tag from the other members. -/
  read : String → Draft → Read ρ

namespace Union

variable {ρ : Type}

/-- Looks for the tag among the members of an object and sets the other members aside. -/
def gather (u : Union ρ) (src : Source) :
    List (Draft × Draft) → Option String → List (String × Json) →
      Read (Option String × List (String × Json))
  | [], tag, others => .ok (tag, others)
  | (n, d) :: ms, tag, others => do
    let name ← Read.ofFault (Draft.name n)
    if name = u.tag then
      let tag ← setOnce u.tag tag (d.readVariant u.variants)
      u.gather src ms tag others
    else
      let j ← Read.ofFault (d.settle src.room)
      u.gather src ms tag (others ++ [(name, j)])

/-- Reads a union: the tag is a member of an object or the first item of an array. -/
def ofDraft (u : Union ρ) (src : Source) : Draft → Read ρ
  | .object members ending => do
    let src ← src.enter
    let (tag, others) ← u.gather src members none []
    Read.close ending
    match tag with
    | some t => u.read t (.object (Draft.ofMembers others) none)
    | none => .error (.mismatch (.missingField u.tag))
  | .array items ending => do
    let src ← src.enter
    match items with
    | [] =>
      Read.close ending
      .error (.mismatch (.missingField u.tag))
    | d :: ds =>
      let t ← d.readVariant u.variants
      let others ← Read.ofFault (Draft.settleItems src.room ds)
      Read.close ending
      u.read t (.array (Draft.ofItems others) none)
  | d => d.unexpected ("internally tagged enum " ++ u.label)

end Union

/-! ## Enumerations -/

/-- Reads one of some names, which may also stand as the only member of an object, with null for its
value. -/
def Draft.readEnumerated (known : List String) (src : Source) (d : Draft) : Read String :=
  match d, src with
  | .string s, _ => Draft.readVariant known (.string s)
  | .object members ending, .text _ => do
    let _ ← src.enter
    match members with
    | [] =>
      Read.close ending
      .error (.fault .malformed)
    | (n, v) :: more =>
      let name ← (Draft.string (← Read.ofFault n.name)).readVariant known
      v.readUnit
      if more.isEmpty then Read.close ending else .error (.fault .malformed)
      return name
  | .object [(n, v)] _, _ => do
    let name ← n.readVariant known
    v.readUnit
    return name
  | .object _ _, _ => .error (.mismatch (.invalidValue .map "map with a single key"))
  | .flawed .other _ _, .text _ => .error (.fault .malformed)
  | .flawed _ f _, .text _ => .error (.fault f)
  | _, .text _ => .error (.fault .malformed)
  | d, _ => d.unexpected "string or map"

/-! ## Whole documents -/

/-- Reads a text as a type: what lies behind the value matters only if the value can be read. -/
def Json.readText {α : Type} (read : Source → Draft → Read α) (text : String) : Read α := do
  let (d, trailing) := Draft.ofText text
  let a ← read (.text maxLevels) d
  Read.close trailing
  return a

/-- Reads a finished value as a type. -/
def Json.readValue {α : Type} (read : Source → Draft → Read α) (j : Json) : Read α :=
  read .value (Draft.ofJson j)

end MuxBridge
