/-
# Values that meet published schemas

When a JSON value meets a published schema, for the keywords of JSON Schema 2020-12 that the schemas
of messages use; all other keywords are annotations, which nothing has to meet. Schemas may refer to
each other, so a value is judged to some depth, and it meets a document if every deep enough look
finds that it does.

* `Json.satisfies`: what a single keyword asks for;
* `Json.Meets`: when a value meets a document;
* `Schema.admits`: the same, read off a schema before it is published;
* `Schema.lookup_definitions`: a document defines every name that the schema refers to;
* `Schema.meets_document_iff`: a value meets the published document exactly if the schema admits it.
-/
import Mathlib.Data.List.TakeWhile
import MuxBridge.Schema.Basic

namespace MuxBridge

/-! ## Documents -/

namespace Json

/-- Whether a value has a primitive type. -/
def hasType (j : Json) (type : String) : Bool :=
  match j with
  | .null => type == "null"
  | .bool _ => type == "boolean"
  | .number (.int _) => type == "integer" || type == "number"
  | .number (.float _) => type == "number"
  | .string _ => type == "string"
  | .array _ => type == "array"
  | .object _ => type == "object"

/-- Whether a value is the string that a part of a keyword is. -/
def isText (j : Json) : Json → Bool
  | .string v =>
    match j with
    | .string s => s == v
    | _ => false
  | _ => false

/-- Whether a value has the primitive type that a part of a keyword names. -/
def hasNamedType (j : Json) : Json → Bool
  | .string type => j.hasType type
  | _ => false

/-- Whether an object has the member that a part of a keyword names. -/
def hasNamedMember (members : List (String × Json)) : Json → Bool
  | .string name => (members.lookup name).isSome
  | _ => false

/-- The definition to which a reference leads. -/
def resolve? (defs : List (String × Json)) (reference : String) : Option Json :=
  (defs.map fun d => ("#/$defs/" ++ d.1, d.2)).lookup reference

/-- Whether a value satisfies a keyword, where the schemas inside are left to a judge. -/
def satisfies (judge : Json → Json → Bool) (defs : List (String × Json)) (j : Json) :
    String × Json → Bool
  | ("type", .array types) => types.any j.hasNamedType
  | ("type", type) => j.hasNamedType type
  -- the schemas of messages have no other constants than strings
  | ("const", value) => j.isText value
  | ("items", s) =>
    match j with
    | .array items => items.all (judge s)
    | _ => true
  | ("properties", .object properties) =>
    match j with
    | .object members => properties.all fun p => (members.lookup p.1).all (judge p.2)
    | _ => true
  | ("required", .array names) =>
    match j with
    | .object members => names.all (hasNamedMember members)
    | _ => true
  | ("oneOf", .array ss) => ss.countP (judge · j) == 1
  | ("anyOf", .array ss) => ss.any (judge · j)
  | ("$ref", .string reference) => (resolve? defs reference).any (judge · j)
  | _ => true

/-- Whether a value meets a schema, as far as a look of some depth tells. -/
def judge (defs : List (String × Json)) : Nat → Json → Json → Bool
  | n + 1, .object keywords, j => keywords.all (satisfies (judge defs n) defs j)
  | _, .bool b, _ => b
  | _, _, _ => false

/-- The definitions in a document. -/
def defs (document : Json) : List (String × Json) :=
  match document.member? "$defs" with
  | some (.object ds) => ds
  | _ => []

/-- A value meets a document: every deep enough look finds that it does. -/
def Meets (j document : Json) : Prop :=
  ∃ n, ∀ m, n ≤ m → judge document.defs m document j = true

end Json

/-! ## Schemas -/

namespace Schema

mutual

/-- Whether a schema admits a value. -/
def admits : Schema → Json → Bool
  | .string, j => j.hasType "string"
  | .boolean, j => j.hasType "boolean"
  | .stringOrNull, j => j.hasType "string" || j.hasType "null"
  | .constant v, j => j.isText (.string v)
  | .array s, .array items => items.all s.admits
  | .array _, _ => false
  | .object ms, .object members => admitsMembers ms members
  | .object _, _ => false
  | .oneOf ss, j => countAdmitting ss j == 1
  | .nullable s, j => s.admits j || j.hasType "null"
  | .named _ s, j => s.admits j
  | .described _ s, j => s.admits j
  | .defaulted _ s, j => s.admits j

/-- Whether the schemas of members admit the members of an object. -/
def admitsMembers : List (String × Bool × Schema) → List (String × Json) → Bool
  | [], _ => true
  | (name, needed, s) :: ms, members =>
    (match members.lookup name with
      | some j => s.admits j
      | none => !needed) && admitsMembers ms members

/-- How many of some schemas admit a value. -/
def countAdmitting : List Schema → Json → Nat
  | [], _ => 0
  | s :: ss, j => (s.admits j).toNat + countAdmitting ss j

end

mutual

/-- How deep one has to look to judge a value by the keywords of a schema. -/
def depth : Schema → Nat
  | .string | .boolean | .stringOrNull | .constant _ => 1
  | .array s | .nullable s | .named _ s => s.depth + 1
  | .object ms => memberDepth ms + 1
  | .oneOf ss => choiceDepth ss + 1
  | .described _ s | .defaulted _ s => s.depth

/-- How deep one has to look to judge members. -/
def memberDepth : List (String × Bool × Schema) → Nat
  | [] => 0
  | (_, _, s) :: ms => max s.depth (memberDepth ms)

/-- How deep one has to look to judge choices. -/
def choiceDepth : List Schema → Nat
  | [] => 0
  | s :: ss => max s.depth (choiceDepth ss)

end

theorem depth_pos : (s : Schema) → 0 < s.depth
  | .string | .boolean | .stringOrNull | .constant _ => Nat.one_pos
  | .array _ | .nullable _ | .named _ _ | .object _ | .oneOf _ => Nat.succ_pos _
  | .described _ s | .defaulted _ s => s.depth_pos

/-! ## Keywords -/

section Keywords

variable {look : Json → Json → Bool} {defs : List (String × Json)}

attribute [local simp] Json.satisfies

theorem satisfies_type (type : String) (j : Json) :
    Json.satisfies look defs j ("type", .string type) = j.hasType type := by
  simp [Json.hasNamedType]

theorem satisfies_types (type type' : String) (j : Json) :
    Json.satisfies look defs j ("type", .array [.string type, .string type'])
      = (j.hasType type || j.hasType type') := by
  simp [Json.hasNamedType]

theorem satisfies_const (value j : Json) :
    Json.satisfies look defs j ("const", value) = j.isText value := by
  simp

theorem satisfies_items (s j : Json) : Json.satisfies look defs j ("items", s)
    = match j with | .array items => items.all (look s) | _ => true := by
  simp

theorem satisfies_properties (properties : List (String × Json)) (j : Json) :
    Json.satisfies look defs j ("properties", .object properties)
      = match j with
        | .object members => properties.all fun p => (members.lookup p.1).all (look p.2)
        | _ => true := by
  simp

theorem satisfies_required (names : List Json) (j : Json) :
    Json.satisfies look defs j ("required", .array names)
      = match j with
        | .object members => names.all (Json.hasNamedMember members)
        | _ => true := by
  simp

theorem satisfies_oneOf (ss : List Json) (j : Json) :
    Json.satisfies look defs j ("oneOf", .array ss) = (ss.countP (look · j) == 1) := by
  simp

theorem satisfies_anyOf (ss : List Json) (j : Json) :
    Json.satisfies look defs j ("anyOf", .array ss) = ss.any (look · j) := by
  simp

theorem satisfies_ref (reference : String) (j : Json) :
    Json.satisfies look defs j ("$ref", .string reference)
      = (Json.resolve? defs reference).any (look · j) := by
  simp

/-- The keywords of published schemas that ask for nothing. -/
def annotations : List String := ["$schema", "title", "description", "default", "$defs"]

theorem satisfies_annotation {keyword : String} (h : keyword ∈ annotations) (value j : Json) :
    Json.satisfies look defs j (keyword, value) = true := by
  simp only [annotations, List.mem_cons, List.not_mem_nil, or_false] at h
  rcases h with rfl | rfl | rfl | rfl | rfl <;> simp

end Keywords

section Judging

variable {defs : List (String × Json)}

theorem judge_succ (n : Nat) (keywords : List (String × Json)) (j : Json) :
    Json.judge defs (n + 1) (.object keywords) j
      = keywords.all (Json.satisfies (Json.judge defs n) defs j) := rfl

/-- The definitions of a document are those of some named schemas. -/
def Defines (defs : List (String × Json)) (refs : List (String × Schema)) : Prop :=
  ∀ r ∈ refs, Json.resolve? defs ("#/$defs/" ++ r.1) = some (.object r.2.keywords)

mutual

/-- A deep enough look at the keywords of a schema tells whether the schema admits a value. -/
theorem judge_keywords : (s : Schema) → Defines defs s.references → ∀ n, s.depth ≤ n →
    ∀ j, Json.judge defs n (.object s.keywords) j = s.admits j
  | _, _, 0, hn, _ => absurd hn (Nat.not_le.mpr (depth_pos _))
  | .string, _, n + 1, _, j => by
    simp [judge_succ, keywords, typeKeyword, satisfies_type, admits]
  | .boolean, _, n + 1, _, j => by
    simp [judge_succ, keywords, typeKeyword, satisfies_type, admits]
  | .stringOrNull, _, n + 1, _, j => by
    simp [judge_succ, keywords, satisfies_types, admits]
  | .constant v, _, n + 1, _, j => by
    simp only [judge_succ, keywords, typeKeyword, List.all_cons, List.all_nil, satisfies_type,
      satisfies_const, admits, Bool.and_true]
    cases j with
    | null | bool | string | array | object => rfl
    | number n => cases n <;> rfl
  | .array s, hrefs, n + 1, hn, j => by
    have hs := judge_keywords s hrefs n (Nat.le_of_succ_le_succ hn)
    simp only [judge_succ, keywords, typeKeyword, List.all_cons, List.all_nil, satisfies_type,
      satisfies_items, Bool.and_true]
    cases j with
    | array items => simp [admits, Json.hasType, funext hs]
    | null | bool | string | object => rfl
    | number n => cases n <;> rfl
  | .object ms, hrefs, n + 1, hn, j => by
    have hs := judge_memberKeywords ms hrefs n (Nat.le_of_succ_le_succ hn)
    simp only [judge_succ, keywords, typeKeyword, List.all_cons, List.all_nil, satisfies_type,
      satisfies_properties, satisfies_required, Bool.and_true]
    cases j with
    | object members => simpa [admits, Json.hasType] using hs members
    | null | bool | string | array => rfl
    | number n => cases n <;> rfl
  | .oneOf ss, hrefs, n + 1, hn, j => by
    have hss := judge_choiceKeywords ss hrefs n (Nat.le_of_succ_le_succ hn) j
    simp only [judge_succ, keywords, List.all_cons, List.all_nil, satisfies_oneOf, hss, admits,
      Bool.and_true]
  | .nullable s, hrefs, n + 1, hn, j => by
    have hle : s.depth ≤ n := Nat.le_of_succ_le_succ hn
    have hs := judge_keywords s hrefs n hle j
    -- a look that is deep enough for the schema is deep enough for null
    obtain ⟨k, rfl⟩ := Nat.exists_eq_add_of_le' (Nat.le_trans s.depth_pos hle)
    have hnull : Json.judge defs (k + 1) (.object [typeKeyword "null"]) j = j.hasType "null" := by
      simp [judge_succ, typeKeyword, satisfies_type]
    simp only [judge_succ (k + 1), keywords, List.all_cons, List.all_nil, satisfies_anyOf,
      List.any_cons, List.any_nil, hs, hnull, admits, Bool.and_true, Bool.or_false]
  | .named name s, hrefs, n + 1, hn, j => by
    have hs := judge_keywords s (fun r hr => hrefs r (List.mem_cons_of_mem _ hr)) n
      (Nat.le_of_succ_le_succ hn) j
    have hname := hrefs (name, s) List.mem_cons_self
    simp only [judge_succ, keywords, List.all_cons, List.all_nil, satisfies_ref, hname,
      Option.any_some, hs, admits, Bool.and_true]
  | .described t s, hrefs, n + 1, hn, j => by
    have hs := judge_keywords s hrefs (n + 1) hn j
    rw [keywords, judge_succ, List.all_cons, satisfies_annotation (by decide), Bool.true_and,
      ← judge_succ, hs, admits]
  | .defaulted v s, hrefs, n + 1, hn, j => by
    have hs := judge_keywords s hrefs (n + 1) hn j
    rw [keywords, judge_succ, List.all_cons, satisfies_annotation (by decide), Bool.true_and,
      ← judge_succ, hs, admits]

/-- So it does for the members of an object. -/
theorem judge_memberKeywords : (ms : List (String × Bool × Schema)) →
    Defines defs (memberReferences ms) → ∀ n, memberDepth ms ≤ n → ∀ members,
    ((memberKeywords ms).all (fun p => (members.lookup p.1).all (Json.judge defs n p.2)) &&
      ((ms.filter (·.2.1)).map fun m => Json.string m.1).all (Json.hasNamedMember members))
      = admitsMembers ms members
  | [], _, _, _, _ => by
    simp [memberKeywords, admitsMembers]
  | (name, needed, s) :: ms, hrefs, n, hn, members => by
    have hs := judge_keywords s (fun r hr => hrefs r (List.mem_append_left _ hr)) n
      (Nat.le_trans (Nat.le_max_left _ _) hn)
    have hms := judge_memberKeywords ms (fun r hr => hrefs r (List.mem_append_right _ hr)) n
      (Nat.le_trans (Nat.le_max_right _ _) hn) members
    rw [admitsMembers, ← hms]
    -- whether the member is needed matters only where it is missing
    cases hlookup : members.lookup name with
    | none => cases needed <;> simp [memberKeywords, hlookup, Json.hasNamedMember]
    | some j =>
      cases needed <;>
        simp [memberKeywords, hlookup, Json.hasNamedMember, hs j, Bool.and_assoc]

/-- So it does for choices. -/
theorem judge_choiceKeywords : (ss : List Schema) → Defines defs (choiceReferences ss) →
    ∀ n, choiceDepth ss ≤ n → ∀ j,
    (choiceKeywords ss).countP (Json.judge defs n · j) = countAdmitting ss j
  | [], _, _, _, _ => rfl
  | s :: ss, hrefs, n, hn, j => by
    have hs := judge_keywords s (fun r hr => hrefs r (List.mem_append_left _ hr)) n
      (Nat.le_trans (Nat.le_max_left _ _) hn) j
    have hss := judge_choiceKeywords ss (fun r hr => hrefs r (List.mem_append_right _ hr)) n
      (Nat.le_trans (Nat.le_max_right _ _) hn) j
    rw [choiceKeywords, List.countP_cons, hss, hs, countAdmitting, Nat.add_comm]
    cases s.admits j <;> rfl

end

end Judging

/-! ## Definitions -/

theorem lookup_filter_ne {α β : Type} [BEq α] [LawfulBEq α] {a b : α} (h : a ≠ b)
    (l : List (α × β)) : (l.filter (·.1 != b)).lookup a = l.lookup a := by
  induction l with
  | nil => rfl
  | cons p l ih =>
    obtain ⟨c, x⟩ := p
    by_cases hc : c = b
    · subst hc
      simp [List.lookup_cons, beq_eq_false_iff_ne.mpr h, ih]
    · simp [List.lookup_cons, hc, ih]

/-- A document defines every name as its first reference does. -/
theorem lookup_definitions (refs : List (String × Schema)) (name : String) :
    (definitions refs).lookup name = (refs.lookup name).map fun s => .object s.keywords := by
  induction refs with
  | nil => rfl
  | cons r refs ih =>
    obtain ⟨n, s⟩ := r
    have hcons : definitions ((n, s) :: refs) = (definitions refs).takeWhile (·.1 < n) ++
        (n, .object s.keywords) :: ((definitions refs).dropWhile (·.1 < n)).filter (·.1 != n) :=
      rfl
    rw [hcons, List.lookup_append, List.lookup_cons, List.lookup_cons]
    by_cases hname : name = n
    · -- all names in front of it are smaller
      subst hname
      have hsmaller : ((definitions refs).takeWhile (·.1 < name)).lookup name = none := by
        rw [List.lookup_eq_none_iff]
        intro p hp
        have hlt : p.1 < name := by simpa using List.mem_takeWhile_imp hp
        rw [bne_iff_ne]
        intro heq
        rw [← heq] at hlt
        exact String.lt_irrefl name hlt
      rw [hsmaller]
      simp
    · have hne : (name == n) = false := by simpa using hname
      rw [hne, lookup_filter_ne hname, ← List.lookup_append, List.takeWhile_append_dropWhile, ih]

/-- A reference leads to the definition of its name. -/
theorem resolve?_ref (defs : List (String × Json)) (name : String) :
    Json.resolve? defs ("#/$defs/" ++ name) = defs.lookup name := by
  induction defs with
  | nil => rfl
  | cons d defs ih =>
    obtain ⟨n, s⟩ := d
    have hkey : ("#/$defs/" ++ name == "#/$defs/" ++ n) = (name == n) := by
      rw [Bool.eq_iff_iff, beq_iff_eq, beq_iff_eq, String.append_right_inj]
    simp only [Json.resolve?, List.map_cons, List.lookup_cons, hkey]
    cases name == n with
    | true => rfl
    | false => exact ih

/-! ## Published documents -/

/-- A schema refers to no two types under one name. -/
def Coherent (s : Schema) : Prop := ∀ r ∈ s.references, s.references.lookup r.1 = some r.2

theorem Coherent.defines {s : Schema} (h : s.Coherent) :
    Defines (definitions s.references) s.references := by
  intro r hr
  rw [resolve?_ref, lookup_definitions, h r hr]
  rfl

/-- No keyword of a schema stands for definitions. -/
theorem lookup_keywords_defs : (s : Schema) → s.keywords.lookup "$defs" = none
  | .string | .boolean | .stringOrNull | .constant _ | .array _ | .object _ | .oneOf _
  | .nullable _ | .named _ _ => by
    simp [keywords, typeKeyword, List.lookup_cons]
  | .described _ s | .defaulted _ s => by
    simpa [keywords, List.lookup_cons] using s.lookup_keywords_defs

theorem defs_document (s : Schema) (name : String) :
    (s.document name).defs = definitions s.references := by
  have hlookup : (s.document name).member? "$defs"
      = if (definitions s.references).isEmpty then none
        else some (.object (definitions s.references)) := by
    simp only [document, Json.member?, List.append_assoc, List.lookup_append, lookup_keywords_defs]
    cases (definitions s.references).isEmpty <;> simp [List.lookup_cons]
  unfold Json.defs
  rw [hlookup]
  cases hdefs : definitions s.references <;> rfl

/-- Of the keywords of a document, only those of the schema ask for anything. -/
theorem judge_document (s : Schema) (name : String) (defs : List (String × Json)) (n : Nat)
    (j : Json) :
    Json.judge defs n (s.document name) j = Json.judge defs n (.object s.keywords) j := by
  cases n with
  | zero => rfl
  | succ n =>
    have hann : ∀ keyword ∈ annotations, ∀ value,
        Json.satisfies (Json.judge defs n) defs j (keyword, value) = true :=
      fun _ hkeyword value => satisfies_annotation hkeyword value j
    simp only [document, judge_succ, List.all_append, List.all_cons, List.all_nil,
      hann "$schema" (by decide), hann "title" (by decide), Bool.true_and]
    split
    · rw [List.all_nil, Bool.and_true]
    · rw [List.all_cons, List.all_nil, hann "$defs" (by decide), Bool.true_and, Bool.and_true]

/-- A value meets the published document of a schema exactly if the schema admits it. -/
theorem meets_document_iff {s : Schema} (h : s.Coherent) (name : String) (j : Json) :
    j.Meets (s.document name) ↔ s.admits j = true := by
  have hjudge : ∀ n, s.depth ≤ n →
      Json.judge (s.document name).defs n (s.document name) j = s.admits j := by
    intro n hn
    rw [defs_document, judge_document]
    exact judge_keywords s h.defines n hn j
  constructor
  -- deeper than both, the look that is given and the one that decides are the same
  · rintro ⟨n, hn⟩
    rw [← hjudge (max n s.depth) (Nat.le_max_right _ _)]
    exact hn _ (Nat.le_max_left _ _)
  · intro hadmits
    exact ⟨s.depth, fun n hn => (hjudge n hn).trans hadmits⟩

end Schema

end MuxBridge
