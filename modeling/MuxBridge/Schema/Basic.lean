/-
# Schemas

Descriptions of the JSON values that a type of message admits, and the document that publishes one:
`Schema.document` names the type, spells out its schema, and defines every other named type that the
schema refers to.
-/
import MuxBridge.Json.Basic

namespace MuxBridge

/-- A description of JSON values. -/
inductive Schema where
  | string
  | boolean
  /-- Strings and null. -/
  | stringOrNull
  /-- One string. -/
  | constant (value : String)
  | array (items : Schema)
  /-- Objects with these members, of which the ones marked `true` must not be missing. -/
  | object (members : List (String × Bool × Schema))
  /-- The values of exactly one of some schemas. -/
  | oneOf (choices : List Schema)
  /-- The values of a schema, and null. -/
  | nullable (s : Schema)
  /-- The values of a type with a name and a schema of its own. -/
  | named (name : String) (body : Schema)
  /-- A schema with a text for readers. -/
  | described (text : String) (s : Schema)
  /-- A schema with the value that a missing member has. -/
  | defaulted (value : Json) (s : Schema)
  deriving Repr

namespace Schema

/-- The keyword for the primitive type of a value. -/
def typeKeyword (name : String) : String × Json := ("type", .string name)

mutual

/-- The keywords of a schema. A named type is only referred to. -/
def keywords : Schema → List (String × Json)
  | .string => [typeKeyword "string"]
  | .boolean => [typeKeyword "boolean"]
  | .stringOrNull => [("type", .array [.string "string", .string "null"])]
  | .constant v => [typeKeyword "string", ("const", .string v)]
  | .array s => [typeKeyword "array", ("items", .object s.keywords)]
  | .object ms =>
    [typeKeyword "object", ("properties", .object (memberKeywords ms)),
      ("required", .array ((ms.filter (·.2.1)).map fun m => .string m.1))]
  | .oneOf ss => [("oneOf", .array (choiceKeywords ss))]
  | .nullable s => [("anyOf", .array [.object s.keywords, .object [typeKeyword "null"]])]
  | .named n _ => [("$ref", .string ("#/$defs/" ++ n))]
  | .described t s => ("description", .string t) :: s.keywords
  | .defaulted v s => ("default", v) :: s.keywords

/-- The schemas of members under their names. -/
def memberKeywords : List (String × Bool × Schema) → List (String × Json)
  | [] => []
  | (name, _, s) :: ms => (name, .object s.keywords) :: memberKeywords ms

/-- The schemas of choices. -/
def choiceKeywords : List Schema → List Json
  | [] => []
  | s :: ss => .object s.keywords :: choiceKeywords ss

end

mutual

/-- The named types that a schema refers to, directly or through others. -/
def references : Schema → List (String × Schema)
  | .string | .boolean | .stringOrNull | .constant _ => []
  | .array s | .nullable s | .described _ s | .defaulted _ s => s.references
  | .object ms => memberReferences ms
  | .oneOf ss => choiceReferences ss
  | .named n s => (n, s) :: s.references

/-- The named types that the schemas of members refer to. -/
def memberReferences : List (String × Bool × Schema) → List (String × Schema)
  | [] => []
  | (_, _, s) :: ms => s.references ++ memberReferences ms

/-- The named types that choices refer to. -/
def choiceReferences : List Schema → List (String × Schema)
  | [] => []
  | s :: ss => s.references ++ choiceReferences ss

end

/-- The first definition of every name, sorted by name. -/
def definitions (refs : List (String × Schema)) : List (String × Json) :=
  refs.foldr
    (fun (n, s) ds => (ds.takeWhile (·.1 < n)) ++
      (n, .object s.keywords) :: (ds.dropWhile (·.1 < n)).filter (·.1 != n)) []

/-- The document that publishes the schema of a type under its name. -/
def document (name : String) (s : Schema) : Json :=
  let defs := definitions s.references
  .object ([("$schema", .string "https://json-schema.org/draft/2020-12/schema"),
      ("title", .string name)] ++ s.keywords ++
    if defs.isEmpty then [] else [("$defs", .object defs)])

end Schema

end MuxBridge
