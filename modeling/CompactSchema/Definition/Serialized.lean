import CompactSchema.Definition.Basic
import CompactSchema.Json.Outline
import CompactSchema.Json.Writer

set_option autoImplicit false

/-!
# Serialized definitions

A definition is kept as a document: an object with one entry, named for the kind of definition.
Reading passes over entries with unknown names and takes a list of all fields in order for an
object. A bound that is not finite is written as `null` and is not read back.
-/

namespace CompactSchema

namespace Json

mutual

def depth : Json → Nat
  | array items => itemsDepth items + 1
  | object entries => entriesDepth entries + 1
  | _ => 0

def itemsDepth : List Json → Nat
  | [] => 0
  | item :: items => max item.depth (itemsDepth items)

def entriesDepth : List (String × Json) → Nat
  | [] => 0
  | (_, value) :: entries => max value.depth (entriesDepth entries)

end

def tagged (name : String) (value : Json) : Json := object [(name, value)]

end Json

namespace Keyword

def serialName : Keyword → String
  | int => "Int"
  | double => "Double"
  | bool => "Bool"
  | string => "String"
  | byte => "Byte"
  | date => "Date"
  | datetime => "DateTime"
  | time => "Time"

def toJson (k : Keyword) : Json := .string k.serialName

/-- A name, alone or as the name of an entry without a value. -/
def ofOutline? : Outline → Option Keyword
  | .string (some name) => all.find? (·.serialName = name)
  | .object [(some name, .null)] => all.find? (·.serialName = name)
  | _ => none

end Keyword

namespace Bound

def toJson : Bound → Json
  | int i => .tagged "INT" (.number (.whole i.toInt))
  | float x => .tagged "FLOAT" (if x.isFinite then .number (.float x) else .null)

def ofOutline? (o : Outline) : Option Bound := do
  let (name, value) ← o.tagged?
  match name with
  | "INT" => (value.int64?).map int
  | "FLOAT" => (value.binary64?).map float
  | _ => none

def toJson? : Option Bound → Json
  | some b => b.toJson
  | none => .null

/-- A bound that may be absent: without a field or with the field `null`. -/
def ofField? : Option Outline → Option (Option Bound)
  | none | some .null => some none
  | some o => (ofOutline? o).map some

end Bound

namespace Range

def toJson (r : Range) : Json :=
  .object
    [("keyword", r.keyword.toJson), ("minimum", Bound.toJson? r.minimum),
      ("maximum", Bound.toJson? r.maximum)]

def ofOutline? (o : Outline) : Option Range := do
  match ← o.fields? ["keyword", "minimum", "maximum"] with
  | [keyword, minimum, maximum] =>
    some ⟨← Keyword.ofOutline? (← keyword), ← Bound.ofField? minimum, ← Bound.ofField? maximum⟩
  | _ => none

end Range

namespace Flags

def toJson (f : Flags) : Json :=
  .object
    [("global", .bool f.everywhere), ("case_insensitive", .bool f.ignoreCase),
      ("multiline", .bool f.multiline)]

def ofOutline? (o : Outline) : Option Flags := do
  match ← o.fields? ["global", "case_insensitive", "multiline"] with
  | [everywhere, ignoreCase, multiline] =>
    some ⟨← (← everywhere).bool?, ← (← ignoreCase).bool?, ← (← multiline).bool?⟩
  | _ => none

end Flags

namespace PatternLiteral

def toJson (p : PatternLiteral) : Json :=
  .object [("pattern", .string p.body), ("flags", p.flags.toJson)]

def ofOutline? (o : Outline) : Option PatternLiteral := do
  match ← o.fields? ["pattern", "flags"] with
  | [body, flags] => some ⟨← (← body).string?, ← Flags.ofOutline? (← flags)⟩
  | _ => none

end PatternLiteral

namespace Member

def entries (name : String) (optional : Bool) (value : Json) : Json :=
  .object [("name", .string name), ("optional", .bool optional), ("value", value)]

def ofOutline? {α : Type} (value? : Outline → Option α) (o : Outline) : Option (Member α) := do
  match ← o.fields? ["name", "optional", "value"] with
  | [name, optional, value] =>
    some ⟨← (← name).string?, ← (← optional).bool?, ← value? (← value)⟩
  | _ => none

end Member

namespace Definition

mutual

def toJson : Definition → Json
  | primitive keyword => .tagged "Primitive" keyword.toJson
  | range r => .tagged "Range" r.toJson
  | pattern literal => .tagged "RegularExpression" literal.toJson
  | object members => .tagged "Object" (.tagged "members" (.array (membersToJson members)))
  | enumeration values =>
    .tagged "Enumeration"
      (.tagged "values" (.array (values.map fun i => .number (.whole i.toInt))))
  | array element => .tagged "Array" (.tagged "element" (elementToJson element))

def membersToJson : List (Member Definition) → List Json
  | [] => []
  | ⟨name, optional, value⟩ :: members =>
    Member.entries name optional value.toJson :: membersToJson members

def elementToJson : Option Definition → Json
  | none => .null
  | some element => element.toJson

end

/-- The single field of an object, or of a list that holds just it. -/
def soleField? (name : String) (o : Outline) : Option (Option Outline) := do
  match ← o.fields? [name] with
  | [value] => some value
  | _ => none

def ofOutlineWithin : Nat → Outline → Option Definition
  | 0, _ => none
  | depth + 1, o => do
    let (name, content) ← o.tagged?
    match name with
    | "Primitive" => (Keyword.ofOutline? content).map primitive
    | "Range" => (Range.ofOutline? content).map range
    | "RegularExpression" => (PatternLiteral.ofOutline? content).map pattern
    | "Object" =>
      let members ← (← ← soleField? "members" content).list?
      (members.mapM (Member.ofOutline? (ofOutlineWithin depth))).map object
    | "Enumeration" =>
      let values ← (← ← soleField? "values" content).list?
      (values.mapM Outline.int64?).map enumeration
    | "Array" =>
      match ← soleField? "element" content with
      | none | some .null => some (array none)
      | some element => (ofOutlineWithin depth element).map fun d => array (some d)
    | _ => none

/-- Reads a definition. An outline of a text is not as deep as to need more definitions inside of
    one another. -/
def ofOutline? (o : Outline) : Option Definition := ofOutlineWithin (Json.depthLimit + 1) o

def serialize (d : Definition) : String := d.toJson.text

def deserialize? (text : String) : Option Definition := do ofOutline? (← Outline.ofText? text)

end Definition

end CompactSchema
