import AdOps.Json.Reader
import AdOps.Json.Writer
import AdOps.Message.Chunk
import AdOps.Record

/-!
# Values as text

A record is written as lines `field: value`, its identifier and name first. A list is written item
by item, with blank lines between. A text that holds a JSON object or array is decoded first, and
so are the texts inside an array; any other text stays as it is.
-/

namespace AdOps.Message

def leadingFields : List String := ["id", "name"]

/-- A value behind its field name: a string as it stands, anything else as JSON. -/
def scalarText : Json → String
  | .string s => s
  | v => v.render

/-- The fields of a record in the order in which they are listed. -/
def listed (r : Record) : List (String × Json) :=
  leadingFields.filterMap (fun k => (r.get? k).map (k, ·))
    ++ r.entries.filter fun e => !leadingFields.contains e.1

def recordText (r : Record) : String :=
  "\n".intercalate ((listed r).map fun e => e.1 ++ ": " ++ scalarText e.2)

mutual

/-- A value as text; texts are decoded at most `depth` times within one another. -/
def valueTextWithin (depth : Nat) (v : Json) : String :=
  match v with
  | .string s =>
    match depth with
    | 0 => s
    | depth + 1 =>
      match Json.parse s with
      | some (.object members) => recordText (NameMap.ofList members)
      | some (.array items) => blockJoiner.intercalate (itemTexts depth items)
      | _ => s
  | .object members => recordText (NameMap.ofList members)
  | .array items => blockJoiner.intercalate (itemTexts depth items)
  | v => scalarText v
termination_by (depth, sizeOf v)

def itemTexts (depth : Nat) (items : List Json) : List String :=
  match items with
  | [] => []
  | v :: vs => valueTextWithin depth v :: itemTexts depth vs
termination_by (depth, sizeOf items)

end

mutual

/-- The length of the longest text that a value holds outside of objects. -/
def textSize : Json → Nat
  | .string s => s.length
  | .array items => textSizes items
  | _ => 0

def textSizes : List Json → Nat
  | [] => 0
  | v :: vs => max (textSize v) (textSizes vs)

end

/-- A value as text. A text that was decoded from another is shorter, so that the length of the
longest one bounds how often texts are decoded. -/
def valueText (v : Json) : String := valueTextWithin (textSize v + 1) v

end AdOps.Message
