import AdOps.Json.Basic
import AdOps.Number.Reading
import AdOps.Text.Blank

/-!
# Records

A record is one row of data: a campaign, a widget, a source, or the stats of one of these. It maps
field names to JSON values. A field can be looked at as a text, if it is a scalar, and as a number,
if it is one or spells one.
-/

namespace AdOps

abbrev Record := NameMap Json

namespace Record

def text? (r : Record) (field : String) : Option String := (r.get? field).bind Json.scalarText?

def id? (r : Record) : Option String := r.text? "id"

/-- The name of the row, if it is a string. -/
def name? (r : Record) : Option String := (r.get? "name").bind Json.string?

def number? (r : Record) (field : String) : Option Float :=
  match r.get? field with
  | some (.number n) => some n.toFloat
  | some (.string s) => Number.float? (Text.trim s)
  | _ => none

def firstNumber? (r : Record) (fields : List String) : Option Float := fields.findSome? r.number?

def toJson (r : Record) : Json := .object r.entries

def ofJson? (v : Json) : Option Record := v.members?.map NameMap.ofList

end Record

end AdOps
