import AdOps.NameMap
import AdOps.Number.Layout

/-!
# JSON values

Record fields and fixtures hold JSON values. An integer is kept apart from a floating-point number:
`1` and `1.0` are different values with different texts. A value in *normal form* has the members of
every object strictly sorted by name; `normalize` brings a value into that form, a later member
winning over an earlier one of the same name.
-/

namespace AdOps

inductive JsonNumber where
  /-- An integer that fits 64 bits, signed or unsigned. -/
  | integer (n : Int)
  /-- Any other number; it is finite. -/
  | float (x : Float)
deriving DecidableEq

/-- The number as a floating-point number, rounded to nearest. -/
def JsonNumber.toFloat : JsonNumber → Float
  | .integer n => Number.ofInt n
  | .float x => x

def JsonNumber.text : JsonNumber → String
  | .integer n => Number.integerText n
  | .float x => Number.Layout.json.text x

inductive Json where
  | null
  | bool (b : Bool)
  | number (n : JsonNumber)
  | string (s : String)
  | array (items : List Json)
  | object (members : List (String × Json))

namespace Json

instance : Inhabited Json := ⟨.null⟩

def int (n : Int) : Json := .number (.integer n)

/-- A floating-point number as a JSON value; one that is not finite has no number and becomes
`null`. -/
def ofFloat (x : Float) : Json := if Number.isFinite x then .number (.float x) else .null

def ofMembers (members : List (String × Json)) : Json :=
  .object (NameMap.ofList members).entries

mutual

def normalize : Json → Json
  | .array items => .array (normalizeItems items)
  | .object members => ofMembers (normalizeMembers members)
  | v => v

def normalizeItems : List Json → List Json
  | [] => []
  | v :: vs => v.normalize :: normalizeItems vs

def normalizeMembers : List (String × Json) → List (String × Json)
  | [] => []
  | (k, v) :: rest => (k, v.normalize) :: normalizeMembers rest

end

def members? : Json → Option (List (String × Json))
  | .object members => some members
  | _ => none

def items? : Json → Option (List Json)
  | .array items => some items
  | _ => none

def member? (v : Json) (name : String) : Option Json :=
  v.members?.bind (Entries.find name)

def string? : Json → Option String
  | .string s => some s
  | _ => none

/-- The plain text of a scalar: a string as it stands, a number or a truth value as JSON writes it.
-/
def scalarText? : Json → Option String
  | .string s => some s
  | .number n => some n.text
  | .bool b => some (if b then "true" else "false")
  | _ => none

end Json

end AdOps
