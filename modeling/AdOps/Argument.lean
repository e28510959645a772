import AdOps.NameMap
import AdOps.Number.Layout
import AdOps.Number.Reading
import AdOps.Text.Blank

/-!
# Arguments

A resolved command line is a bag of named arguments. An argument can be looked at as a text, a
number, an integer, a list or a switch; the numeric views also read a text. `Arg.all`, "no filter",
is a value of its own and not the same as an argument that is not there.
-/

namespace AdOps

inductive Arg where
  /-- No filter: every item. -/
  | all
  | text (s : String)
  | list (items : List String)
  | integer (n : Int)
  | number (x : Float)
  /-- A flag without a value that was given. -/
  | switch
deriving DecidableEq

namespace Arg

/-- An empty value counts as absent where a default may take its place. -/
def isEmpty : Arg → Bool
  | .text s => Text.isBlankText s
  | .list items => items.isEmpty
  | _ => false

def text? : Arg → Option String
  | .text s => some s
  | _ => none

def list? : Arg → Option (List String)
  | .list items => some items
  | _ => none

/-- The argument as a number; a text is read. -/
def number? : Arg → Option Float
  | .number x => some x
  | .integer n => some (Number.ofInt n)
  | .text s => Number.float? (Text.trim s)
  | _ => none

/-- The argument as an integer of 64 bits; a text is read, and a whole number is brought into the
range. -/
def integer? : Arg → Option Int
  | .integer n => some n
  | .number x => (Number.whole? x).map Number.clampInt64
  | .text s => Number.integer? (Text.trim s)
  | _ => none

def display : Arg → String
  | .all => "None"
  | .text s => s
  | .list items => ",".intercalate items
  | .integer n => Number.integerText n
  | .number x => Number.Layout.argument.text x
  | .switch => "true"

end Arg

abbrev Arguments := NameMap Arg

namespace Arguments

/-- A name that is missing or holds an empty value. -/
def isAbsent (args : Arguments) (name : String) : Bool :=
  match args.get? name with
  | none => true
  | some a => a.isEmpty

def isAll (args : Arguments) (name : String) : Bool := args.get? name == some .all

def text? (args : Arguments) (name : String) : Option String := (args.get? name).bind Arg.text?

def number? (args : Arguments) (name : String) : Option Float := (args.get? name).bind Arg.number?

def integer? (args : Arguments) (name : String) : Option Int := (args.get? name).bind Arg.integer?

def list? (args : Arguments) (name : String) : Option (List String) :=
  (args.get? name).bind Arg.list?

def switch (args : Arguments) (name : String) : Bool := args.get? name == some .switch

end Arguments

end AdOps
