import AdOps.Record

/-!
# Merging records on a key

Two lists of records are merged on the text of a key field. Records with the same key are combined
field by field: numbers on both sides are added, and of any other two values the left one stays.
-/

namespace AdOps

inductive KeyedMerge where
  | common
  /-- Common keys, then those on the left only, then those on the right only. -/
  | outer
deriving DecidableEq

namespace Reconcile

/-- The sum of two numbers, as an integer if it is whole and lies within 64 bits. -/
def sum (a b : Float) : Json :=
  let total := a + b
  match Number.whole? total with
  | some n => if n.natAbs < 9223372036854775808 then Json.int n else Json.ofFloat total
  | none => Json.ofFloat total

/-- The value of a field of the combined record, from the left value and the right one. -/
def combineValue (left : Json) (right : Option Json) : Json :=
  match left, right with
  | .number a, some (.number b) => sum a.toFloat b.toFloat
  | v, _ => v

def combine (key : String) (left right : Record) : Record :=
  left.entries.foldl (fun acc e =>
    acc.insert e.1 (if e.1 = key then e.2 else combineValue e.2 (right.get? e.1))) right

def withKey? (records : List Record) (key text : String) : Option Record :=
  records.find? fun r => r.text? key == some text

/-- A left record together with the first right record of its key. -/
def matched? (key : String) (right : List Record) (l : Record) : Option Record :=
  (l.text? key).bind fun k => (withKey? right key k).map (combine key l)

/-- Whether the record has a key that the other side lacks. -/
def isAlone (key : String) (others : List Record) (r : Record) : Bool :=
  match r.text? key with
  | none => false
  | some k => (withKey? others key k).isNone

/-- Merges two lists on a key. Records without it count for nothing. -/
def mergeOn (key : String) (mode : KeyedMerge) (left right : List Record) : List Record :=
  let common := left.filterMap (matched? key right)
  match mode with
  | .common => common
  | .outer => common ++ left.filter (isAlone key right) ++ right.filter (isAlone key left)

end Reconcile

end AdOps
