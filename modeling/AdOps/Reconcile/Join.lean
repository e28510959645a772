import AdOps.Failure
import AdOps.Issue
import AdOps.Record.Cost
import AdOps.Text.Digit

/-!
# Joining platform records with tracker records

A platform campaign and its tracker campaign have different identifiers. What links them is the name
of the platform campaign, which begins with the tracker's identifier: a run of digits and a space. A
record without that link is reported, or fails the whole join if joins are strict; one whose
counterpart does not exist is left out.
-/

namespace AdOps

/-- The tracker identifier at the front of a name. -/
def joinKey? (name : String) : Option String :=
  let digits := name.toList.takeWhile Text.isDigit
  match name.toList.dropWhile Text.isDigit with
  | ' ' :: _ => if digits.isEmpty then none else some (String.ofList digits)
  | _ => none

/-- What a record without a link does to the join. -/
inductive JoinMode where
  | lenient
  | strict
deriving DecidableEq

structure Joined where
  records : List Record
  issues : List Issue

namespace Reconcile

/-- The counterpart of a key: the first tracker record that holds something and has the key as its
identifier. -/
def counterpart? (tracker : List Record) (key : String) : Option Record :=
  tracker.find? fun t => !t.isEmpty && t.id? == some key

/-- A single empty record stands for a tracker without data. -/
def isPlaceholder (tracker : List Record) : Bool :=
  match tracker with
  | [t] => t.isEmpty
  | _ => false

/-- Joins one platform record: what it adds to the records and to the issues. -/
def joinOne (tracker : List Record) (platform : Platform) (mode : JoinMode) (r : Record) :
    Except Failure Joined :=
  let name := r.name?.getD ""
  match joinKey? name with
  | none =>
    let id := r.id?.getD ""
    match mode with
    | .strict => .error (.unjoinable platform id name)
    | .lenient => .ok ⟨[], [.unjoinable platform id name]⟩
  | some key => .ok ⟨((counterpart? tracker key).map fun t => r.joined (some t)).toList, []⟩

/-- Joins platform records with tracker records, in the order of the platform records. -/
def join (tracker : List Record) (platform : Platform) (mode : JoinMode) (records : List Record) :
    Except Failure Joined :=
  if isPlaceholder tracker then .ok ⟨records, []⟩
  else do
    let parts ← records.mapM (joinOne tracker platform mode)
    return ⟨parts.flatMap (·.records), parts.flatMap (·.issues)⟩

end Reconcile

end AdOps
