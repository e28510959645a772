import AdOps.Record

/-!
# Cost per acquisition

Platforms and tracker use different names for what a row cost and for how often it converted. The
cost per acquisition is derived from both and never stored: `withCpa` is the view of a record that
includes it.
-/

namespace AdOps.Record

/-- The fields that hold the cost, in the order in which they are looked at. -/
def costFields : List String := ["cost", "spent"]

/-- The fields that hold the conversions, in the order in which they are looked at. -/
def conversionFields : List String := ["conv", "conversions"]

/-- The field of the derived cost per acquisition. -/
def cpaField : String := "cpa"

def cost? (r : Record) : Option Float := r.firstNumber? costFields

/-- The conversions, none without a field for them. -/
def conversions (r : Record) : Float := (r.firstNumber? conversionFields).getD 0

/-- Cost per acquisition: zero without conversions, and nothing without a cost. -/
def cpa? (r : Record) : Option Float :=
  r.cost?.map fun cost => if r.conversions == 0 then 0 else cost / r.conversions

/-- The record with its cost per acquisition, if it has one. -/
def withCpa (r : Record) : Record :=
  match r.cpa? with
  | some cpa => r.insert cpaField (Json.ofFloat cpa)
  | none => r

/-- A platform record joined with its counterpart in the tracker: all fields of both, the platform's
where both have one. -/
def joined (platform : Record) (tracker : Option Record) : Record :=
  platform.onTopOf (tracker.getD NameMap.empty)

end AdOps.Record
