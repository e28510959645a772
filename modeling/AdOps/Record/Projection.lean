import AdOps.Record
import AdOps.Text.Lower

/-!
# Projection

Keeps the requested fields of records and drops the others. Requested names are matched in lower
case unless they are to be matched exactly; the fields that are kept have the record's own
spelling.
-/

namespace AdOps.Record

def matchForm (exact : Bool) (name : String) : String := if exact then name else Text.lower name

/-- The field of the record that a requested name stands for: of several that compare equal, the
last in the order of names. -/
def fieldFor? (exact : Bool) (r : Record) (wanted : String) : Option (String × Json) :=
  r.entries.reverse.find? fun e => matchForm exact e.1 = matchForm exact wanted

def keep (exact : Bool) (wanted : List String) (r : Record) : Record :=
  NameMap.ofList (wanted.filterMap (fieldFor? exact r))

/-- Records with the requested fields only; with no fields requested, the records as they are. -/
def project (exact : Bool) (wanted : List String) (records : List Record) : List Record :=
  if wanted.isEmpty then records else records.map (keep exact wanted)

end AdOps.Record
