import AdOps.Json.Reader
import AdOps.Settings

/-!
# Settings by name

Settings are written as named values, in a settings document or as a JSON value. Both give a list of
entries; an entry sets one field, and has to name a setting and to hold a value of its type. No
setting may be given twice.
-/

namespace AdOps

inductive SettingValue where
  | text (s : String)
  | integer (n : Int)
  | float (x : Float)
  | bool (b : Bool)
  /-- A group with a single part, which is empty and stands for its name. -/
  | choice (name : String)

/-- Settings as they are written: named values in order. -/
abbrev SettingEntries := List (String × SettingValue)

namespace Settings

def maxSize : Int := 18446744073709551615

/-- Sets the field that an entry names. -/
def set? (s : Settings) (name : String) (value : SettingValue) : Option Settings :=
  match name, value with
  | "default_time_interval", .text v => some { s with defaultTimeInterval := v }
  | "all_alias", .text v => some { s with allAlias := v }
  | "low_cpa_threshold", .float x => some { s with lowCpaThreshold := x }
  | "low_cpa_threshold", .integer n => some { s with lowCpaThreshold := Number.ofInt n }
  | "default_filter_number", .integer n =>
    if n ≤ Number.maxInt64 then some { s with defaultFilterNumber := n } else none
  | "max_message_size", .integer n =>
    if 0 ≤ n ∧ n ≤ maxSize then some { s with maxMessageSize := n.toNat } else none
  | "flag_policy", .text v | "flag_policy", .choice v =>
    (FlagPolicy.ofName? v).map fun p => { s with flagPolicy := p }
  | "strict_join", .bool b => some { s with strictJoin := b }
  | _, _ => none

/-- The settings that entries describe; what they do not name keeps its default. -/
def ofEntries? (entries : SettingEntries) : Option Settings :=
  if (entries.map (·.1)).Nodup then entries.foldlM (fun s e => s.set? e.1 e.2) {} else none

/-- The names of the settings, in the order in which a list gives their values. -/
def names : List String :=
  ["default_time_interval", "all_alias", "low_cpa_threshold", "default_filter_number",
    "max_message_size", "flag_policy", "strict_join"]

def valueOfJson? : Json → Option SettingValue
  | .string s => some (.text s)
  | .number (.integer n) => some (.integer n)
  | .number (.float x) => some (.float x)
  | .bool b => some (.bool b)
  | .object [(name, .null)] => some (.choice name)
  | _ => none

/-- The settings that a JSON value describes: an object, or an array of the first values. -/
def ofJson? (v : Json) : Option Settings := do
  let members ← match v with
    | .object members => some members
    | .array items => if items.length ≤ names.length then some (names.zip items) else none
    | _ => none
  let entries ← members.mapM fun e => (valueOfJson? e.2).map (e.1, ·)
  ofEntries? entries

end Settings

end AdOps
