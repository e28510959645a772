import AdOps.Number.Layout
import AdOps.Platform

/-!
# Failures

A command that cannot be carried out ends in a `Failure`, which says why. `kind` is its short
category and `message` its full text. What goes wrong with single records without ending the command
is an issue and not a failure.
-/

namespace AdOps

inductive ServiceFailure where
  | api (platform : Platform) (status : Nat) (message : String)
  | auth (platform : Platform)
  | unsupported (platform : Platform) (operation : String)
  | notConfigured (platform : Platform)
deriving DecidableEq

def ServiceFailure.message : ServiceFailure → String
  | .api p status message =>
    p.name ++ ": APIError " ++ Number.integerText (Int.ofNat status) ++ ": " ++ message
  | .auth p => p.name ++ ": AuthError: NOT LOGGED IN - Check API-KEYS"
  | .unsupported p operation => p.name ++ " does not support " ++ operation
  | .notConfigured p => p.name ++ ": no client configured"

inductive Failure where
  /-- No grammar fits the line, or the platform does not serve the verb. -/
  | invalidCommand (command : String)
  /-- The value of a flag or of a numeric argument makes no sense. -/
  | invalidFlag (flag : String) (value : String)
  | invalidCampaign (id : String)
  | noSuchWidget (id : String)
  /-- A record that cannot be joined to the tracker, where that is an error. -/
  | unjoinable (platform : Platform) (id : String) (name : String)
  | service (cause : ServiceFailure)
  /-- A service broke down in the middle of a call. -/
  | internal (message : String)
deriving DecidableEq

namespace Failure

def kind : Failure → String
  | .invalidCommand _ => "Invalid Command"
  | .invalidFlag _ _ => "Invalid Command Flag"
  | .invalidCampaign _ => "Invalid Campaign ID"
  | .noSuchWidget _ => "No Such Widget"
  | .unjoinable _ _ _ => "Missing Tracker ID Reference"
  | .service _ => "Platform Error"
  | .internal _ => "Internal Error"

def message : Failure → String
  | .invalidCommand command => "Invalid Command: " ++ command
  | .invalidFlag flag value => "Invalid Command Flag: " ++ flag ++ " (" ++ value ++ ")"
  | .invalidCampaign id => "Invalid Campaign ID: " ++ id
  | .noSuchWidget id => "No Such Widget Exists: " ++ id
  | .unjoinable p id name =>
    "Missing Tracker ID Reference: " ++ p.name ++ " campaign " ++ id ++ " named '" ++ name ++ "'"
  | .service cause => cause.message
  | .internal message => "Internal Error: " ++ message

end Failure

end AdOps
