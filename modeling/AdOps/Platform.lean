import AdOps.Text.Letter

/-!
# Platforms

A command is addressed to one of three services: two ad networks, and the tracker that counts what
happens to the traffic the networks deliver.
-/

namespace AdOps

inductive Platform where
  | mgid
  | zeropark
  | thrive
deriving DecidableEq

namespace Platform

def all : List Platform := [.mgid, .zeropark, .thrive]

def name : Platform → String
  | .mgid => "mgid"
  | .zeropark => "zeropark"
  | .thrive => "thrive"

/-- The words that name a platform in a command line: its name and a short form. -/
def tokens : Platform → List String
  | .mgid => ["mgid", "mg"]
  | .zeropark => ["zeropark", "zp"]
  | .thrive => ["thrive", "tracker"]

/-- The platform that a word names, in any letter case. -/
def ofToken? (token : String) : Option Platform :=
  all.find? fun p => p.tokens.contains (Text.asciiLower token)

end Platform

end AdOps
