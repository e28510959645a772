import AdOps.Flag.Scan
import AdOps.Grammar

/-!
# The head and the positional words of a line

A command line begins with a word that addresses a platform and a word for the verb; flags and
positional words follow in any mixture. A word behind the head is positional if no flag covers it
and it does not begin with a marker.
-/

namespace AdOps

/-- The two words that a command line begins with, in small letters. -/
structure Head where
  platform : String
  verb : String
deriving DecidableEq

namespace Head

def isPlatformChar (c : Char) : Bool := Text.isLetter c || c.isDigit || c = '_'

def isVerbChar (c : Char) : Bool := Text.isLetter c || c.isDigit || c = '-'

/-- Reads the word for the platform, which a slash and a blank enclose, and the characters behind.
-/
def readPlatform? (cs : List Char) : Option (List Char × List Char) :=
  match cs.dropWhile Text.isBlank with
  | '/' :: cs =>
    let behind := cs.dropWhile isPlatformChar
    if (cs.takeWhile isPlatformChar).isEmpty || !behind.head?.any Text.isBlank then none
    else some (cs.takeWhile isPlatformChar, behind)
  | _ => none

/-- Reads the word for the verb, which begins with a letter, and the characters behind. -/
def readVerb? (cs : List Char) : Option (List Char × List Char) :=
  match cs.dropWhile Text.isBlank with
  | [] => none
  | c :: cs =>
    let behind := cs.dropWhile isVerbChar
    if Text.isLetter c && Text.atBoundary behind then some (c :: cs.takeWhile isVerbChar, behind)
    else none

/-- Reads the head of a line, and the characters behind it. -/
def read? (cs : List Char) : Option (Head × List Char) := do
  let (platform, cs) ← readPlatform? cs
  let (verb, rest) ← readVerb? cs
  return (⟨Text.asciiLower (String.ofList platform), Text.asciiLower (String.ofList verb)⟩, rest)

end Head

/-- The words behind the head that no flag covers and no marker begins. -/
def freeWords (rest : List Char) : List String :=
  let found := Flag.all.flatMap fun f => f.occurrences rest
  (Text.placedWords rest).filterMap fun (place, word) =>
    if found.any (·.covers place) || Flag.isMarked word then none else some word

/-- The first grammar of the verb whose slots the positional words fill. -/
def Grammar.choose? (s : Settings) (verb : String) (positionals : List String) :
    Option (Grammar × List Capture) :=
  (Grammar.all.filter fun g => g.words.contains verb).findSome? fun g =>
    (fill s g.slots positionals).map fun captures => (g, captures)

end AdOps
