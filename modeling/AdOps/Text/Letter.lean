/-!
# Letter case

Two ways of ignoring letter case occur in a command line. *ASCII case* maps the twenty-six capital
letters and leaves everything else alone; it is what configured names are compared by. *Folded case*
is used for the words of the command language itself: besides the capitals it takes the long s
(U+017F) for an `s` and the kelvin sign (U+212A) for a `k`, as simple case folding does.
-/

namespace AdOps.Text

/-- The text with the capital letters `A` to `Z` made small. -/
def asciiLower (s : String) : String := String.ofList (s.toList.map Char.toLower)

/-- The text with the small letters `a` to `z` made capital. -/
def asciiUpper (s : String) : String := String.ofList (s.toList.map Char.toUpper)

/-- Equality up to ASCII case. -/
def sameIgnoringCase (s t : String) : Bool := asciiLower s == asciiLower t

/-- The character that stands for `c` once case is folded, within the ASCII letters. -/
def fold (c : Char) : Char :=
  if c = '\u017F' then 's' else if c = '\u212A' then 'k' else c.toLower

/-- A letter `a` to `z`, in folded case. -/
def isLetter (c : Char) : Bool := (fold c).isLower

/-- Whether the characters spell `word`, a word in small letters, in folded case. -/
def spells (word : String) (cs : List Char) : Bool := cs.map fold == word.toList

end AdOps.Text
