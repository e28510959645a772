/-!
# Blank characters

A text is read as a sequence of *words* separated by blanks. A blank is a character with the
Unicode property `White_Space`; the class is written out once here and every trimming and cutting
function of the library uses it, so that two parts of a command line never disagree about where a
word ends.
-/

namespace AdOps.Text

/-- Whether a code point lies in one of the closed ranges. -/
def inRanges (ranges : List (Nat × Nat)) (c : Char) : Bool :=
  ranges.any fun r => r.1 ≤ c.toNat && c.toNat ≤ r.2

/-- The code points with the property `White_Space`. -/
def blankRanges : List (Nat × Nat) :=
  [(0x09, 0x0D), (0x20, 0x20), (0x85, 0x85), (0xA0, 0xA0), (0x1680, 0x1680), (0x2000, 0x200A),
    (0x2028, 0x2029), (0x202F, 0x202F), (0x205F, 0x205F), (0x3000, 0x3000)]

/-- A blank separates words. -/
def isBlank (c : Char) : Bool := inRanges blankRanges c

/-- The text without its leading and trailing blanks. -/
def trim (s : String) : String :=
  String.ofList ((s.toList.dropWhile isBlank).reverse.dropWhile isBlank).reverse

/-- Whether a text has no word at all. -/
def isBlankText (s : String) : Bool := s.toList.all isBlank

/-- Whether the characters end here or go on with a blank: no word can be continued. -/
def atBoundary : List Char → Bool
  | [] => true
  | c :: _ => isBlank c

/-- The maximal runs of characters that are not blank, in order. -/
def runs : List Char → List (List Char)
  | [] => []
  | c :: cs =>
    if isBlank c then runs cs
    -- The run ends here, or it is the front of the first run of what follows.
    else if atBoundary cs then [c] :: runs cs
    else match runs cs with
      | [] => [[c]]
      | w :: ws => (c :: w) :: ws

/-- The words of a text: its maximal runs without a blank, in order. -/
def words (s : String) : List String := (runs s.toList).map String.ofList

/-- The words with the places at which they begin, counted from `i`; `fresh` says that a word can
begin here. -/
def placedFrom (i : Nat) (fresh : Bool) : List Char → List (Nat × String)
  | [] => []
  | c :: cs =>
    if isBlank c then placedFrom (i + 1) true cs
    else if fresh then
      (i, String.ofList (c :: cs.takeWhile (!isBlank ·))) :: placedFrom (i + 1) false cs
    else placedFrom (i + 1) false cs

/-- The words of a text with the places at which they begin. -/
def placedWords (cs : List Char) : List (Nat × String) := placedFrom 0 true cs

end AdOps.Text
