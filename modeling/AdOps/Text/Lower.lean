import AdOps.Text.Blank
import AdOps.Text.Lower.Table

/-!
# Lower-casing

Field names are compared by their full lower-case form. Two characters are special: the capital I
with a dot becomes two characters, and the capital sigma becomes a final sigma at the end of a word,
which is decided by the nearest cased characters on both sides, case-ignorable ones not counted.
-/

namespace AdOps.Text

def isCased : Char → Bool := inRanges casedRanges

def isCaseIgnorable : Char → Bool := inRanges caseIgnorableRanges

/-- The small letter of a character, by itself. -/
def smallLetter (c : Char) : Char :=
  if c.toNat < 0x80 then c.toLower
  else match smallLetterRanges.find? (·.covers c.toNat) with
    | some r => Char.ofNat (Int.ofNat c.toNat + r.shift).toNat
    | none => c

/-- Whether the first character that is not case-ignorable is cased. -/
def facesCased (cs : List Char) : Bool :=
  match cs.dropWhile isCaseIgnorable with
  | [] => false
  | c :: _ => isCased c

/-- The lower-case form of one character, `before` it (nearest first) and `after` it in the text. -/
def lowerAt (before : List Char) (c : Char) (after : List Char) : List Char :=
  if c = '\u0130' then ['i', '\u0307']
  else if c = '\u03A3' then
    if facesCased before && !facesCased after then ['\u03C2'] else ['\u03C3']
  else [smallLetter c]

/-- The lower-case form of `cs`, which follows `before` (nearest first). -/
def lowerFrom (before : List Char) : List Char → List Char
  | [] => []
  | c :: cs => lowerAt before c cs ++ lowerFrom (c :: before) cs

def lower (s : String) : String := String.ofList (lowerFrom [] s.toList)

end AdOps.Text
