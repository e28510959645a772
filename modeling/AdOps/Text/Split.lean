/-!
# Cutting a text at a separator

`splitPair` cuts a text at every occurrence of a separator of two characters, leftmost first and
without overlap, and `splitChar` cuts it at every occurrence of one character. Both keep the empty
pieces, so that the pieces with the separator between them are the text again. `lines` cuts a text
into its lines: `dropLastIf` takes the carriage return that may stand before a line feed.
-/

namespace AdOps.Text

/-- Prepends a character to the first piece. -/
def consHead (c : Char) : List (List Char) → List (List Char)
  | [] => [[c]]
  | piece :: pieces => (c :: piece) :: pieces

/-- Cuts at the two-character separator `a b`, leftmost first. -/
def splitPair (a b : Char) : List Char → List (List Char)
  | [] => [[]]
  | [c] => [[c]]
  | c :: d :: cs =>
    if c = a ∧ d = b then [] :: splitPair a b cs else consHead c (splitPair a b (d :: cs))

/-- Cuts at every occurrence of the character `a`. -/
def splitChar (a : Char) : List Char → List (List Char)
  | [] => [[]]
  | c :: cs => if c = a then [] :: splitChar a cs else consHead c (splitChar a cs)

/-- The text without its last character, if that is `a`. -/
def dropLastIf (a : Char) (cs : List Char) : List Char :=
  if cs.getLast? = some a then cs.dropLast else cs

/-- The lines of a text: a line ends with a line feed, which may follow a carriage return; what
stands after the last line feed is a line of its own unless it is empty. -/
def lines (s : String) : List String :=
  let pieces := splitChar '\n' s.toList
  let ended := pieces.dropLast.map fun p => String.ofList (dropLastIf '\r' p)
  match pieces.getLast? with
  | none | some [] => ended
  | some rest => ended ++ [String.ofList rest]

end AdOps.Text
