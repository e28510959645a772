import AdOps.Settings.Entry

/-!
# Values of a settings document

A value that stands by itself is a string (in one of four quoted forms), an integer, a
floating-point number or a truth value. Every value but a string is a run of characters up to the
next blank or mark.

The readers work on the characters left to read and give what they have read with the rest.
-/

namespace AdOps.SettingsDocument

/-- What was read, and the characters left. -/
abbrev Step (α : Type) := Option (α × List Char)

/-! ## Characters -/

def isInlineBlank (c : Char) : Bool := c = ' ' || c = '\t'

def skipBlanks (cs : List Char) : List Char := cs.dropWhile isInlineBlank

/-- Takes a line end off the front. -/
def newline? : List Char → Option (List Char)
  | '\n' :: cs => some cs
  | '\r' :: '\n' :: cs => some cs
  | _ => none

/-- A character that may stand inside quotes or a comment. -/
def isPrintable (c : Char) : Bool := c = '\t' || (0x20 ≤ c.toNat && c.toNat ≠ 0x7F)

/-! ## Strings -/

def hexDigits? : List Char → Option Nat
  | cs => cs.foldlM (fun n c => (Json.hexValue? c).map (16 * n + ·)) 0

/-- The character of a code point, unless it is half of a surrogate pair or out of range. -/
def charOf? (n : Nat) : Option Char := if n.isValidChar then some (Char.ofNat n) else none

/-- What stands for a single character behind a backslash. -/
def escaped? : Char → Option Char
  | 'b' => some '\x08'
  | 't' => some '\t'
  | 'n' => some '\n'
  | 'f' => some '\x0C'
  | 'r' => some '\r'
  | '"' => some '"'
  | '\\' => some '\\'
  | _ => none

/-- The escape behind a backslash: a character, and how many characters spell it. -/
def escape? : List Char → Option (Char × Nat)
  | [] => none
  | c :: cs =>
    if c = 'u' ∨ c = 'U' then do
      let width := if c = 'u' then 4 else 8
      if (cs.take width).length ≠ width then none
      let n ← hexDigits? (cs.take width)
      return (← charOf? n, width + 1)
    else (escaped? c).map (·, 1)

def endsLine (cs : List Char) : Bool := (newline? (skipBlanks cs)).isSome

inductive Quoting where
  | basic
  | literal
  | multilineBasic
  | multilineLiteral
deriving DecidableEq

namespace Quoting

def mark : Quoting → Char
  | .basic | .multilineBasic => '"'
  | .literal | .multilineLiteral => '\''

def multiline : Quoting → Bool
  | .multilineBasic | .multilineLiteral => true
  | .basic | .literal => false

def escapes : Quoting → Bool
  | .basic | .multilineBasic => true
  | .literal | .multilineLiteral => false

end Quoting

/-- Reads the inside of a string up to and including its closing marks. `skip` characters have been
accounted for already, and `gap` says that the line ends and blanks behind a backslash are being
skipped. -/
def body? (q : Quoting) : (skip : Nat) → (gap : Bool) → List Char → Step (List Char)
  | _, _, [] => none
  | skip + 1, gap, _ :: cs => body? q skip gap cs
  | 0, true, c :: cs =>
    if isInlineBlank c || c = '\n' then body? q 0 true cs
    else if c = '\r' && cs.head? == some '\n' then body? q 1 true cs
    else plain q c cs
  | 0, false, c :: cs => plain q c cs
where
  plain (q : Quoting) (c : Char) (cs : List Char) : Step (List Char) :=
    if c = q.mark then
      if q.multiline then
        let marks := (cs.takeWhile (· = c)).length + 1
        if marks < 3 then (body? q 0 false cs).map fun (s, rest) => (c :: s, rest)
        else if marks ≤ 5 then some (List.replicate (marks - 3) c, cs.drop (marks - 1))
        else none
      else some ([], cs)
    else if c = '\\' && q.escapes then
      if q.multiline && endsLine cs then body? q 0 true cs
      else match escape? cs with
        | none => none
        | some (e, width) => (body? q width false cs).map fun (s, rest) => (e :: s, rest)
    else if q.multiline && c = '\n' then (body? q 0 false cs).map fun (s, rest) => (c :: s, rest)
    else if q.multiline && c = '\r' && cs.head? == some '\n' then body? q 0 false cs
    else if isPrintable c then (body? q 0 false cs).map fun (s, rest) => (c :: s, rest)
    else none

/-- Takes a line end off the front, if there is one. -/
def skipNewline (cs : List Char) : List Char := (newline? cs).getD cs

def quoted? (cs : List Char) : Step String :=
  let text := Option.map fun (s, rest) => (String.ofList s, rest)
  match cs with
  | '"' :: '"' :: '"' :: cs => text (body? .multilineBasic 0 false (skipNewline cs))
  | '\'' :: '\'' :: '\'' :: cs => text (body? .multilineLiteral 0 false (skipNewline cs))
  | '"' :: cs => text (body? .basic 0 false cs)
  | '\'' :: cs => text (body? .literal 0 false cs)
  | _ => none

/-! ## Numbers and truth values -/

/-- Removes the underscores between digits. Each has to stand between two digits. -/
def ungroup? (isDigit : Char → Bool) : List Char → Option (List Char)
  | [] => none
  | [c] => if isDigit c then some [c] else none
  | c :: '_' :: cs => if isDigit c then (ungroup? isDigit cs).map (c :: ·) else none
  | c :: cs => if isDigit c then (ungroup? isDigit cs).map (c :: ·) else none

/-- Decimal digits without a leading zero. -/
def wholeDigits? (cs : List Char) : Option (List Char) := do
  let digits ← ungroup? Char.isDigit cs
  if digits.head? == some '0' && digits.length ≠ 1 then none else some digits

/-- The value of digits in a base. -/
def inBase (base : Nat) (cs : List Char) : Nat :=
  cs.foldl (fun n c => base * n + (Json.hexValue? c).getD 0) 0

def isHexDigit (c : Char) : Bool := (Json.hexValue? c).isSome
def isOctalDigit (c : Char) : Bool := '0' ≤ c && c ≤ '7'
def isBinaryDigit (c : Char) : Bool := c = '0' || c = '1'

/-- Reads an integer: decimal with an optional sign, or in one of three bases without. -/
def integer? (cs : List Char) : Option Int := do
  let n ← match cs with
    | '0' :: 'x' :: cs => (ungroup? isHexDigit cs).map fun d => Int.ofNat (inBase 16 d)
    | '0' :: 'o' :: cs => (ungroup? isOctalDigit cs).map fun d => Int.ofNat (inBase 8 d)
    | '0' :: 'b' :: cs => (ungroup? isBinaryDigit cs).map fun d => Int.ofNat (inBase 2 d)
    | cs =>
      let (negative, cs) := Number.splitSign cs
      (wholeDigits? cs).map fun d => Number.signed negative (inBase 10 d)
  if Number.minInt64 ≤ n ∧ n ≤ Number.maxInt64 then some n else none

/-- Reads the digits behind the `e` of a number. -/
def exponent? (cs : List Char) : Option Int := do
  let (negative, cs) := Number.splitSign cs
  return Number.signed negative (inBase 10 (← ungroup? Char.isDigit cs))

/-- Reads a number with a point or an exponent, without its sign. -/
def decimal? (cs : List Char) : Option Number.Decimal := do
  let isBody := fun c => c.isDigit || c = '_'
  let whole ← wholeDigits? (cs.takeWhile isBody)
  let rest := cs.dropWhile isBody
  let (fraction, rest) ← match rest with
    | '.' :: rest =>
      (ungroup? Char.isDigit (rest.takeWhile isBody)).map fun d => (d, rest.dropWhile isBody)
    | rest => some ([], rest)
  let scale ← match rest with
    | [] => if fraction.isEmpty then none else some 0
    | c :: rest => if c = 'e' ∨ c = 'E' then exponent? rest else none
  return .ofDigits whole fraction scale

/-- Reads a floating-point number. Written digits may not exceed the range upwards. -/
def float? (cs : List Char) : Option Float := do
  let (negative, cs) := Number.splitSign cs
  let apply := fun (x : Float) => if negative then -x else x
  if cs = "inf".toList then some (apply (1 / 0))
  else if cs = "nan".toList then some (apply (0 / 0))
  else
    -- Digits beyond the range downwards stand for minus infinity.
    let x := apply (← decimal? cs).toFloat
    if x == 1 / 0 then none else some x

def isBareValue (c : Char) : Bool :=
  c.isAlphanum || c = '_' || c = '-' || c = '+' || c = '.'

/-- Reads a value without quotes. -/
def bare? (cs : List Char) : Option SettingValue :=
  if cs = "true".toList then some (.bool true)
  else if cs = "false".toList then some (.bool false)
  else match integer? cs with
    | some n => some (.integer n)
    | none => (float? cs).map .float

def scalar? (cs : List Char) : Step SettingValue :=
  match cs with
  | '"' :: _ | '\'' :: _ => (quoted? cs).map fun (s, rest) => (.text s, rest)
  | cs => (bare? (cs.takeWhile isBareValue)).map (·, cs.dropWhile isBareValue)

end AdOps.SettingsDocument
