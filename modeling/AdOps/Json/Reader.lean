import AdOps.Json.Basic
import AdOps.Number.Reading

/-!
# Reading JSON

A text is cut into tokens and the tokens are assembled into a value; both are single passes, the
first over characters with a *mode*, the second over tokens with a *stack* of the arrays and
objects that are still open. Nothing but blanks may stand around the value, and at most `maxDepth`
arrays and objects may be open at once.

`read` keeps the members of objects as they are written, repetitions included; `parse` gives the
normal form.
-/

namespace AdOps.Json

/-! ## Numbers -/

/-- The greatest unsigned 64-bit integer. -/
def maxUInt64 : Nat := 18446744073709551615

/-- Takes digits into a significand as long as it fits 64 bits: the significand, and the digits not
taken. -/
def takeDigits (significand : Nat) : List Char → Nat × List Char
  | [] => (significand, [])
  | c :: cs =>
    let n := 10 * significand + (c.toNat - '0'.toNat)
    if maxUInt64 < n then (significand, c :: cs) else takeDigits n cs

/-- A power of ten as a floating-point number, for exponents up to 308. -/
def powerOfTen (n : Nat) : Float := Float.ofScientific 1 false n

/-- Scales a significand by a power of ten, rounding once: a number too large has no value, one too
small is zero. `steps` bounds how often an exponent below -308 is brought closer to zero. -/
def scale (steps : Nat) (x : Float) (exponent : Int) : Option Float :=
  if exponent.natAbs ≤ 308 then
    let y := if 0 ≤ exponent then x * powerOfTen exponent.natAbs else x / powerOfTen exponent.natAbs
    if Number.isFinite y then some y else none
  else if x == 0 then some x
  else if 0 ≤ exponent then none
  else match steps with
    | 0 => some 0
    | steps + 1 => scale steps (x / powerOfTen 308) (exponent + 308)

/-- The parts of a written number: sign, digits before the point, digits after it, exponent. -/
structure Numeral where
  negative : Bool
  whole : List Char
  fraction : Option (List Char)
  exponent : Option Int

/-- Splits the characters of a number into its parts. A number has no leading zero, a digit on each
side of its point, and a digit in its exponent. -/
def numeral? (cs : List Char) : Option Numeral := do
  let (negative, cs) := match cs with
    | '-' :: cs => (true, cs)
    | cs => (false, cs)
  let whole := cs.takeWhile Char.isDigit
  let cs := cs.dropWhile Char.isDigit
  if whole.isEmpty || (whole.head? == some '0' && whole.length != 1) then none
  let (fraction, cs) := match cs with
    | '.' :: cs => (some (cs.takeWhile Char.isDigit), cs.dropWhile Char.isDigit)
    | cs => (none, cs)
  if fraction == some [] then none
  let exponent ← match cs with
    | [] => some none
    | c :: cs => if c = 'e' ∨ c = 'E' then (Number.exponent? cs).map some else none
  return ⟨negative, whole, fraction, exponent⟩

/-- The floating-point number a numeral denotes: the leading digits that fit 64 bits, scaled. The
digits before the point that were not taken count as powers of ten, those after it are dropped. -/
def Numeral.float? (n : Numeral) : Option Float := do
  let (significand, dropped) := takeDigits 0 n.whole
  let fraction := n.fraction.getD []
  let (significand, unread) := takeDigits significand fraction
  let taken := fraction.length - unread.length
  let exponent := n.exponent.getD 0 + dropped.length - taken
  let x ← scale 8 (Number.ofNat significand) exponent
  return if n.negative then -x else x

/-- The value of a written number: an integer if it is written as one and fits 64 bits, else a
floating-point number. The negative zero is a floating-point number. -/
def number? (cs : List Char) : Option JsonNumber := do
  let n ← numeral? cs
  if n.fraction.isNone && n.exponent.isNone then
    -- What is no integer of 64 bits, `-0` among it, goes on to the floating-point reading.
    let m := Number.digitsValue n.whole
    if n.negative then
      if m ≠ 0 ∧ m ≤ 9223372036854775808 then return .integer (-Int.ofNat m)
    else if m ≤ maxUInt64 then return .integer (Int.ofNat m)
  return .float (← n.float?)

/-! ## Tokens -/

inductive Token where
  | openArray
  | closeArray
  | openObject
  | closeObject
  | comma
  | colon
  | string (s : String)
  /-- A number, a truth value or `null`. -/
  | scalar (v : Json)

/-- Where in a token the next character stands. Characters of the token read so far are kept in
reverse. -/
inductive Mode where
  | between
  | word (seen : List Char)
  | string (seen : List Char)
  | escape (seen : List Char)
  /-- Inside `\uXXXX`, with the digits' value and count so far, after a high surrogate or not. -/
  | unicode (seen : List Char) (high : Option Nat) (value count : Nat)
  /-- After a high surrogate, which needs a low one. -/
  | surrogate (seen : List Char) (high : Nat)
  | surrogateEscape (seen : List Char) (high : Nat)

def isSpace (c : Char) : Bool := c == ' ' || c == '\n' || c == '\r' || c == '\t'

/-- A character of a number or of a word such as `true`. -/
def isWordChar (c : Char) : Bool :=
  c.isAlphanum || c == '-' || c == '+' || c == '.'

/-- The scalar that a word or number spells. -/
def scalar? (cs : List Char) : Option Json :=
  match String.ofList cs with
  | "null" => some .null
  | "true" => some (.bool true)
  | "false" => some (.bool false)
  | _ => (number? cs).map .number

/-- The character that follows a backslash, unless it is a `u`. -/
def escaped? : Char → Option Char
  | '"' => some '"'
  | '\\' => some '\\'
  | '/' => some '/'
  | 'b' => some '\x08'
  | 'f' => some '\x0C'
  | 'n' => some '\n'
  | 'r' => some '\r'
  | 't' => some '\t'
  | _ => none

def hexValue? (c : Char) : Option Nat :=
  if c.isDigit then some (c.toNat - '0'.toNat)
  else if 'a' ≤ c ∧ c ≤ 'f' then some (c.toNat - 'a'.toNat + 10)
  else if 'A' ≤ c ∧ c ≤ 'F' then some (c.toNat - 'A'.toNat + 10)
  else none

/-- One character outside strings. -/
def Mode.start (c : Char) : Option (List Token × Mode) :=
  if isSpace c then some ([], .between)
  else match c with
    | '[' => some ([.openArray], .between)
    | ']' => some ([.closeArray], .between)
    | '\x7b' => some ([.openObject], .between)
    | '\x7d' => some ([.closeObject], .between)
    | ',' => some ([.comma], .between)
    | ':' => some ([.colon], .between)
    | '"' => some ([], .string [])
    | c => if isWordChar c then some ([], .word [c]) else none

/-- A complete `\uXXXX`: a character, or half of one. -/
def Mode.codeUnit (seen : List Char) (high : Option Nat) (n : Nat) : Option Mode :=
  match high with
  | none =>
    -- The first half of a pair waits for the second; a second half on its own is no character.
    if 0xD800 ≤ n ∧ n < 0xDC00 then some (.surrogate seen n)
    else if 0xDC00 ≤ n ∧ n < 0xE000 then none
    else some (.string (Char.ofNat n :: seen))
  | some h =>
    if 0xDC00 ≤ n ∧ n < 0xE000 then
      some (.string (Char.ofNat (0x10000 + (h - 0xD800) * 0x400 + (n - 0xDC00)) :: seen))
    else none

/-- One character: the tokens it completes, and the mode after it. -/
def Mode.step (mode : Mode) (c : Char) : Option (List Token × Mode) :=
  match mode with
  | .between => start c
  | .word seen =>
    if isWordChar c then some ([], .word (c :: seen))
    else do
      let v ← scalar? seen.reverse
      let (tokens, next) ← start c
      return (.scalar v :: tokens, next)
  | .string seen =>
    if c = '"' then some ([.string (String.ofList seen.reverse)], .between)
    else if c = '\\' then some ([], .escape seen)
    else if c.toNat < 0x20 then none
    else some ([], .string (c :: seen))
  | .escape seen =>
    if c = 'u' then some ([], .unicode seen none 0 0)
    else (escaped? c).map fun e => ([], .string (e :: seen))
  | .unicode seen high value count => do
    let n := 16 * value + (← hexValue? c)
    if count = 3 then return ([], ← codeUnit seen high n)
    else return ([], .unicode seen high n (count + 1))
  | .surrogate seen high => if c = '\\' then some ([], .surrogateEscape seen high) else none
  | .surrogateEscape seen high => if c = 'u' then some ([], .unicode seen (some high) 0 0) else none

/-- The tokens read so far, in reverse, and the mode. -/
structure Scan where
  tokens : List Token
  mode : Mode

def Scan.step (s : Scan) (c : Char) : Option Scan := do
  let (tokens, mode) ← s.mode.step c
  return ⟨tokens.reverse ++ s.tokens, mode⟩

/-- The tokens at the end of the text, where no string may be open. -/
def Scan.finish (s : Scan) : Option (List Token) :=
  match s.mode with
  | .between => some s.tokens.reverse
  | .word seen => (scalar? seen.reverse).map fun v => (.scalar v :: s.tokens).reverse
  | _ => none

def tokens? (cs : List Char) : Option (List Token) :=
  (cs.foldlM Scan.step ⟨[], .between⟩).bind Scan.finish

/-! ## Values -/

/-- The greatest number of arrays and objects that may be open at once. -/
def maxDepth : Nat := 127

/-- An array or object that is still open, with what it holds so far, in reverse. -/
inductive Frame where
  | array (items : List Json)
  | object (members : List (String × Json))
  /-- An object that waits for the value of a member. -/
  | member (members : List (String × Json)) (name : String)

/-- What may come next. -/
inductive Expecting where
  | value
  /-- A value, or the end of the array just opened. -/
  | valueOrEnd
  | name
  /-- The name of a member, or the end of the object just opened. -/
  | nameOrEnd
  | colon
  /-- After a value: a comma, or the end of what is open. -/
  | after (v : Json)

/-- The open arrays and objects, innermost first, and what may come next. -/
structure Assembly where
  stack : List Frame
  expecting : Expecting

/-- Puts a finished value where it belongs. -/
def Assembly.close (stack : List Frame) (v : Json) : Assembly := ⟨stack, .after v⟩

def Assembly.value (stack : List Frame) : Token → Option Assembly
  | .scalar v => some (close stack v)
  | .string s => some (close stack (.string s))
  | .openArray =>
    if stack.length < maxDepth then some ⟨.array [] :: stack, .valueOrEnd⟩ else none
  | .openObject =>
    if stack.length < maxDepth then some ⟨.object [] :: stack, .nameOrEnd⟩ else none
  | _ => none

/-- A token behind the value `v` of the innermost open array or object. -/
def Assembly.afterValue (v : Json) : List Frame → Token → Option Assembly
  | .array items :: stack, .comma => some ⟨.array (v :: items) :: stack, .value⟩
  | .array items :: stack, .closeArray => some (close stack (.array (v :: items).reverse))
  | .member members name :: stack, .comma => some ⟨.object ((name, v) :: members) :: stack, .name⟩
  | .member members name :: stack, .closeObject =>
    some (close stack (.object ((name, v) :: members).reverse))
  | _, _ => none

def Assembly.step (a : Assembly) (t : Token) : Option Assembly :=
  match a.expecting, a.stack, t with
  | .valueOrEnd, .array items :: stack, .closeArray => some (close stack (.array items.reverse))
  | .valueOrEnd, stack, t | .value, stack, t => value stack t
  | .nameOrEnd, .object members :: stack, .closeObject =>
    some (close stack (.object members.reverse))
  | .nameOrEnd, .object members :: stack, .string s | .name, .object members :: stack, .string s =>
    some ⟨.member members s :: stack, .colon⟩
  | .colon, stack, .colon => some ⟨stack, .value⟩
  | .after v, stack, t => afterValue v stack t
  | _, _, _ => none

def assemble (tokens : List Token) : Option Json := do
  let a ← tokens.foldlM Assembly.step ⟨[], .value⟩
  match a.stack, a.expecting with
  | [], .after v => some v
  | _, _ => none

/-- The value a text spells, with the members of objects as they are written. -/
def read (s : String) : Option Json := (tokens? s.toList).bind assemble

def parse (s : String) : Option Json := (read s).map normalize

end AdOps.Json
