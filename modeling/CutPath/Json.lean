import CutPath.Decimal.Scaled

namespace CutPath.Json

structure Numeral where
  negative : Bool
  whole : Text
  places : Option Text
  exponent : Option Int
  deriving DecidableEq, Repr

namespace Numeral

def takePlaces? : Text → Option (Option Text × Text)
  | '.' :: t =>
    let (places, rest) := Decimal.takeDigits t
    if places.isEmpty then none else some (some places, rest)
  | t => some (none, t)

def readExponent? (t : Text) : Option (Option Int) :=
  if t.isEmpty then some none else (Decimal.readExponent? t).map some

def isWhole : Text → Bool
  | [] => false
  | c :: t => c != '0' || t.isEmpty

def read? (t : Text) : Option Numeral :=
  let (negative, t) : Bool × Text := match t with
    | '-' :: t => (true, t)
    | t => (false, t)
  let (whole, t) := Decimal.takeDigits t
  if isWhole whole then do
    let (places, t) ← takePlaces? t
    return ⟨negative, whole, places, ← readExponent? t⟩
  else none

def value? (n : Numeral) : Option Binary64 :=
  let s := Decimal.Scaled.addPlaces (.addWhole false ⟨0, 0⟩ n.whole) (n.places.getD [])
  let x? := (Decimal.Scaled.mk s.significand (s.exponent + n.exponent.getD 0)).value?
  if n.negative then x?.map Binary64.negate else x?

/-- The value of a numeral that is nothing but digits, up to `2 ^ 64 - 1`. -/
def toNat? (n : Numeral) : Option Nat :=
  let value := Decimal.digitsValue n.whole
  if n.negative || n.places.isSome || n.exponent.isSome || Decimal.maxSignificand < value then none
  else some value

end Numeral

inductive Token where
  | openArray
  | closeArray
  | openObject
  | closeObject
  | comma
  | colon
  | quoted (raw : Text)
  | word (raw : Text)
  deriving DecidableEq, Repr

namespace Token

/-- Where a text is being cut; what has been read of a token is held backwards. -/
inductive Place where
  | between
  | inWord (done : Text)
  | inQuotes (done : Text)
  | afterBackslash (done : Text)
  | inEscape (digits : Nat) (done : Text)

def isSpace (c : Char) : Bool := c == ' ' || c == '\n' || c == '\t' || c == '\r'

def isWordChar (c : Char) : Bool := c.isAlphanum || c == '+' || c == '-' || c == '.'

def isHexDigit (c : Char) : Bool :=
  c.isDigit || ('a' ≤ c && c ≤ 'f') || ('A' ≤ c && c ≤ 'F')

def ofPunctuation? : Char → Option Token
  | '[' => some openArray
  | ']' => some closeArray
  | '\x7b' => some openObject
  | '\x7d' => some closeObject
  | ',' => some comma
  | ':' => some colon
  | _ => none

def stepBetween (c : Char) : Option (List Token × Place) :=
  if isSpace c then some ([], .between)
  else if c = '"' then some ([], .inQuotes [])
  else if isWordChar c then some ([], .inWord [c])
  else (ofPunctuation? c).map fun t => ([t], .between)

def step (p : Place) (c : Char) : Option (List Token × Place) :=
  match p with
  | .between => stepBetween c
  | .inWord done =>
    if isWordChar c then some ([], .inWord (c :: done))
    else (stepBetween c).map fun (ts, p) => (word done.reverse :: ts, p)
  | .inQuotes done =>
    if c = '"' then some ([quoted done.reverse], .between)
    else if c = '\\' then some ([], .afterBackslash (c :: done))
    else if c < ' ' then none
    else some ([], .inQuotes (c :: done))
  | .afterBackslash done =>
    if c = 'u' then some ([], .inEscape 4 (c :: done))
    else if "\"\\/bfnrt".toList.contains c then some ([], .inQuotes (c :: done))
    else none
  | .inEscape digits done =>
    if isHexDigit c then
      some ([], if digits = 1 then .inQuotes (c :: done) else .inEscape (digits - 1) (c :: done))
    else none

def finish : Place → Option (List Token)
  | .between => some []
  | .inWord done => some [word done.reverse]
  | _ => none

def scanFrom (done : List Token) (p : Place) : Text → Option (List Token)
  | [] => (finish p).map fun ts => done.reverse ++ ts
  | c :: t =>
    match step p c with
    | none => none
    | some (ts, p) => scanFrom (ts.reverse ++ done) p t

def scan? (t : Text) : Option (List Token) := scanFrom [] .between t

end Token

def hexDigit (n : Nat) : Char := Nat.digitChar n

def escapeChar (c : Char) : Text :=
  if c = '"' then "\\\""
  else if c = '\\' then "\\\\"
  else if c = '\x08' then "\\b"
  else if c = '\x0c' then "\\f"
  else if c = '\n' then "\\n"
  else if c = '\r' then "\\r"
  else if c = '\t' then "\\t"
  else if c < ' ' then "\\u00" ++ [hexDigit (c.toNat / 16), hexDigit (c.toNat % 16)]
  else [c]

def escape (t : Text) : Text := t.flatMap escapeChar

def quote (t : Text) : Text := ['"'] ++ escape t ++ ['"']

inductive Part where
  | char (c : Char)
  | unit (n : Nat)

def hexValue (c : Char) : Nat :=
  if c.isDigit then c.toNat - '0'.toNat else c.toLower.toNat - 'a'.toNat + 10

def hexNumber (t : Text) : Nat := t.foldl (fun n c => n * 16 + hexValue c) 0

def unescapeLetter : Char → Char
  | 'b' => '\x08'
  | 'f' => '\x0c'
  | 'n' => '\n'
  | 'r' => '\r'
  | 't' => '\t'
  | c => c

def parts : Text → List Part
  | '\\' :: 'u' :: a :: b :: c :: d :: t => .unit (hexNumber [a, b, c, d]) :: parts t
  | '\\' :: c :: t => .char (unescapeLetter c) :: parts t
  | c :: t => .char c :: parts t
  | [] => []

def isHighSurrogate (n : Nat) : Bool := 0xD800 ≤ n && n < 0xDC00

def isLowSurrogate (n : Nat) : Bool := 0xDC00 ≤ n && n < 0xE000

def pair (high low : Nat) : Char :=
  Char.ofNat (0x10000 + (high - 0xD800) * 0x400 + (low - 0xDC00))

/-- Puts the parts together; none when a surrogate has no partner. A high surrogate that waits for
its partner is in `high`. -/
def joinParts? (high : Option Nat) : List Part → Option Text
  | [] => if high.isNone then some [] else none
  | .char c :: ps => if high.isNone then (joinParts? none ps).map (c :: ·) else none
  | .unit n :: ps =>
    match high with
    | some m => if isLowSurrogate n then (joinParts? none ps).map (pair m n :: ·) else none
    | none =>
      if isHighSurrogate n then joinParts? (some n) ps
      else if isLowSurrogate n then none
      else (joinParts? none ps).map (Char.ofNat n :: ·)

def unescape? (raw : Text) : Option Text := joinParts? none (parts raw)

/-- A value; quoted texts are kept as they are written, since not all of them can be read. -/
inductive Value where
  | null
  | truth (b : Bool)
  | numeral (n : Numeral)
  | quoted (raw : Text)
  | array (items : List Value)
  | object (members : List (Text × Value))

namespace Value

def ofWord? (w : Text) : Option Value :=
  if w = "null" then some null
  else if w = "true" then some (truth true)
  else if w = "false" then some (truth false)
  else (Numeral.read? w).map numeral

/-- A container that is open around the value being read, with what it holds so far, backwards. -/
inductive Frame where
  | items (done : List Value)
  | members (done : List (Text × Value)) (key : Text)

inductive State where
  | value (stack : List Frame)
  | opened (stack : List Frame)
  | afterItem (done : List Value) (stack : List Frame)
  | openedObject (stack : List Frame)
  | key (done : List (Text × Value)) (stack : List Frame)
  | afterKey (done : List (Text × Value)) (key : Text) (stack : List Frame)
  | afterMember (done : List (Text × Value)) (stack : List Frame)
  | finished (v : Value)

def place (v : Value) : List Frame → State
  | [] => .finished v
  | .items done :: stack => .afterItem (v :: done) stack
  | .members done key :: stack => .afterMember ((key, v) :: done) stack

def start (stack : List Frame) : Token → Option State
  | .openArray => some (.opened stack)
  | .openObject => some (.openedObject stack)
  | .quoted raw => some (place (quoted raw) stack)
  | .word w => (ofWord? w).map (place · stack)
  | _ => none

def step : State → Token → Option State
  | .value stack, t => start stack t
  | .opened stack, .closeArray => some (place (array []) stack)
  | .opened stack, t => start (.items [] :: stack) t
  | .afterItem done stack, .comma => some (.value (.items done :: stack))
  | .afterItem done stack, .closeArray => some (place (array done.reverse) stack)
  | .openedObject stack, .closeObject => some (place (object []) stack)
  | .openedObject stack, .quoted key => some (.afterKey [] key stack)
  | .key done stack, .quoted key => some (.afterKey done key stack)
  | .afterKey done key stack, .colon => some (.value (.members done key :: stack))
  | .afterMember done stack, .comma => some (.key done stack)
  | .afterMember done stack, .closeObject => some (place (object done.reverse) stack)
  | _, _ => none

def readFrom : State → List Token → Option Value
  | .finished v, [] => some v
  | _, [] => none
  | s, t :: ts =>
    match step s t with
    | none => none
    | some s => readFrom s ts

def read? (t : Text) : Option Value := (Token.scan? t).bind (readFrom (.value []))

end Value
end CutPath.Json
