import CutPath.Decimal.Binary64
import CutPath.Text.Basic

namespace CutPath.Decimal

inductive Tie where
  | up
  | even
  deriving DecidableEq, Repr

/-- A decimal `0.d₁d₂… * 10 ^ (exponent + 1)` with a first digit other than zero. -/
structure Digits where
  digits : Text
  exponent : Int
  deriving DecidableEq, Repr

/-- Four times the least real that rounds to `m * 2 ^ q`, in units of `2 ^ q`. -/
def lowBound (m : Nat) (q : Int) : Nat :=
  if m = Nat.pow 2 52 ∧ Binary64.minExponent < q then 4 * m - 1 else 4 * m - 2

def highBound (m : Nat) : Nat := 4 * m + 2

/-- With `binarySide`, brings `d * 10 ^ p` and `b * 2 ^ (q - 2)` to a common unit. -/
def decimalSide (p q : Int) (d : Nat) : Nat := d * Nat.pow 10 p.toNat * Nat.pow 2 (2 - q).toNat

def binarySide (p q : Int) (b : Nat) : Nat := b * Nat.pow 10 (-p).toNat * Nat.pow 2 (q - 2).toNat

/-- Whether `d * 10 ^ p` rounds to `m * 2 ^ q`. -/
def readsBack (m : Nat) (q p : Int) (d : Nat) : Bool :=
  let x := decimalSide p q d
  let low := binarySide p q (lowBound m q)
  let high := binarySide p q (highBound m)
  if m % 2 = 0 then low ≤ x && x ≤ high else low < x && x < high

def leadingExponent (m : Nat) (q : Int) : Int :=
  let num := m * Nat.pow 2 q.toNat
  let den := Nat.pow 2 (-q).toNat
  if den ≤ num then ((Nat.toDigits 10 (num / den)).length : Int) - 1
  else
    let len := (Nat.toDigits 10 (den / num)).length
    if den = num * Nat.pow 10 (len - 1) then 1 - (len : Int) else -(len : Int)

/-- The one of the two multiples of `10 ^ p` around `m * 2 ^ q` that reads back, and the nearer
one when both do. -/
def neighbour? (tie : Tie) (m : Nat) (q p : Int) : Option Nat :=
  let value := binarySide p q (4 * m)
  let below := value / decimalSide p q 1
  let above := below + 1
  match readsBack m q p below, readsBack m q p above with
  | false, false => none
  | true, false => some below
  | false, true => some above
  | true, true =>
    let down := value - decimalSide p q below
    let up := decimalSide p q above - value
    if down < up then some below
    else if up < down then some above
    else match tie with
      | .up => some above
      | .even => some (if below % 2 = 0 then below else above)

def search (tie : Tie) (m : Nat) (q k : Int) (count : Nat) : Nat → Nat × Int
  | 0 => (0, 0)
  | fuel + 1 =>
    let p := k + 1 - count
    match neighbour? tie m q p with
    | some d => (d, p)
    | none => search tie m q k (count + 1) fuel

def dropTrailingZeros (t : Text) : Text := (t.reverse.dropWhile (· == '0')).reverse

/-- The shortest digits of `m * 2 ^ q`, for a positive `m`. Seventeen digits always suffice. -/
def shortest (tie : Tie) (m : Nat) (q : Int) : Digits :=
  let (d, p) := search tie m q (leadingExponent m q) 1 17
  let digits := Nat.toDigits 10 d
  ⟨dropTrailingZeros digits, p + digits.length - 1⟩

structure Format where
  plainFrom : Option Int
  plainBelow : Option Int
  keepsPoint : Bool
  plusSign : Bool
  tie : Tie

namespace Format

def isPlain (f : Format) (e : Int) : Bool :=
  f.plainFrom.all (· ≤ e) && f.plainBelow.all (e < ·)

def sign (negative : Bool) : Text := if negative then ['-'] else []

def zeros (n : Nat) : Text := List.replicate n '0'

def point (f : Format) : Text := if f.keepsPoint then ".0" else []

def writePlain (f : Format) (d : Digits) : Text :=
  if d.exponent < 0 then "0." ++ zeros (-d.exponent - 1).toNat ++ d.digits
  else
    let places := d.exponent.toNat + 1
    if d.digits.length ≤ places then
      d.digits ++ zeros (places - d.digits.length) ++ f.point
    else d.digits.take places ++ ['.'] ++ d.digits.drop places

def writeExponent (f : Format) (d : Digits) : Text :=
  let mantissa := match d.digits with
    | [] => []
    | [c] => [c]
    | c :: cs => c :: '.' :: cs
  let exponentSign : Text :=
    if d.exponent < 0 then ['-'] else if f.plusSign then ['+'] else []
  mantissa ++ ['e'] ++ exponentSign ++ Text.ofNat d.exponent.natAbs

def write (f : Format) : Binary64 → Text
  | .nan => "NaN"
  | .infinite negative => sign negative ++ "inf"
  | .finite negative m q =>
    sign negative ++
      if m = 0 then ['0'] ++ f.point
      else
        let d := shortest f.tie m q
        if f.isPlain d.exponent then f.writePlain d else f.writeExponent d

end Format

def plain : Format := ⟨none, none, false, false, .up⟩

/-- A number with exactly two places, taken from its exact value; a half goes to the even last
digit. -/
def writeHundredths : Binary64 → Text
  | .nan => "NaN"
  | .infinite negative => Format.sign negative ++ "inf"
  | .finite negative m q =>
    let n := Binary64.halfEven (m * 100 * Nat.pow 2 q.toNat) (Nat.pow 2 (-q).toNat)
    let cents := Text.ofNat (n % 100)
    Format.sign negative ++ Text.ofNat (n / 100) ++ ['.'] ++
      Format.zeros (2 - cents.length) ++ cents

end CutPath.Decimal
