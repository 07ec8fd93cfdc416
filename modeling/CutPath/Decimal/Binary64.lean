namespace CutPath

/-- A 64-bit binary floating-point number. The value of `finite negative m q` is `m * 2 ^ q` with
that sign; `m` has 53 bits unless `q` is the least exponent, -1074. -/
inductive Binary64 where
  | nan
  | infinite (negative : Bool)
  | finite (negative : Bool) (m : Nat) (q : Int)
  deriving DecidableEq, Repr

namespace Binary64

def minExponent : Int := -1074

def maxExponent : Int := 971

/-- The whole number nearest to `num / den`; a half goes to the even neighbour. -/
def halfEven (num den : Nat) : Nat :=
  let whole := num / den
  let twice := 2 * (num % den)
  if twice < den then whole
  else if den < twice then whole + 1
  else whole + whole % 2

/-- The greatest `e` with `2 ^ e ≤ num / den`, both positive. -/
def log2Ratio (num den : Nat) : Int :=
  let e : Int := (num.log2 : Int) - den.log2
  if den * Nat.pow 2 e.toNat ≤ num * Nat.pow 2 (-e).toNat then e else e - 1

/-- The number nearest to `num / den`, with a half going to the even mantissa, and an infinity
past the greatest finite number. -/
def ofRatio (negative : Bool) (num den : Nat) : Binary64 :=
  if num = 0 then finite negative 0 minExponent
  else
    let q := max (log2Ratio num den - 52) minExponent
    let m := halfEven (num * Nat.pow 2 (-q).toNat) (den * Nat.pow 2 q.toNat)
    let (m, q) := if m = Nat.pow 2 53 then (Nat.pow 2 52, q + 1) else (m, q)
    if maxExponent < q then infinite negative else finite negative m q

def ofDecimal (negative : Bool) (n : Nat) (e : Int) : Binary64 :=
  ofRatio negative (n * Nat.pow 10 e.toNat) (Nat.pow 10 (-e).toNat)

def zero : Binary64 := finite false 0 minExponent

def one : Binary64 := finite false (Nat.pow 2 52) (-52)

def isPositive : Binary64 → Bool
  | finite false m _ => m != 0
  | _ => false

def negate : Binary64 → Binary64
  | nan => nan
  | infinite s => infinite !s
  | finite s m q => finite (!s) m q

def mul : Binary64 → Binary64 → Binary64
  | finite s m p, finite t n q =>
    let e := p + q
    ofRatio (s ^^ t) (m * n * Nat.pow 2 e.toNat) (Nat.pow 2 (-e).toNat)
  | _, _ => nan

def div : Binary64 → Binary64 → Binary64
  | finite s m p, finite t n q =>
    let e := p - q
    if n = 0 then nan else ofRatio (s ^^ t) (m * Nat.pow 2 e.toNat) (n * Nat.pow 2 (-e).toNat)
  | _, _ => nan

end Binary64
end CutPath
