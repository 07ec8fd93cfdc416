import CutPath.Decimal.Binary64
import CutPath.Text.Basic

namespace CutPath.Decimal

def digitsValue (t : Text) : Nat := t.foldl (fun n c => n * 10 + (c.toNat - '0'.toNat)) 0

def takeDigits (t : Text) : Text × Text := t.span Char.isDigit

def takeSign : Text → Bool × Text
  | '-' :: t => (true, t)
  | '+' :: t => (false, t)
  | t => (false, t)

/-- The number nearest to `n * 10 ^ e`, for exponents of any size: a number of more than 310
digits before the point is infinite, and one with 330 zeros after it is zero. -/
def nearest (negative : Bool) (n : Nat) (e : Int) : Binary64 :=
  let lead := ((Nat.toDigits 10 n).length : Int) + e
  if n = 0 then .finite negative 0 Binary64.minExponent
  else if 310 < lead then .infinite negative
  else if lead < -330 then .finite negative 0 Binary64.minExponent
  else Binary64.ofDecimal negative n e

def readExponent? : Text → Option Int
  | [] => some 0
  | mark :: t =>
    if mark = 'e' || mark = 'E' then
      let (negative, t) := takeSign t
      let (digits, rest) := takeDigits t
      if digits.isEmpty || !rest.isEmpty then none
      else some (if negative then -(digitsValue digits : Int) else digitsValue digits)
    else none

def readUnsigned? (negative : Bool) (t : Text) : Option Binary64 :=
  let (whole, t) := takeDigits t
  let (places, t) := match t with
    | '.' :: t => takeDigits t
    | t => ([], t)
  if whole.isEmpty && places.isEmpty then none
  else (readExponent? t).map fun e =>
    nearest negative (digitsValue (whole ++ places)) (e - places.length)

def read? (t : Text) : Option Binary64 :=
  let (negative, t) := takeSign t
  let name := Text.lowerAscii t
  if name = "inf" || name = "infinity" then some (.infinite negative)
  else if name = "nan" then some .nan
  else readUnsigned? negative t

structure Scaled where
  significand : Nat
  exponent : Int

def maxSignificand : Nat := Nat.pow 2 64 - 1

namespace Scaled

/-- Adds the digits before the point. Once a digit does not fit, it and the later ones only
count. -/
def addWhole (full : Bool) (s : Scaled) : Text → Scaled
  | [] => s
  | c :: t =>
    let n := s.significand * 10 + digitsValue [c]
    if full || maxSignificand < n then addWhole true ⟨s.significand, s.exponent + 1⟩ t
    else addWhole false ⟨n, s.exponent⟩ t

def addPlaces (s : Scaled) : Text → Scaled
  | [] => s
  | c :: t =>
    let n := s.significand * 10 + digitsValue [c]
    if maxSignificand < n then s else addPlaces ⟨n, s.exponent - 1⟩ t

def powerOfTen (n : Nat) : Binary64 := Binary64.ofRatio false (Nat.pow 10 n) 1

def scale? (x : Binary64) (e : Int) : Option Binary64 :=
  if 0 ≤ e then
    match x.mul (powerOfTen e.toNat) with
    | .finite s m q => some (.finite s m q)
    | _ => none
  else some (x.div (powerOfTen (-e).toNat))

/-- The value of a scaled significand; none when it is too great. Exponents below -308 are reached
in steps, which end early at zero. -/
def value? (s : Scaled) : Option Binary64 :=
  let x := Binary64.ofRatio false s.significand 1
  if s.significand = 0 then some Binary64.zero
  else if 308 < s.exponent then none
  else if -308 ≤ s.exponent then scale? x s.exponent
  else
    let y := x.div (powerOfTen 308)
    if -616 ≤ s.exponent then scale? y (s.exponent + 308)
    else some (.finite false 0 Binary64.minExponent)

end Scaled
end CutPath.Decimal
