import CutPath.Text.Basic

namespace CutPath.Text.Utf8

def encodeChar (c : Char) : Bytes :=
  let n := c.toNat
  if n < 0x80 then [n.toUInt8]
  else if n < 0x800 then [(0xC0 + n / 64).toUInt8, (0x80 + n % 64).toUInt8]
  else if n < 0x10000 then
    [(0xE0 + n / 4096).toUInt8, (0x80 + n / 64 % 64).toUInt8, (0x80 + n % 64).toUInt8]
  else
    [(0xF0 + n / 262144).toUInt8, (0x80 + n / 4096 % 64).toUInt8,
      (0x80 + n / 64 % 64).toUInt8, (0x80 + n % 64).toUInt8]

def encode (t : Text) : Bytes := t.flatMap encodeChar

def size (t : Text) : Nat := t.foldr (fun c n => (encodeChar c).length + n) 0

theorem size_cons (c : Char) (t : Text) : size (c :: t) = (encodeChar c).length + size t := rfl

theorem size_append (s t : Text) : size (s ++ t) = size s + size t := by
  induction s with
  | nil => exact (Nat.zero_add _).symm
  | cons c s ih => rw [List.cons_append, size_cons, size_cons, ih, Nat.add_assoc]

theorem size_reverse (t : Text) : size t.reverse = size t := by
  induction t with
  | nil => rfl
  | cons c t ih =>
    rw [List.reverse_cons, size_append, ih, size_cons, size_cons, Nat.add_comm]
    rfl

/-- What the bytes that follow a first byte make of it. -/
inductive Reading where
  | char (c : Char) (tail : Nat)
  | malformed (tail : Nat)
  | truncated

def isTail (b : UInt8) : Bool := 0x80 ≤ b && b ≤ 0xBF

def tailBits (b : UInt8) : Nat := b.toNat - 0x80

/-- Reads the bytes after the second one: `need` more belong to the character, and `bits` is what
has been read. -/
def readTails (bits seen : Nat) : Nat → Bytes → Reading
  | 0, _ => .char (Char.ofNat bits) seen
  | _ + 1, [] => .truncated
  | need + 1, b :: rest =>
    if isTail b then readTails (bits * 64 + tailBits b) (seen + 1) need rest else .malformed seen

def readAfter (low high : UInt8) (bits need : Nat) : Bytes → Reading
  | [] => .truncated
  | b :: rest =>
    if low ≤ b && b ≤ high then readTails (bits * 64 + tailBits b) 1 need rest else .malformed 0

def read (b : UInt8) (rest : Bytes) : Reading :=
  let n := b.toNat
  if n < 0x80 then .char (Char.ofNat n) 0
  else if n < 0xC2 then .malformed 0
  else if n < 0xE0 then readAfter 0x80 0xBF (n - 0xC0) 0 rest
  else if n = 0xE0 then readAfter 0xA0 0xBF 0 1 rest
  else if n = 0xED then readAfter 0x80 0x9F 13 1 rest
  else if n < 0xF0 then readAfter 0x80 0xBF (n - 0xE0) 1 rest
  else if n = 0xF0 then readAfter 0x90 0xBF 0 2 rest
  else if n < 0xF4 then readAfter 0x80 0xBF (n - 0xF0) 2 rest
  else if n = 0xF4 then readAfter 0x80 0x8F 4 2 rest
  else .malformed 0

structure Malformed where
  index : Nat
  length : Option Nat
  deriving DecidableEq, Repr

def Malformed.message (m : Malformed) : Text :=
  match m.length with
  | some n => "invalid utf-8 sequence of " ++ ofNat n ++ " bytes from index " ++ ofNat m.index
  | none => "incomplete utf-8 byte sequence from index " ++ ofNat m.index

/-- Reads bytes after the `index` first ones, of which `done` is the text backwards. -/
def decodeFrom (index : Nat) (done : Text) : Bytes → Except Malformed Text
  | [] => .ok done.reverse
  | b :: rest =>
    match read b rest with
    | .char c tail => decodeFrom (index + 1 + tail) (c :: done) (rest.drop tail)
    | .malformed tail => .error ⟨index, some (tail + 1)⟩
    | .truncated => .error ⟨index, none⟩
termination_by bytes => bytes.length
decreasing_by simp only [List.length_drop, List.length_cons]; omega

def decode (bytes : Bytes) : Except Malformed Text := decodeFrom 0 [] bytes

def decodeLossyFrom (done : Text) : Bytes → Text
  | [] => done.reverse
  | b :: rest =>
    match read b rest with
    | .char c tail => decodeLossyFrom (c :: done) (rest.drop tail)
    | .malformed tail => decodeLossyFrom ('\ufffd' :: done) (rest.drop tail)
    | .truncated => ('\ufffd' :: done).reverse
termination_by bytes => bytes.length
decreasing_by all_goals (simp only [List.length_drop, List.length_cons]; omega)

def decodeLossy (bytes : Bytes) : Text := decodeLossyFrom [] bytes

end CutPath.Text.Utf8
