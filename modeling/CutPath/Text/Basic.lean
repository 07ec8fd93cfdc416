namespace CutPath

abbrev Text := List Char

abbrev Bytes := List UInt8

instance : Coe String Text := ⟨String.toList⟩

namespace Text

def join (sep : Text) (pieces : List Text) : Text := sep.intercalate pieces

@[simp] theorem join_singleton (sep piece : Text) : join sep [piece] = piece :=
  List.intercalate_singleton

theorem join_cons_cons (sep piece next : Text) (pieces : List Text) :
    join sep (piece :: next :: pieces) = piece ++ sep ++ join sep (next :: pieces) :=
  List.intercalate_cons_cons

def occursIn (word : Text) : Text → Bool
  | [] => word.isEmpty
  | c :: t => word.isPrefixOf (c :: t) || occursIn word t

theorem occursIn_iff {word t : Text} : occursIn word t = true ↔ word <:+: t := by
  induction t with
  | nil => simp [occursIn, List.isEmpty_iff]
  | cons c t ih => simp [occursIn, ih, List.infix_cons_iff, List.isPrefixOf_iff_prefix]

def ofNat (n : Nat) : Text := Nat.toDigits 10 n

def lowerAscii (t : Text) : Text := t.map Char.toLower

/-- Whether a number lies in a run of members. The lengths alternate, from zero on, between
numbers outside and members; `member` says which kind the first run is. -/
def inRuns (member : Bool) : List Nat → Nat → Bool
  | [], _ => false
  | len :: rest, n => if n < len then member else inRuns (!member) rest (n - len)

/-- The characters with the Unicode property `White_Space`. -/
def isBlank (c : Char) : Bool :=
  c == ' ' || ('\t' ≤ c && c ≤ '\r') || c == '\u0085' || c == '\u00a0' || c == '\u1680' ||
    ('\u2000' ≤ c && c ≤ '\u200a') || c == '\u2028' || c == '\u2029' || c == '\u202f' ||
    c == '\u205f' || c == '\u3000'

def trimStart (t : Text) : Text := t.dropWhile isBlank

def trimEnd (t : Text) : Text := (t.reverse.dropWhile isBlank).reverse

def trim (t : Text) : Text := trimEnd (trimStart t)

def words (t : Text) : List Text := (t.splitOnP isBlank).filter (!·.isEmpty)

def countWord (word t : Text) : Nat := (words t).count word

def isBlankText (t : Text) : Bool := t.all isBlank

/-- The digits zero; the nine characters after each one are the other digits of its script. -/
def digitZeros : List Nat :=
  [0x30, 0x660, 0x6F0, 0x7C0, 0x966, 0x9E6, 0xA66, 0xAE6, 0xB66, 0xBE6, 0xC66, 0xCE6, 0xD66,
   0xDE6, 0xE50, 0xED0, 0xF20, 0x1040, 0x1090, 0x17E0, 0x1810, 0x1946, 0x19D0, 0x1A80, 0x1A90,
   0x1B50, 0x1BB0, 0x1C40, 0x1C50, 0xA620, 0xA8D0, 0xA900, 0xA9D0, 0xA9F0, 0xAA50, 0xABF0,
   0xFF10, 0x104A0, 0x10D30, 0x10D40, 0x11066, 0x110F0, 0x11136, 0x111D0, 0x112F0, 0x11450,
   0x114D0, 0x11650, 0x116C0, 0x116D0, 0x116DA, 0x11730, 0x118E0, 0x11950, 0x11BF0, 0x11C50,
   0x11D50, 0x11DA0, 0x11F50, 0x16130, 0x16A60, 0x16AC0, 0x16B50, 0x16D70, 0x1CCF0, 0x1D7CE,
   0x1D7D8, 0x1D7E2, 0x1D7EC, 0x1D7F6, 0x1E140, 0x1E2F0, 0x1E4F0, 0x1E5F1, 0x1E950, 0x1FBF0]

def isDecimalDigit (c : Char) : Bool := digitZeros.any fun z => z ≤ c.toNat && c.toNat < z + 10

def isNumeralChar (c : Char) : Bool := isDecimalDigit c || c == '.'

end Text
end CutPath
