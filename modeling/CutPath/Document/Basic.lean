import CutPath.Failure

namespace CutPath
namespace Text.Latin1

def decode (bytes : Bytes) : Text := bytes.map fun b => Char.ofNat b.toNat

def encodeChar (c : Char) : Except Char UInt8 :=
  if c.toNat < 256 then .ok (UInt8.ofNat c.toNat) else .error c

def encode (t : Text) : Except Char Bytes := t.mapM encodeChar

theorem toNat_ofNat_byte (b : UInt8) : (Char.ofNat b.toNat).toNat = b.toNat := by
  have h : b.toNat < 256 := b.toNat_lt
  have hv : b.toNat.isValidChar := Or.inl (by omega)
  rw [Char.ofNat, dif_pos hv]
  rfl

theorem encodeChar_eq_ok_iff {c : Char} {b : UInt8} :
    encodeChar c = .ok b ↔ b.toNat = c.toNat := by
  have hb : b.toNat < 256 := b.toNat_lt
  unfold encodeChar
  split
  · next hc =>
    have hbyte : (UInt8.ofNat c.toNat).toNat = c.toNat := UInt8.toNat_ofNat_of_lt' hc
    rw [Except.ok.injEq, ← UInt8.toNat_inj, hbyte, eq_comm]
  · next hc => exact iff_of_false nofun fun he => hc (he ▸ hb)

theorem encode_cons (c : Char) (t : Text) :
    encode (c :: t) = (encodeChar c >>= fun b => encode t >>= fun bytes => .ok (b :: bytes)) :=
  List.mapM_cons

theorem encode_eq_ok_iff {t : Text} {bytes : Bytes} :
    encode t = .ok bytes ↔ bytes.map UInt8.toNat = t.map Char.toNat := by
  induction t generalizing bytes with
  | nil =>
    rw [List.map_nil, List.map_eq_nil_iff]
    exact ⟨fun h => (Except.ok.inj h).symm, fun h => congrArg Except.ok h.symm⟩
  | cons c t ih =>
    rw [encode_cons, List.map_cons]
    constructor
    · intro h
      cases hc : encodeChar c with
      | error e => rw [hc] at h; cases h
      | ok b =>
        cases ht : encode t with
        | error e => rw [hc, ht] at h; cases h
        | ok rest =>
          rw [hc, ht] at h
          rw [← Except.ok.inj h, List.map_cons, encodeChar_eq_ok_iff.1 hc, ih.1 ht]
    · intro h
      obtain ⟨b, rest, rfl, hb, hrest⟩ := List.map_eq_cons_iff.1 h
      rw [encodeChar_eq_ok_iff.2 hb, ih.2 hrest]
      rfl

theorem encode_decode (bytes : Bytes) : encode (decode bytes) = .ok bytes := by
  refine encode_eq_ok_iff.2 ?_
  rw [decode, List.map_map]
  exact List.map_congr_left fun b _ => (toNat_ofNat_byte b).symm

end Text.Latin1

structure Document where
  lines : List Text
  deriving DecidableEq, Repr

namespace Document

def startMarker : Text := "%!PS-Adobe"

def splitLines (t : Text) : List Text := t.splitOn '\n'

def parse (t : Text) : Except Failure Document :=
  if startMarker.isPrefixOf t then .ok ⟨splitLines t⟩
  else .error (.invalidDocument ("document does not start with " ++ startMarker))

def ofLatin1 (bytes : Bytes) : Except Failure Document := parse (Text.Latin1.decode bytes)

def text (d : Document) : Text := Text.join ['\n'] d.lines

def encodeText (t : Text) : Except Failure Bytes :=
  match Text.Latin1.encode t with
  | .ok bytes => .ok bytes
  | .error c => .error (.encoding
      ("character " ++ Text.quoteChar c ++ " is not representable in Latin-1"))

def toLatin1 (d : Document) : Except Failure Bytes := encodeText d.text

def mentions (d : Document) (name : Text) : Bool := d.lines.any (Text.occursIn name)

def insert (d : Document) (i : Nat) (new : List Text) : Document :=
  ⟨d.lines.take i ++ new ++ d.lines.drop i⟩

theorem text_parse {t : Text} {d : Document} (h : parse t = .ok d) : d.text = t := by
  unfold parse at h
  split at h
  · cases h
    exact List.intercalate_splitOn '\n'
  · cases h

theorem toLatin1_eq_ok_iff {d : Document} {bytes : Bytes} :
    d.toLatin1 = .ok bytes ↔ bytes.map UInt8.toNat = d.text.map Char.toNat := by
  rw [← Text.Latin1.encode_eq_ok_iff, toLatin1, encodeText]
  cases Text.Latin1.encode d.text with
  | ok bytes' => simp only [Except.ok.injEq]
  | error c => exact iff_of_false nofun nofun

theorem toLatin1_ofLatin1 {bytes : Bytes} {d : Document} (h : ofLatin1 bytes = .ok d) :
    d.toLatin1 = .ok bytes := by
  rw [toLatin1, text_parse h, encodeText, Text.Latin1.encode_decode]

end Document

/-- A carriage return for a line that ends in one, and nothing for any other. A line put beside
another one takes its ending. -/
def lineEnding (line : Text) : Text := if line.getLast? = some '\r' then ['\r'] else []

namespace Marker

def boundingBox : Text := "%%BoundingBox:"
def languageLevel : Text := "%%LanguageLevel:"
def customColors : Text := "%%DocumentCustomColors:"
def cmykCustomColor : Text := "%%CMYKCustomColor:"
def endProlog : Text := "%%EndProlog"
def beginSetup : Text := "%%BeginSetup"
def endPageSetup : Text := "%%EndPageSetup"
def trailer : Text := "%%Trailer"
def page : Text := "%%Page:"
def beginPageSetup : Text := "%%BeginPageSetup"
def endOfFile : Text := "%%EOF"

def showpage : Text := "showpage"

/-- Whether a line starts with a marker, blanks aside. -/
def opens (marker line : Text) : Bool := marker.isPrefixOf (Text.trimStart line)

def indexFrom? (p : Text → Bool) (start : Nat) (lines : List Text) : Option Nat :=
  ((lines.drop start).findIdx? p).map (· + start)

def boundingBox? (lines : List Text) : Option Nat := lines.findIdx? (opens boundingBox)

def headerAnchor? (lines : List Text) : Option Nat :=
  lines.findIdx? fun l => opens boundingBox l || opens languageLevel l

def prologEnd? (lines : List Text) : Option Nat := lines.findIdx? (opens endProlog)

def setupBegin? (lines : List Text) : Option Nat := lines.findIdx? (opens beginSetup)

def pageSetupEnd? (lines : List Text) : Option Nat := lines.findIdx? (opens endPageSetup)

def isPaint (line : Text) : Bool := Text.trim line == showpage

def pagePaint? (start : Nat) (lines : List Text) : Option Nat := indexFrom? isPaint start lines

def trailer? (start : Nat) (lines : List Text) : Option Nat :=
  indexFrom? (opens trailer) start lines

def isPageStart (line : Text) : Bool :=
  Text.occursIn page line || Text.occursIn beginPageSetup line

def isPageEnd (line : Text) : Bool :=
  Text.occursIn trailer line || Text.occursIn endOfFile line

end Marker
end CutPath
