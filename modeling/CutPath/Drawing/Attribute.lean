import CutPath.Decimal.Scaled
import CutPath.Drawing.Markup

namespace CutPath
namespace Entity

def hexValue? (c : Char) : Option Nat :=
  if '0' ≤ c && c ≤ '9' then some (c.toNat - '0'.toNat)
  else if 'a' ≤ c && c ≤ 'f' then some (c.toNat - 'a'.toNat + 10)
  else if 'A' ≤ c && c ≤ 'F' then some (c.toNat - 'A'.toNat + 10)
  else none

def digits? (base : Nat) (t : Text) : Option Nat :=
  if t.isEmpty then none
  else t.foldl (fun n c => n.bind fun n => (hexValue? c).bind fun d =>
    if d < base then some (n * base + d) else none) (some 0)

/-- The character of a code point; there is none for zero and the surrogates. -/
def ofCodePoint? (n : Nat) : Option Char :=
  if n ≠ 0 ∧ n.isValidChar then some (Char.ofNat n) else none

/-- The character that a reference stands for, given what is between its ampersand and its
semicolon. -/
def resolve? : Text → Option Char
  | '#' :: 'x' :: t => (digits? 16 t).bind ofCodePoint?
  | '#' :: t => (digits? 10 t).bind ofCodePoint?
  | name =>
    if name = "lt" then some '<'
    else if name = "gt" then some '>'
    else if name = "amp" then some '&'
    else if name = "apos" then some '\''
    else if name = "quot" then some '"'
    else none

theorem length_lt_of_dropWhile {p : Char → Bool} {t rest : Text} {c : Char}
    (h : t.dropWhile p = c :: rest) : rest.length < t.length := by
  have hs := (List.dropWhile_suffix p (l := t)).length_le
  rw [h] at hs
  exact hs

def unescape? : Text → Option Text
  | [] => some []
  | c :: t =>
    if c = '&' then
      match h : t.dropWhile (fun d => d != ';' && d != '&') with
      | ';' :: rest =>
        have : rest.length < t.length := length_lt_of_dropWhile h
        (resolve? (t.takeWhile fun d => d != ';' && d != '&')).bind fun d =>
          (unescape? rest).map (d :: ·)
      | _ => none
    else (unescape? t).map (c :: ·)
termination_by t => t.length
decreasing_by
  · exact Nat.lt_succ_of_lt this
  · exact Nat.lt_succ_self _

def escapeChar (c : Char) : Text :=
  if c = '<' then "&lt;"
  else if c = '>' then "&gt;"
  else if c = '&' then "&amp;"
  else if c = '\'' then "&apos;"
  else if c = '"' then "&quot;"
  else [c]

def escape (t : Text) : Text := t.flatMap escapeChar

end Entity

structure Attribute where
  key : Text
  raw : Text
  deriving DecidableEq, Repr

namespace Attribute

def value? (a : Attribute) : Option Text := Entity.unescape? a.raw

def write (a : Attribute) : Text := " " ++ a.key ++ "=\"" ++ a.raw ++ "\""

def isQuote (c : Char) : Bool := c == '"' || c == '\''

def skipToSpace (t : Text) : Text := t.dropWhile (!Markup.isSpace ·)

/-- Reads the value after an equals sign. The result is the attribute, unless its key was there
before or its value has no quotes, and the text to go on with. -/
def readValue (seen : List Text) (key t : Text) : Option Attribute × Text :=
  if seen.contains key then (none, skipToSpace t)
  else match t.dropWhile Markup.isSpace with
    | [] => (none, [])
    | q :: rest =>
      if isQuote q then
        match Markup.cutAt? [q] rest with
        | some (raw, rest) => (some ⟨key, raw⟩, rest)
        | none => (none, [])
      else (none, skipToSpace (q :: rest))

theorem length_readValue (seen : List Text) (key t : Text) :
    (readValue seen key t).2.length ≤ t.length := by
  have skip (u : Text) : (skipToSpace u).length ≤ u.length := (List.dropWhile_suffix _).length_le
  have drop : (t.dropWhile Markup.isSpace).length ≤ t.length :=
    (List.dropWhile_suffix _).length_le
  unfold readValue
  split
  · exact skip t
  · split
    · exact Nat.zero_le _
    · next q rest h =>
      rw [h] at drop
      split
      · split
        · next hc =>
          have := congrArg List.length (Markup.cutAt?_eq hc)
          simp only [List.length_append, List.length_cons] at this drop ⊢
          omega
        · exact Nat.zero_le _
      · exact Nat.le_trans (skip _) drop

def isKeyChar (c : Char) : Bool := c != '=' && !Markup.isSpace c

/-- Reads the attributes in what follows a tag's name; `seen` are the keys that came before. A key
has at least one character, and the first one can be anything but a space. -/
def readFrom (seen : List Text) : Text → List Attribute
  | [] => []
  | c :: t =>
    if Markup.isSpace c then readFrom seen t
    else
      match h : (t.dropWhile isKeyChar).dropWhile Markup.isSpace with
      | [] => []
      | d :: rest =>
        have shorter : rest.length + 1 ≤ t.length := by
          have := ((List.dropWhile_suffix (l := t.dropWhile isKeyChar) Markup.isSpace).trans
            (List.dropWhile_suffix isKeyChar)).length_le
          rwa [h] at this
        if d = '=' then
          let key := c :: t.takeWhile isKeyChar
          have : (readValue seen key rest).2.length ≤ rest.length := length_readValue ..
          let value := readValue seen key rest
          value.1.toList ++ readFrom (key :: seen) value.2
        else readFrom seen (d :: rest)
termination_by t => t.length
decreasing_by
  · exact Nat.lt_succ_self _
  · exact Nat.lt_succ_of_le (Nat.le_trans this (Nat.le_of_succ_le shorter))
  · exact Nat.lt_succ_of_le shorter

def ofTag (content : Text) : List Attribute :=
  readFrom [] (content.dropWhile (!Markup.isSpace ·))

end Attribute

namespace Markup

/-- The value of a tag's attribute; none when it is missing or cannot be resolved. -/
def attribute? (key content : Text) : Option Text :=
  ((Attribute.ofTag content).find? (·.key == key)).bind Attribute.value?

def names (content : Text) : List Text :=
  (["id", "inkscape:label"] : List Text).filterMap (attribute? · content)

def localName (content : Text) : Text :=
  let name := tagName content
  match name.dropWhile (· != ':') with
  | [] => name
  | _ :: t => t

/-- Elements that carry no artwork and belong to every layer. -/
def structuralNames : List Text :=
  ["defs", "metadata", "namedview", "style", "title", "desc", "script"]

def isStructural (content : Text) : Bool := structuralNames.contains (localName content)

end Markup

def compactDeclaration (declaration : Text) : Text := declaration.filter (!Text.isBlank ·)

def hides (declaration : Text) : Bool :=
  let compact := compactDeclaration declaration
  compact == "display:none" || "visibility:hidden".toList.isPrefixOf compact

def declarations (style : Text) : List Text :=
  ((style.splitOn ';').map Text.trim).filter (!·.isEmpty)

def cleanStyle (style : Text) : Text :=
  Text.join [';'] ((declarations style).filter (!hides ·))

namespace Attribute

/-- What is left of an attribute when its element is made visible. A value that cannot be resolved
counts as empty. -/
def reveal? (a : Attribute) : Option Attribute :=
  let value := a.value?.getD []
  if a.key = "display" then
    if Text.trim value = "none" then none else some a
  else if a.key = "visibility" then
    if Text.trim value = "visible" then some a else none
  else if a.key = "style" then
    match cleanStyle value with
    | [] => none
    | cleaned => some ⟨a.key, Entity.escape cleaned⟩
  else some a

end Attribute

def revealTag (content : Text) : Text :=
  Markup.tagName content ++
    ((Attribute.ofTag content).filterMap Attribute.reveal?).flatMap Attribute.write

end CutPath
