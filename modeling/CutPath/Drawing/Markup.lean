import CutPath.Text.Utf8

namespace CutPath

inductive Leaf where
  | text (raw : Text)
  | cdata (content : Text)
  | comment (content : Text)
  | instruction (content : Text)
  | doctype (content : Text)
  deriving DecidableEq, Repr

namespace Leaf

def write : Leaf → Text
  | text raw => raw
  | cdata content => "<![CDATA[" ++ content ++ "]]>"
  | comment content => "<!--" ++ content ++ "-->"
  | instruction content => "<?" ++ content ++ "?>"
  | doctype content => "<!DOCTYPE " ++ content ++ ">"

end Leaf

/-- A leaf or a tag. Tags that start an element hold all that stands between their brackets. -/
inductive Markup where
  | leaf (l : Leaf)
  | openTag (content : Text)
  | emptyTag (content : Text)
  | closeTag (name : Text)
  deriving DecidableEq, Repr

namespace Markup

def isSpace (c : Char) : Bool := c == ' ' || c == '\t' || c == '\n' || c == '\r'

def write : Markup → Text
  | leaf l => l.write
  | openTag content => "<" ++ content ++ ">"
  | emptyTag content => "<" ++ content ++ "/>"
  | closeTag name => "</" ++ name ++ ">"

def tagName (content : Text) : Text := content.takeWhile (!isSpace ·)

end Markup

inductive MarkupFault where
  | unknown
  | unclosedCdata
  | unclosedComment
  | unclosedInstruction
  | unclosedDoctype
  | unclosedTag
  | unnamedDoctype
  | mismatchedClose (expected found : Text)
  | unmatchedClose (name : Text)
  deriving DecidableEq, Repr

namespace MarkupFault

def notFound (what terminator : Text) : Text :=
  "syntax error: " ++ what ++ " not closed: `" ++ terminator ++ "` not found before end of input"

def message : MarkupFault → Text
  | unknown => "syntax error: unknown or missed symbol in markup"
  | unclosedCdata => notFound "CDATA" "]]>"
  | unclosedComment => notFound "comment" "-->"
  | unclosedInstruction => notFound "processing instruction or xml declaration" "?>"
  | unclosedDoctype => notFound "DOCTYPE" ">"
  | unclosedTag => notFound "tag" ">"
  | unnamedDoctype =>
    "ill-formed document: `<!DOCTYPE>` declaration does not contain a name of a document type"
  | mismatchedClose expected found =>
    "ill-formed document: expected `</" ++ expected ++ ">`, but `</" ++ found ++ ">` was found"
  | unmatchedClose name =>
    "ill-formed document: close tag `</" ++ name ++ ">` does not match any open tag"

end MarkupFault

namespace Markup

def cutAt? (stop : Text) : Text → Option (Text × Text)
  | [] => none
  | c :: t =>
    if stop.isPrefixOf (c :: t) then some ([], (c :: t).drop stop.length)
    else (cutAt? stop t).map fun p => (c :: p.1, p.2)

/-- Cuts a text at the first closing bracket that no bracket opens. -/
def cutBalanced? (depth : Nat) : Text → Option (Text × Text)
  | [] => none
  | c :: t =>
    if c = '>' ∧ depth = 0 then some ([], t)
    else
      let deeper := if c = '<' then depth + 1 else if c = '>' then depth - 1 else depth
      (cutBalanced? deeper t).map fun p => (c :: p.1, p.2)

def quoteAfter (inside : Option Char) (c : Char) : Option Char :=
  match inside with
  | none => if c = '"' ∨ c = '\'' then some c else none
  | some q => if c = q then none else some q

/-- Cuts a tag at its closing bracket. Brackets between quotes do not count; `inside` is the quote
that is open. -/
def cutTag? (inside : Option Char) : Text → Option (Text × Text)
  | [] => none
  | c :: t =>
    if c = '>' ∧ inside = none then some ([], t)
    else (cutTag? (quoteAfter inside c) t).map fun p => (c :: p.1, p.2)

/-- A piece of markup with the text after it, or a fault with the text that is left unread. -/
abbrev Reading := Except (MarkupFault × Text) (Markup × Text)

def fail (f : MarkupFault) (rest : Text) : Reading := .error (f, rest)

def readBang (t : Text) : Reading :=
  match t with
  | '[' :: _ =>
    match cutAt? "]]>" t with
    | none => fail .unclosedCdata []
    | some (body, rest) =>
      if "[CDATA[".toList.isPrefixOf body then .ok (leaf (.cdata (body.drop 7)), rest)
      else fail .unclosedCdata rest
  | '-' :: _ =>
    match cutAt? "-->" (t.drop 2) with
    | none => fail .unclosedComment []
    | some (body, rest) =>
      if t.take 2 = ['-', '-'] then .ok (leaf (.comment body), rest)
      else fail .unclosedComment rest
  | c :: _ =>
    if c = 'D' ∨ c = 'd' then
      match cutBalanced? 0 t with
      | none => fail .unclosedDoctype []
      | some (body, rest) =>
        if Text.lowerAscii (body.take 7) = "doctype" then
          match (body.drop 7).dropWhile isSpace with
          | [] => fail .unnamedDoctype rest
          | content => .ok (leaf (.doctype content), rest)
        else fail .unclosedDoctype rest
    else fail .unknown ('!' :: t)
  | [] => fail .unknown ['!']

def readInstruction (t : Text) : Reading :=
  match cutAt? "?>" t with
  | none => fail .unclosedInstruction []
  | some ([], rest) => fail .unclosedInstruction rest
  | some (_ :: content, rest) => .ok (leaf (.instruction content), rest)

/-- The name in a closing tag: spaces at the end are dropped, unless there is nothing else. -/
def closingName (content : Text) : Text :=
  match (content.reverse.dropWhile isSpace).reverse with
  | [] => content
  | name => name

def readClose (t : Text) : Reading :=
  match cutTag? none t with
  | none => fail .unclosedTag []
  | some (content, rest) => .ok (closeTag (closingName content), rest)

def readStart (t : Text) : Reading :=
  match cutTag? none t with
  | none => fail .unclosedTag []
  | some (content, rest) =>
    if content.getLast? = some '/' then .ok (emptyTag content.dropLast, rest)
    else .ok (openTag content, rest)

def readAngle : Text → Reading
  | '!' :: t => readBang t
  | '?' :: t => readInstruction ('?' :: t)
  | '/' :: t => readClose t
  | [] => fail .unclosedTag []
  | t => readStart t

def read (c : Char) (t : Text) : Reading :=
  if c = '<' then readAngle t
  else .ok (leaf (.text (c :: t.takeWhile (· != '<'))), t.dropWhile (· != '<'))

theorem cutAt?_eq {stop t body rest : Text} (h : cutAt? stop t = some (body, rest)) :
    t = body ++ stop ++ rest := by
  induction t generalizing body with
  | nil => simp [cutAt?] at h
  | cons c t ih =>
    rw [cutAt?] at h
    split at h
    · next hp =>
      obtain ⟨k, hk⟩ := List.isPrefixOf_iff_prefix.1 hp
      simp only [Option.some.injEq, Prod.mk.injEq] at h
      obtain ⟨rfl, rfl⟩ := h
      rw [← hk, List.drop_left, List.nil_append]
    · obtain ⟨⟨b, r⟩, hp, he⟩ := Option.map_eq_some_iff.1 h
      simp only [Prod.mk.injEq] at he
      obtain ⟨rfl, rfl⟩ := he
      rw [ih hp, List.cons_append, List.cons_append]

theorem cutBalanced?_eq {depth : Nat} {t body rest : Text}
    (h : cutBalanced? depth t = some (body, rest)) : t = body ++ '>' :: rest := by
  induction t generalizing depth body with
  | nil => simp [cutBalanced?] at h
  | cons c t ih =>
    rw [cutBalanced?] at h
    split at h
    · next hc =>
      simp only [Option.some.injEq, Prod.mk.injEq] at h
      obtain ⟨rfl, rfl⟩ := h
      rw [hc.1, List.nil_append]
    · obtain ⟨⟨b, r⟩, hp, he⟩ := Option.map_eq_some_iff.1 h
      simp only [Prod.mk.injEq] at he
      obtain ⟨rfl, rfl⟩ := he
      rw [ih hp, List.cons_append]

theorem cutTag?_eq {inside : Option Char} {t body rest : Text}
    (h : cutTag? inside t = some (body, rest)) : t = body ++ '>' :: rest := by
  induction t generalizing inside body with
  | nil => simp [cutTag?] at h
  | cons c t ih =>
    rw [cutTag?] at h
    split at h
    · next hc =>
      simp only [Option.some.injEq, Prod.mk.injEq] at h
      obtain ⟨rfl, rfl⟩ := h
      rw [hc.1, List.nil_append]
    · obtain ⟨⟨b, r⟩, hp, he⟩ := Option.map_eq_some_iff.1 h
      simp only [Prod.mk.injEq] at he
      obtain ⟨rfl, rfl⟩ := he
      rw [ih hp, List.cons_append]

theorem length_readBang {t rest : Text} {m : Markup} (h : readBang t = .ok (m, rest)) :
    rest.length ≤ t.length := by
  unfold readBang fail at h
  split at h
  · split at h
    · cases h
    · next hc =>
      split at h <;> cases h
      rw [cutAt?_eq hc]; simp only [List.length_append]; omega
  · split at h
    · cases h
    · next hc =>
      split at h <;> cases h
      have := congrArg List.length (cutAt?_eq hc)
      simp only [List.length_append, List.length_drop] at this; omega
  · split at h
    · split at h
      · cases h
      · next hc =>
        split at h
        · split at h <;> cases h
          rw [cutBalanced?_eq hc]; simp only [List.length_append, List.length_cons]; omega
        · cases h
    · cases h
  · cases h

theorem length_readInstruction {t rest : Text} {m : Markup}
    (h : readInstruction t = .ok (m, rest)) : rest.length ≤ t.length := by
  unfold readInstruction fail at h
  split at h <;> cases h
  next hc => rw [cutAt?_eq hc]; simp only [List.length_append]; omega

theorem length_readClose {t rest : Text} {m : Markup} (h : readClose t = .ok (m, rest)) :
    rest.length ≤ t.length := by
  unfold readClose fail at h
  split at h <;> cases h
  next hc => rw [cutTag?_eq hc]; simp only [List.length_append, List.length_cons]; omega

theorem length_readStart {t rest : Text} {m : Markup} (h : readStart t = .ok (m, rest)) :
    rest.length ≤ t.length := by
  unfold readStart fail at h
  split at h
  · cases h
  · next hc =>
    have hl := congrArg List.length (cutTag?_eq hc)
    simp only [List.length_append, List.length_cons] at hl
    split at h <;> cases h <;> omega

theorem length_readAngle {t rest : Text} {m : Markup} (h : readAngle t = .ok (m, rest)) :
    rest.length ≤ t.length := by
  unfold readAngle at h
  split at h
  · exact Nat.le_succ_of_le (length_readBang h)
  · exact length_readInstruction h
  · exact Nat.le_succ_of_le (length_readClose h)
  · cases h
  · exact length_readStart h

theorem length_read {c : Char} {t rest : Text} {m : Markup} (h : read c t = .ok (m, rest)) :
    rest.length ≤ t.length := by
  unfold read at h
  split at h
  · exact length_readAngle h
  · cases h
    exact (List.dropWhile_suffix _).length_le

/-- All markup of a text in order, with the text left after each piece, and the fault that ends
the reading early. -/
def scan : Text → List (Markup × Text) × Option (MarkupFault × Text)
  | [] => ([], none)
  | c :: t =>
    match h : read c t with
    | .error fault => ([], some fault)
    | .ok (m, rest) =>
      have : rest.length ≤ t.length := length_read h
      let later := scan rest
      ((m, rest) :: later.1, later.2)
termination_by t => t.length
decreasing_by exact Nat.lt_succ_of_le this

end Markup
end CutPath
