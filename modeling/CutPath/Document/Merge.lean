import CutPath.Document.Basic

namespace CutPath

inductive Layer where
  | print
  | cut
  deriving DecidableEq, Repr

namespace Layer

def name : Layer → Text
  | print => "print"
  | cut => "cut"

def headerStep (l : Layer) : Text := l.name ++ " document header"

def setupStep (l : Layer) : Text := l.name ++ " document page setup"

def bodyStep (l : Layer) : Text := l.name ++ " document page body"

end Layer

namespace Page

def saveToken : Text := "q"

def restoreToken : Text := "Q"

def clipToken : Text := "rectclip"

def isClip (line : Text) : Bool := (Text.words line).contains clipToken

def saveDepth (line : Text) : Nat := Text.countWord saveToken line

def isRestoreOnly (line : Text) : Bool :=
  !(Text.words line).isEmpty && (Text.words line).all (· == restoreToken)

/-- The clip line of a page body with what follows it, when the first line with a word is one. -/
def splitClip (body : List Text) : Option Text × List Text :=
  match body.dropWhile Text.isBlankText with
  | [] => (none, body)
  | first :: rest => if isClip first then (some first, rest) else (none, body)

def restores (count : Nat) : Text := Text.join [' '] (List.replicate count restoreToken)

/-- Takes up to `need` restores off the end of a body, which is given backwards, and with them the
blank lines in between. The result is the rest, still backwards, and the number taken. -/
def stripRestores : (need : Nat) → List Text → List Text × Nat
  | 0, lines => (lines, 0)
  | _ + 1, [] => ([], 0)
  | need + 1, line :: lines =>
    if Text.isBlankText line then stripRestores (need + 1) lines
    else if isRestoreOnly line then
      let count := (Text.words line).length
      if count ≤ need + 1 then
        let (rest, taken) := stripRestores (need + 1 - count) lines
        (rest, count + taken)
      else ((restores (count - (need + 1)) ++ lineEnding line) :: lines, need + 1)
    else (line :: lines, 0)

end Page

structure PageParts where
  boundingBox : Text
  setupEnd : Nat
  paint : Nat
  clip : Option Text
  depth : Nat
  /-- The artwork, without the restores that close the clip line. -/
  fragment : List Text
  closed : Nat
  deriving DecidableEq, Repr

namespace PageParts

def ofLines (layer : Layer) (lines : List Text) : Except Failure PageParts :=
  match Marker.boundingBox? lines with
  | none => .error (.markerNotFound layer.headerStep Marker.boundingBox)
  | some box =>
    match Marker.pageSetupEnd? lines with
    | none => .error (.markerNotFound layer.setupStep Marker.endPageSetup)
    | some setupEnd =>
      match Marker.pagePaint? (setupEnd + 1) lines with
      | none => .error (.markerNotFound layer.bodyStep Marker.showpage)
      | some paint =>
        let body := (lines.take paint).drop (setupEnd + 1)
        let (clip, inner) := Page.splitClip body
        let depth := clip.elim 0 Page.saveDepth
        let (rest, closed) := Page.stripRestores depth inner.reverse
        .ok ⟨Text.trim ((lines.drop box).headD []), setupEnd, paint, clip, depth, rest.reverse,
          closed⟩

def warnings (layer : Layer) (p : PageParts) : List Warning :=
  if p.closed < p.depth then [.unrestoredSaves layer.bodyStep p.depth p.closed] else []

end PageParts

namespace Document

/-- The lines of a merged document: up to the cut document's clip line, both fragments, the
restores that the cut document's clip line needs, and the rest of the cut document. -/
def mergedLines (cutLines : List Text) (print cut : PageParts) : List Text :=
  let tail := cutLines.drop cut.paint
  cutLines.take (cut.setupEnd + 1) ++ cut.clip.toList ++ print.fragment ++ cut.fragment ++
    (if cut.closed = 0 then []
     else [Page.restores cut.closed ++ lineEnding (tail.headD [])]) ++ tail

def boundingBoxWarnings (print cut : PageParts) : List Warning :=
  if print.boundingBox = cut.boundingBox then []
  else [.boundingBoxesDiffer print.boundingBox cut.boundingBox]

/-- Merges a print and a cut document. The remarks are those made up to the first failure. -/
def merge (print cut : Document) : List Warning × Except Failure Document :=
  match PageParts.ofLines .print print.lines with
  | .error f => ([], .error f)
  | .ok p =>
    match PageParts.ofLines .cut cut.lines with
    | .error f => (p.warnings .print, .error f)
    | .ok c =>
      let warnings := p.warnings .print ++ c.warnings .cut
      match Marker.trailer? (c.paint + 1) cut.lines with
      | none => (warnings, .error (.markerNotFound "cut document trailer" Marker.trailer))
      | some _ => (warnings ++ boundingBoxWarnings p c, .ok ⟨mergedLines cut.lines p c⟩)

end Document
end CutPath
