import CutPath.Document.Prolog

namespace CutPath

inductive Label where
  | outsidePage
  | pageStart
  | pageEnd
  | colorSet
  | cmykSet
  | graySet
  | widthSet
  | strokeInline
  | strokeStandalone
  | other
  deriving DecidableEq, Repr

namespace Label

def inPage : Label → Bool
  | outsidePage | pageEnd => false
  | _ => true

end Label

def strokeTokens : List Text := ["S", "stroke"]

def isStrokeToken (word : Text) : Bool := strokeTokens.contains word

namespace Instruction

/-- Skips `count` numerals, each with the blanks after it, of which there has to be one. -/
def skipNumerals? : (count : Nat) → Text → Option Text
  | 0, t => some t
  | count + 1, t =>
    if (t.takeWhile Text.isNumeralChar).isEmpty then none
    else match t.dropWhile Text.isNumeralChar with
      | [] => none
      | c :: rest =>
        if Text.isBlank c then skipNumerals? count (Text.trimStart rest) else none

def sets (count : Nat) (operators : List Text) (line : Text) : Bool :=
  match skipNumerals? count (Text.trimStart line) with
  | some rest => operators.contains (Text.trimEnd rest)
  | none => false

def label (line : Text) : Label :=
  if sets 3 ["rg", "setrgbcolor"] line then .colorSet
  else if sets 4 ["k", "setcmykcolor"] line then .cmykSet
  else if sets 1 ["g", "setgray"] line then .graySet
  else if sets 1 ["w", "setlinewidth"] line then .widthSet
  else if isStrokeToken (Text.trim line) then .strokeStandalone
  else if (Text.words line).any isStrokeToken then .strokeInline
  else .other

end Instruction

/-- Whether the lines read so far leave the reader inside a page. -/
inductive Region where
  | outside
  | page
  deriving DecidableEq, Repr

namespace Region

def read (r : Region) (line : Text) : Label × Region :=
  if Marker.isPageStart line then (.pageStart, .page)
  else if Marker.isPageEnd line then (.pageEnd, .outside)
  else match r with
    | .outside => (.outsidePage, .outside)
    | .page => (Instruction.label line, .page)

def labels (r : Region) : List Text → List Label
  | [] => []
  | line :: lines => (r.read line).1 :: (r.read line).2.labels lines

end Region

namespace Document

def labels (d : Document) : List Label := Region.outside.labels d.lines

end Document

structure StrokeCounts where
  colorsRemoved : Nat
  widthsReplaced : Nat
  inlineStrokes : Nat
  standaloneStrokes : Nat
  deriving DecidableEq, Repr

namespace StrokeCounts

def zero : StrokeCounts := ⟨0, 0, 0, 0⟩

def add (s t : StrokeCounts) : StrokeCounts :=
  ⟨s.colorsRemoved + t.colorsRemoved, s.widthsReplaced + t.widthsReplaced,
    s.inlineStrokes + t.inlineStrokes, s.standaloneStrokes + t.standaloneStrokes⟩

def activations (s : StrokeCounts) : Nat := s.inlineStrokes + s.standaloneStrokes

end StrokeCounts

/-- A piece of a line: one blank, or a word as long as it goes. -/
inductive Segment where
  | blank (c : Char)
  | word (w : Text)
  deriving DecidableEq, Repr

namespace Segment

def extend (c : Char) (segments : List Segment) : List Segment :=
  if Text.isBlank c then blank c :: segments
  else match segments with
    | word w :: rest => word (c :: w) :: rest
    | _ => word [c] :: segments

def ofLine (line : Text) : List Segment := line.foldr extend []

def text : Segment → Text
  | blank c => [c]
  | word w => w

def isStroke : Segment → Bool
  | blank _ => false
  | word w => isStrokeToken w

end Segment

def activation : Text := activateColor ++ " " ++ activateWidth ++ " "

/-- A line with both calls in front of every stroke word, and all else as it was. -/
def activateInline (line : Text) : Text :=
  (Segment.ofLine line).flatMap fun s => if s.isStroke then activation ++ s.text else s.text

def inlineStrokes (line : Text) : Nat := (Segment.ofLine line).countP Segment.isStroke

def markLine (line : Text) : Label → List Text
  | .colorSet | .cmykSet | .graySet => []
  | .widthSet => [activateWidth ++ lineEnding line]
  | .strokeInline => [activateInline line]
  | .strokeStandalone =>
    [activateColor ++ lineEnding line, activateWidth ++ lineEnding line, line]
  | .outsidePage | .pageStart | .pageEnd | .other => [line]

def countLine (line : Text) : Label → StrokeCounts
  | .colorSet | .cmykSet | .graySet => ⟨1, 0, 0, 0⟩
  | .widthSet => ⟨0, 1, 0, 0⟩
  | .strokeInline => ⟨0, 0, inlineStrokes line, 0⟩
  | .strokeStandalone => ⟨0, 0, 0, 1⟩
  | .outsidePage | .pageStart | .pageEnd | .other => .zero

namespace Document

def markLabelled (d : Document) (labels : List Label) : StrokeCounts × Document :=
  let labelled := d.lines.zip labels
  (labelled.foldl (fun s l => s.add (countLine l.1 l.2)) .zero,
    ⟨labelled.flatMap fun l => markLine l.1 l.2⟩)

def markStrokes (d : Document) : StrokeCounts × Document := d.markLabelled d.labels

end Document

structure PassReport where
  header : HeaderOutcome
  prolog : PrologOutcome
  strokes : StrokeCounts
  deriving DecidableEq, Repr

namespace PassReport

def warnings (r : PassReport) : List Warning := r.header.warnings ++ r.prolog.warnings

end PassReport

def passProgress (c : SpotColor) : List Text :=
  ["[1/3] adding DSC header definitions",
   "[2/3] adding spot color PostScript support",
   "[3/3] replacing stroke commands with " ++ c.name,
   "cut contour applied"]

namespace Document

def markCut (d : Document) (c : SpotColor) (style : StrokeStyle) : PassReport × Document :=
  let (header, d) := d.annotateHeader c
  let (prolog, d) := d.injectProlog c style
  let (strokes, d) := d.markStrokes
  (⟨header, prolog, strokes⟩, d)

end Document
end CutPath
