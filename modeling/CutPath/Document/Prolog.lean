import CutPath.Document.Basic
import CutPath.SpotColor

namespace CutPath

inductive HeaderOutcome where
  | inserted (after : Nat)
  | alreadyPresent
  | noAnchor
  deriving DecidableEq, Repr

namespace HeaderOutcome

def warnings : HeaderOutcome → List Warning
  | noAnchor => [.noHeaderAnchor]
  | _ => []

end HeaderOutcome

namespace SpotColor

def headerLines (c : SpotColor) : List Text :=
  [Marker.customColors ++ " (" ++ c.name ++ ")",
    Marker.cmykCustomColor ++ " " ++ c.headerChannels ++ " (" ++ c.name ++ ")"]

end SpotColor

namespace Document

def headerWindow : Nat := 5

/-- Declares a color after the first line with a bounding box or a language level, unless that
line or one of the four after it declares custom colors. -/
def annotateHeader (d : Document) (c : SpotColor) : HeaderOutcome × Document :=
  match Marker.headerAnchor? d.lines with
  | none => (.noAnchor, d)
  | some anchor =>
    let near := d.lines.drop anchor
    if (near.take headerWindow).any (Text.occursIn Marker.customColors) then (.alreadyPresent, d)
    else
      let ending := lineEnding (near.headD [])
      (.inserted anchor, d.insert (anchor + 1) (c.headerLines.map (· ++ ending)))

end Document

def colorProcedure : Text := "CutContourColor"

def activateColor : Text := "SetCutContourStroke"

def activateWidth : Text := "SetHairlineStroke"

inductive PrologOutcome where
  | beforePrologEnd (i : Nat)
  | beforeSetup (i : Nat)
  | skipped
  deriving DecidableEq, Repr

namespace PrologOutcome

def warnings : PrologOutcome → List Warning
  | beforePrologEnd _ => []
  | beforeSetup _ => [.prologEndMissing]
  | skipped => [.prologPlaceMissing]

end PrologOutcome

def findColorFallback : List Text :=
  ["/findcmykcustomcolor where \x7b",
   "  pop",
   "\x7d \x7b",
   "  % Level 1 fallback: keep C M Y K name together",
   "  /findcmykcustomcolor \x7b",
   "    5 array astore",
   "  \x7d def",
   "\x7d ifelse"]

def setColorFallback : List Text :=
  ["/setcustomcolor where \x7b",
   "  pop",
   "\x7d \x7b",
   "  % Level 1 fallback: scale the CMYK components by the tint",
   "  /setcustomcolor \x7b",
   "    exch aload pop pop",
   "    4 \x7b",
   "      4 index mul 4 1 roll",
   "    \x7d repeat",
   "    5 -1 roll pop",
   "    setcmykcolor",
   "  \x7d def",
   "\x7d ifelse"]

def cutProcedures (c : SpotColor) (style : StrokeStyle) : List Text :=
  ["/" ++ colorProcedure ++ " \x7b",
   "  " ++ c.literalChannels ++ " (" ++ c.name ++ ") findcmykcustomcolor",
   "\x7d def",
   "/" ++ activateColor ++ " \x7b",
   "  " ++ colorProcedure ++ " 1.0 setcustomcolor",
   "\x7d def",
   "/" ++ activateWidth ++ " \x7b",
   "  " ++ style.literalWidth ++ " setlinewidth",
   "\x7d def"]

def procedureLines (c : SpotColor) (style : StrokeStyle) : List Text :=
  [] :: ("% " ++ c.name ++ " spot color support") ::
    (findColorFallback ++ setColorFallback ++ cutProcedures c style ++ [[]])

/-- The procedures as lines of a document: a color name that spans lines makes several of one. -/
def procedureBlock (c : SpotColor) (style : StrokeStyle) : List Text :=
  (procedureLines c style).flatMap Document.splitLines

namespace Document

def prologPlace (d : Document) : PrologOutcome :=
  match Marker.prologEnd? d.lines with
  | some i => .beforePrologEnd i
  | none =>
    match Marker.setupBegin? d.lines with
    | some i => .beforeSetup i
    | none => .skipped

def insertLike (d : Document) (i : Nat) (new : List Text) : Document :=
  d.insert i (new.map (· ++ lineEnding ((d.lines.drop i).headD [])))

/-- Puts the procedures in front of the end of the prolog, or else of the setup. A second run adds
a second block. -/
def injectProlog (d : Document) (c : SpotColor) (style : StrokeStyle) :
    PrologOutcome × Document :=
  let place := d.prologPlace
  match place with
  | .beforePrologEnd i | .beforeSetup i => (place, d.insertLike i (procedureBlock c style))
  | .skipped => (place, d)

end Document
end CutPath
