import CutPath.Conversion.Basic
import CutPath.Digest
import CutPath.Document.Pass
import CutPath.Drawing.Layers

namespace CutPath.Conversion

variable {σ : Type}

def directoryOf (p : Path) : Path :=
  match p.parent? with
  | some dir => if dir.text.isEmpty then ⟨"."⟩ else dir
  | none => ⟨"."⟩

def openAt (l : Location) : Action σ Document := do
  let r ← get
  attempt (Document.ofLatin1 (← attemptIo (r.store.readAt l)))

def question : Text := "File already contains '" ++ SpotColor.cutContourName ++ "'. Continue?"

def ensureNotConverted (tools : Tools σ) (docs : List Document) : Action σ Unit := do
  if docs.any (·.mentions SpotColor.cutContourName) then
    warn [.alreadyConverted SpotColor.cutContourName]
    note (.asking question)
    let r ← get
    let (answer, state) := tools.confirm r.state question
    set { r with state }
    if !(← attempt answer) then throw .declined

structure Converted where
  document : Document
  mode : Mode
  strokes : Nat
  deriving DecidableEq, Repr

def markCut (settings : Settings) (d : Document) : Action σ (Nat × Document) := do
  let (report, d) := d.markCut .cutContour settings.stroke
  warn report.warnings
  return (report.strokes.activations, d)

def convertSingle (tools : Tools σ) (settings : Settings) (d : Document) :
    Action σ Converted := do
  ensureNotConverted tools [d]
  let (strokes, d) ← markCut settings d
  return ⟨d, .singleLayer, strokes⟩

def runExporter (tools : Tools σ) (call : Export) : Action σ Document := do
  note (.exporting call)
  let r ← get
  let (left, result, state) := tools.exporter r.state r.store call
  let store := match left with
    | some e => r.store.put call.output.location e
    | none => r.store
  set { r with store, state }
  attempt result
  openAt call.output.location

def outputIn (scratch : Place) (name : Text) : Place :=
  ⟨scratch.path.join ⟨name⟩, scratch.location ++ [name]⟩

def layerName : Layer → Text
  | .print => "print"
  | .cut => "cut"

/-- Exports one layer. Its drawing is staged beside the input, so that what it links to is
found. -/
def exportLayer (tools : Tools σ) (avoid : List Text) (input : Path) (scratch : Place)
    (layer : Layer) (drawing : Text) : Action σ Document :=
  let name := layerName layer
  withTemporary avoid (directoryOf input) (".cutcontour-" ++ name ++ ['-']) ".svg"
    (.file (Text.Utf8.encode drawing)) fun place =>
      runExporter tools ⟨place, some layer, outputIn scratch (name ++ ".eps")⟩

def convertLayers (tools : Tools σ) (settings : Settings) (avoid : List Text) (input : Path)
    (scratch : Place) (layers : LayerSplit) : Action σ Converted := do
  let print ← exportLayer tools avoid input scratch .print layers.print
  let cut ← exportLayer tools avoid input scratch .cut layers.cut
  ensureNotConverted tools [print, cut]
  let (strokes, cut) ← markCut settings cut
  let (warnings, merged) := print.merge cut
  warn warnings
  return ⟨← attempt merged, .merged layers.regions, strokes⟩

def decodeDrawing (bytes : Bytes) : Except Failure Text :=
  match Text.Utf8.decode bytes with
  | .ok t => .ok t
  | .error m => .error (.drawing ("drawing is not UTF-8: " ++ m.message))

def layersOf (settings : Settings) (drawing : Text) : Except Failure (Option LayerSplit) :=
  if settings.ignoreRegion then .ok none else splitLayers drawing settings.regionTag

def convertDrawing (tools : Tools σ) (settings : Settings) (avoid : List Text) (input : Path)
    (scratch : Place) : Action σ Converted := do
  let r ← get
  let l ← attemptIo (r.store.locate input)
  let drawing ← attempt (decodeDrawing (← attemptIo (r.store.readAt l)))
  match ← attempt (layersOf settings drawing) with
  | some layers => convertLayers tools settings avoid input scratch layers
  | none =>
    let d ← runExporter tools ⟨⟨input, l⟩, none, outputIn scratch "drawing.eps"⟩
    convertSingle tools settings d

def convertInput (tools : Tools σ) (settings : Settings) (avoid : List Text) (input : Path)
    (scratch : Place) : InputKind → Action σ Converted
  | .document => do
    let r ← get
    let d ← openAt (← attemptIo (r.store.locate input))
    convertSingle tools settings d
  | .drawing => convertDrawing tools settings avoid input scratch

/-- Has a staged result checked. Whatever comes of it, the conversion goes on. -/
def runValidator (tools : Tools σ) (staged : Place) : Action σ Verdict := do
  note (.validating staged)
  let r ← get
  let (warnings, result, state) := tools.validator r.state r.store staged
  set { r with state, warnings := r.warnings ++ warnings }
  match result with
  | .ok verdict =>
    if !verdict.isAcceptable then warn [.rejectedButWritten verdict]
    return verdict
  | .error f =>
    warn [.validatorFailed f]
    return .skipped f.message

def commit (staged : Place) (destination : Path) : Action σ Unit := do
  let r ← get
  let l ← attemptIo (r.store.target destination)
  set { r with store := r.store.move staged.location l }

def deliver (tools : Tools σ) (avoid : List Text) (destination : Path) (made : Converted) :
    Action σ Summary := do
  let bytes ← attempt made.document.toLatin1
  note (.staging destination)
  withTemporary avoid (directoryOf destination) ".cutcontour-" ".eps" (.file bytes)
    fun staged => do
      let verdict ← runValidator tools staged
      commit staged destination
      return ⟨destination, made.mode, made.strokes, Digest.fingerprint bytes, verdict⟩

def convert (tools : Tools σ) (settings : Settings) (request : Request) : Action σ Summary := do
  attempt settings.check
  let kind ← attempt (InputKind.ofPath request.input)
  let destination := request.output.getD (defaultOutput request.input kind)
  let avoid := request.input.pieces ++ destination.pieces
  let r ← get
  withTemporary avoid r.store.scratchRoot "cutcontour-" [] .directory fun scratch => do
    let made ← convertInput tools settings avoid request.input scratch kind
    deliver tools avoid destination made

end CutPath.Conversion
