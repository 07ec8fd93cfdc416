import CutPath.Conversion

namespace CutPath.Conversion
set_option autoImplicit true

inductive Opened where
  | single (d : Document)
  | layers (print cut : Document) (regions : Nat)
  deriving DecidableEq, Repr

namespace Opened

def documents : Opened → List Document
  | single d => [d]
  | layers print cut _ => [print, cut]

def mentionsColor (o : Opened) : Bool := o.documents.any (·.mentions SpotColor.cutContourName)

end Opened

def openInput (tools : Tools σ) (settings : Settings) (avoid : List Text) (input : Path)
    (scratch : Place) : InputKind → Action σ Opened
  | .document => do
    let r ← get
    let d ← openAt (← attemptIo (r.store.locate input))
    return .single d
  | .drawing => do
    let r ← get
    let l ← attemptIo (r.store.locate input)
    let drawing ← attempt (decodeDrawing (← attemptIo (r.store.readAt l)))
    match ← attempt (layersOf settings drawing) with
    | some layers =>
      let print ← exportLayer tools avoid input scratch .print layers.print
      let cut ← exportLayer tools avoid input scratch .cut layers.cut
      return .layers print cut layers.regions
    | none =>
      let d ← runExporter tools ⟨⟨input, l⟩, none, outputIn scratch "drawing.eps"⟩
      return .single d

def finish (settings : Settings) : Opened → Action σ Converted
  | .single d => do
    let (strokes, d) ← markCut settings d
    return ⟨d, .singleLayer, strokes⟩
  | .layers print cut regions => do
    let (strokes, cut) ← markCut settings cut
    let (warnings, merged) := print.merge cut
    warn warnings
    return ⟨← attempt merged, .merged regions, strokes⟩

theorem convertInput_eq (tools : Tools σ) (settings : Settings) (avoid : List Text) (input : Path)
    (scratch : Place) (kind : InputKind) :
    convertInput tools settings avoid input scratch kind = (do
      let o ← openInput tools settings avoid input scratch kind
      ensureNotConverted tools o.documents
      finish settings o) := by
  cases kind with
  | document =>
    simp only [convertInput, openInput, convertSingle, finish, Opened.documents, bind_assoc,
      pure_bind]
  | drawing =>
    simp only [convertInput, convertDrawing, openInput, bind_assoc]
    refine bind_congr fun r => bind_congr fun l => bind_congr fun bytes => bind_congr fun drawing =>
      bind_congr fun layers => ?_
    cases layers with
    | some layers =>
      simp only [convertLayers, finish, Opened.documents, bind_assoc, pure_bind]
    | none => simp only [convertSingle, finish, Opened.documents, bind_assoc, pure_bind]

/-- Runs the body of a conversion in a scratch directory, when the settings and the name of the
input allow for one. -/
def inScratch (settings : Settings) (request : Request)
    (body : List Text → Path → InputKind → Place → Action σ α) : Action σ α := do
  attempt settings.check
  let kind ← attempt (InputKind.ofPath request.input)
  let destination := request.output.getD (defaultOutput request.input kind)
  let avoid := request.input.pieces ++ destination.pieces
  let r ← get
  withTemporary avoid r.store.scratchRoot "cutcontour-" [] .directory fun scratch =>
    body avoid destination kind scratch

/-- A run of a conversion that ends when the documents have been opened. -/
def opening (tools : Tools σ) (settings : Settings) (request : Request) : Action σ Opened :=
  inScratch settings request fun avoid _ kind scratch =>
    openInput tools settings avoid request.input scratch kind

theorem convert_inScratch (tools : Tools σ) (settings : Settings) (request : Request) :
    convert tools settings request =
      inScratch settings request (fun avoid destination kind scratch => do
        let made ← convertInput tools settings avoid request.input scratch kind
        deliver tools avoid destination made) := rfl

theorem convert_eq (tools : Tools σ) (settings : Settings) (request : Request) :
    convert tools settings request =
      inScratch settings request (fun avoid destination kind scratch => do
        let o ← openInput tools settings avoid request.input scratch kind
        ensureNotConverted tools o.documents
        let made ← finish settings o
        deliver tools avoid destination made) := by
  simp only [convert_inScratch, convertInput_eq, bind_assoc]

theorem run_bind (a : Action σ α) (f : α → Action σ β) (r : Run σ) :
    (a >>= f) r = match a r with
      | (.ok x, s) => f x s
      | (.error e, s) => (.error e, s) := by
  show ExceptT.bindCont f (a r).1 (a r).2 = _
  cases h : a r with
  | mk x s => cases x <;> rfl

theorem run_get (r : Run σ) : (get : Action σ (Run σ)) r = (.ok r, r) := rfl

theorem run_set (r s : Run σ) : (set s : Action σ PUnit) r = (.ok ⟨⟩, s) := rfl

theorem run_note (e : Event) (r : Run σ) : (note e : Action σ Unit) r =
    (.ok (), { r with history := r.history ++ [(e, r.store)] }) := rfl

theorem run_attempt (x : Except Failure α) (r : Run σ) : (attempt x : Action σ α) r = (x, r) := by
  cases x <;> rfl

end CutPath.Conversion
