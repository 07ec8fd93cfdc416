import CutPath.Document.Merge
import CutPath.Settings
import CutPath.Tool

namespace CutPath.Conversion

structure Request where
  input : Path
  output : Option Path
  deriving DecidableEq, Repr

inductive Mode where
  | singleLayer
  | merged (regions : Nat)
  deriving DecidableEq, Repr

structure Summary where
  output : Path
  mode : Mode
  strokes : Nat
  fingerprint : Text
  verdict : Verdict
  deriving DecidableEq, Repr

structure Place where
  path : Path
  location : Location
  deriving DecidableEq, Repr

structure Export where
  drawing : Place
  /-- The layer that the drawing holds; none for a drawing as it was given. -/
  layer : Option Layer
  output : Place
  deriving DecidableEq, Repr

/-- A step of a conversion that others can see. -/
inductive Event where
  | exporting (call : Export)
  | asking (question : Text)
  | staging (destination : Path)
  | validating (staged : Place)
  deriving DecidableEq, Repr

structure Run (σ : Type) where
  store : Store
  state : σ
  warnings : List Warning
  /-- The events so far, each with the files at that time. -/
  history : List (Event × Store)

/-- The collaborators of a conversion. They see the files but do not change them, except that the
exporter can leave something at the output that it is given. -/
structure Tools (σ : Type) where
  /-- Exports a drawing. The entry is what it leaves at the output. -/
  exporter : σ → Store → Export → Option Entry × Except Failure Unit × σ
  validator : σ → Store → Place → List Warning × Except Failure Verdict × σ
  confirm : σ → Text → Except Failure Bool × σ

abbrev Action (σ α : Type) := ExceptT Failure (StateM (Run σ)) α

variable {σ α : Type}

def attempt : Except Failure α → Action σ α
  | .ok a => pure a
  | .error e => throw e

def attemptIo (x : Except IoKind α) : Action σ α := attempt (x.mapError Failure.ofIo)

def warn (ws : List Warning) : Action σ Unit :=
  modify fun r => { r with warnings := r.warnings ++ ws }

def note (e : Event) : Action σ Unit :=
  modify fun r => { r with history := r.history ++ [(e, r.store)] }

/-- Puts an entry under a fresh name into a directory. Its path starts at the root, and the system
has to take a path of that length. -/
def makeTemporary (avoid : List Text) (dir : Path) (before after : Text) (e : Entry) :
    Action σ Place := do
  let r ← get
  let dir := r.store.fromRoot dir
  attemptIo (Store.admits (dir.join ⟨Store.temporaryName before after 0⟩))
  let l ← attemptIo (r.store.directory dir)
  match r.store.freshName? l avoid before after Store.maxTries 0 with
  | none => throw (.io .other "too many temporary files exist")
  | some name =>
    set { r with store := r.store.put (l ++ [name]) e }
    return ⟨dir.join ⟨name⟩, l ++ [name]⟩

def removingAfter (l : Location) (a : Action σ α) : Action σ α := fun r =>
  let (x, r) := a r
  (x, { r with store := r.store.remove l })

def withTemporary (avoid : List Text) (dir : Path) (before after : Text) (e : Entry)
    (body : Place → Action σ α) : Action σ α := do
  let place ← makeTemporary avoid dir before after e
  removingAfter place.location (body place)

structure Programs (σ : Type) where
  launch : σ → Store → Command → Launch × Option Entry × σ
  confirm : σ → Text → Except Failure Bool × σ

def timeLimit (settings : Settings) : Nat := settings.timeout * 1000

def exporterOf (settings : Settings) (programs : Programs σ) (state : σ) (store : Store)
    (call : Export) : Option Entry × Except Failure Unit × σ :=
  let output := call.output.path
  let c := Exporter.command settings.exporter call.drawing.path output none (timeLimit settings)
  let (launch, left, state) := programs.launch state store c
  let produced := Store.isFile (left <|> store.lookup call.output.location)
  (left, Exporter.outcome c output produced launch, state)

def validatorOf (settings : Settings) (programs : Programs σ) (state : σ) (store : Store)
    (staged : Place) : List Warning × Except Failure Verdict × σ :=
  if settings.validate then
    let c := Validator.command settings.validator staged.path (timeLimit settings)
    let (launch, _, state) := programs.launch state store c
    let (warnings, verdict) := Validator.outcome c launch
    (warnings, verdict, state)
  else ([], .ok .disabled, state)

def confirmOf (settings : Settings) (programs : Programs σ) (state : σ) (question : Text) :
    Except Failure Bool × σ :=
  if settings.assumeYes then (.ok true, state) else programs.confirm state question

def Programs.tools (programs : Programs σ) (settings : Settings) : Tools σ where
  exporter := exporterOf settings programs
  validator := validatorOf settings programs
  confirm := confirmOf settings programs

end CutPath.Conversion
