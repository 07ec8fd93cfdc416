import CutPath.Settings

namespace CutPath.CommandLine

def line (t : Text) : Text := t ++ ['\n']

def version : Text := "cutcontour 0.3.0"

def usage : Text := "Usage: cutcontour [OPTIONS] <INPUT>"

def optionHelp : List Text :=
  ["Options:",
    "  -o, --output <OUTPUT>              Output file (default: <input>_versaworks.eps)",
    "  -w, --stroke-width <STROKE_WIDTH>  Stroke width in points (default: 0.25)",
    "      --ignore-region                Convert tagged SVG drawings as a single layer",
    "      --no-validate                  Skip Ghostscript validation of the output",
    "  -y, --yes                          " ++
      "Continue without asking when the input already uses CutContour",
    "      --config <CONFIG>              " ++
      "Config file (default: $XDG_CONFIG_HOME/cutcontour/config.json)",
    "  -v, --verbose                      Debug logging",
    "  -q, --quiet                        Warnings and errors only",
    "  -h, --help                         Print help",
    "  -V, --version                      Print version"]

def exampleHelp : List Text :=
  ["Examples:",
    "  cutcontour input.eps",
    "  cutcontour input.eps -o output_cutcontour.eps",
    "  cutcontour drawing.svg --stroke-width 0.5"]

def help : Text :=
  let paragraphs : List (List Text) :=
    [["Apply the CutContour spot color to EPS strokes for Roland VersaWorks"],
      [usage],
      ["Arguments:", "  <INPUT>  Input EPS/PS document or SVG drawing"],
      optionHelp,
      exampleHelp,
      ["SVG drawings with a layer or element named CutContour are split: only that",
        "region becomes cut lines, the rest is printed underneath."]]
  Text.join ['\n'] (paragraphs.map fun p => p.flatMap line)

structure Arguments where
  input : Path
  output : Option Path
  strokeWidth : Option Binary64
  ignoreRegion : Bool
  noValidate : Bool
  yes : Bool
  config : Option Path
  verbose : Bool
  quiet : Bool
  deriving DecidableEq, Repr

def Arguments.logLevel (a : Arguments) : Text :=
  if a.verbose then "debug" else if a.quiet then "warn" else "info"

inductive Stop where
  | help
  | version
  | missingArgument
  | unknownArgument
  | conflict
  | invalidValue
  | malformedValue
  | tooManyValues
  deriving DecidableEq, Repr

inductive Flag where
  | help
  | version
  | ignoreRegion
  | noValidate
  | yes
  | verbose
  | quiet
  deriving DecidableEq, Repr

inductive Setting where
  | output
  | strokeWidth
  | config
  deriving DecidableEq, Repr

inductive Named where
  | flag (f : Flag)
  | setting (s : Setting)
  deriving DecidableEq, Repr

def longNames : List (Text × Named) :=
  [("help", .flag .help), ("version", .flag .version), ("output", .setting .output),
    ("stroke-width", .setting .strokeWidth), ("ignore-region", .flag .ignoreRegion),
    ("no-validate", .flag .noValidate), ("yes", .flag .yes), ("config", .setting .config),
    ("verbose", .flag .verbose), ("quiet", .flag .quiet)]

def letters : List (Char × Named) :=
  [('h', .flag .help), ('V', .flag .version), ('o', .setting .output),
    ('w', .setting .strokeWidth), ('y', .flag .yes), ('v', .flag .verbose), ('q', .flag .quiet)]

/-- What has been looked at, but does not count as given yet. -/
inductive Pending where
  | setting (s : Setting) (value : Option Text)
  | input (value : Text)
  deriving DecidableEq, Repr

structure Draft where
  input : Option Path
  output : Option Path
  strokeWidth : Option Binary64
  config : Option Path
  flags : List Flag
  pending : Option Pending
  deriving DecidableEq, Repr

namespace Draft

def empty : Draft := ⟨none, none, none, none, [], none⟩

def readPath (value : Text) : Except Stop Path :=
  if value.isEmpty then .error .invalidValue else .ok ⟨value⟩

def readWidth (value : Text) : Except Stop Binary64 :=
  match Decimal.read? value with
  | some x => .ok x
  | none => .error .malformedValue

def give (d : Draft) (s : Setting) (value : Text) : Except Stop Draft :=
  match s with
  | .output =>
    if d.output.isSome then .error .conflict
    else (readPath value).map fun p => { d with output := some p }
  | .strokeWidth =>
    if d.strokeWidth.isSome then .error .conflict
    else (readWidth value).map fun x => { d with strokeWidth := some x }
  | .config =>
    if d.config.isSome then .error .conflict
    else (readPath value).map fun p => { d with config := some p }

def settle (d : Draft) : Except Stop Draft :=
  let done := { d with pending := none }
  match d.pending with
  | none => .ok d
  | some (.setting _ none) => .error .invalidValue
  | some (.setting s (some value)) => done.give s value
  | some (.input value) => (readPath value).map fun p => { done with input := some p }

def setFlag (d : Draft) (f : Flag) : Except Stop Draft := do
  let d ← d.settle
  match f with
  | .help => throw .help
  | .version => throw .version
  | f => if f ∈ d.flags then throw .conflict else return { d with flags := f :: d.flags }

def setSetting (d : Draft) (s : Setting) (attached : Option Text) : Except Stop Draft := do
  let d ← d.settle
  match attached with
  | some value => d.give s value
  | none => return { d with pending := some (.setting s none) }

def takeInput (d : Draft) (value : Text) : Except Stop Draft :=
  match d.input, d.pending with
  | some _, _ => .error .unknownArgument
  | none, some (.input _) => .error .unknownArgument
  | none, _ => d.settle.map fun d => { d with pending := some (.input value) }

def takeValue (d : Draft) (value : Text) : Except Stop Draft :=
  match d.pending with
  | some (.setting s none) => .ok { d with pending := some (.setting s (some value)) }
  | _ => d.takeInput value

def cutEquals (t : Text) : Text × Option Text :=
  match t.span (· != '=') with
  | (name, _ :: value) => (name, some value)
  | (name, []) => (name, none)

def takeLong (d : Draft) (t : Text) : Except Stop Draft :=
  let (name, attached) := cutEquals t
  match longNames.lookup name with
  | none => .error .unknownArgument
  | some (.setting s) => d.setSetting s attached
  | some (.flag f) => if attached.isSome then .error .tooManyValues else d.setFlag f

def attachedTo : Text → Option Text
  | [] => none
  | '=' :: value => some value
  | value => some value

/-- Takes letters, each a flag, up to one that takes a value. -/
def takeLetters (d : Draft) : Text → Except Stop Draft
  | [] => .ok d
  | c :: cs =>
    match letters.lookup c with
    | none => .error .unknownArgument
    | some (.setting s) => d.setSetting s (attachedTo cs)
    | some (.flag f) =>
      match d.setFlag f with
      | .ok d => takeLetters d cs
      | .error e => .error e

def take (d : Draft) : Text → Except Stop Draft
  | '-' :: '-' :: t => d.takeLong t
  | '-' :: c :: cs => d.takeLetters (c :: cs)
  | t => d.takeValue t

/-- Takes all arguments. After `--`, which is not one of them, none is an option. -/
def takeAll (d : Draft) (onlyInput : Bool) : List Text → Except Stop Draft
  | [] => d.settle
  | t :: ts =>
    if !onlyInput && t = "--" then takeAll d true ts
    else
      match if onlyInput then d.takeInput t else d.take t with
      | .ok d => takeAll d onlyInput ts
      | .error e => .error e

def finish (d : Draft) : Except Stop Arguments :=
  if .verbose ∈ d.flags ∧ .quiet ∈ d.flags then .error .conflict
  else
    match d.input with
    | none => .error .missingArgument
    | some input => .ok
      { input
        output := d.output
        strokeWidth := d.strokeWidth
        ignoreRegion := .ignoreRegion ∈ d.flags
        noValidate := .noValidate ∈ d.flags
        yes := .yes ∈ d.flags
        config := d.config
        verbose := .verbose ∈ d.flags
        quiet := .quiet ∈ d.flags }

end Draft

def Arguments.parse (args : List Text) : Except Stop Arguments := do
  (← Draft.empty.takeAll false args).finish

namespace Arguments

def layer (a : Arguments) (s : Settings) : Settings :=
  { s with
    strokeWidth := a.strokeWidth.getD s.strokeWidth
    ignoreRegion := s.ignoreRegion || a.ignoreRegion
    validate := s.validate && !a.noValidate
    assumeYes := s.assumeYes || a.yes }

def settingsPath (a : Arguments) (e : Settings.Environment) : Path :=
  a.config.getD (Settings.defaultPath e)

/-- The settings of a run. The file has to be in order by itself, and so has the result. -/
def settings (a : Arguments) (e : Settings.Environment) (store : Store) :
    Except Failure Settings := do
  let s := a.layer (← Settings.load store (a.settingsPath e))
  s.check
  return s

end Arguments
end CutPath.CommandLine
