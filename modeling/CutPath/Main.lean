import CutPath.CommandLine

namespace CutPath.CommandLine

def entryAt (path : String) : IO (Option Entry) := do
  let file := (← IO.currentDir) / path
  if ← file.isDir then return some .directory
  if ← file.pathExists then return some (.file (← IO.FS.readBinFile path).toList)
  return none

def absolute (l : Location) : String := String.ofList (Store.pathOf l).text

def stations (l : Location) : List Text → List Location
  | [] => []
  | piece :: rest =>
    let next :=
      if Path.isIdle piece then l
      else if piece = ['.', '.'] then l.dropLast
      else l ++ [piece]
    next :: stations next rest

def readAlong (s : Store) (p : Path) : IO Store :=
  (stations (s.start p) p.pieces).foldlM (fun s l => do
    if (s.lookup l).isSome then return s
    match ← entryAt (absolute l) with
    | some e => return s.put l e
    | none => return s) s

def pathsOf (a : Arguments) (e : Settings.Environment) : List Path :=
  let destination := match a.output, InputKind.ofPath a.input with
    | some p, _ => [p]
    | none, .ok kind => [defaultOutput a.input kind]
    | none, .error _ => []
  [a.settingsPath e, a.input, Conversion.directoryOf a.input] ++ destination ++
    destination.map Conversion.directoryOf

def readStore (args : List Text) (e : Settings.Environment) : IO Store := do
  let here : Path := ⟨(← IO.currentDir).toString.toList⟩
  let temporary : Path := ⟨"/tmp"⟩
  let s : Store := ⟨[], stations [] here.pieces |>.getLast?.getD [], temporary⟩
  let s := s.put ["tmp"] .directory
  let s ← readAlong s here
  match Arguments.parse args with
  | .ok a => (pathsOf a e).foldlM readAlong s
  | .error _ => return s

def writeFile (l : Location) (bytes : Bytes) : IO Unit := do
  let draft := absolute l ++ ".part"
  IO.FS.writeBinFile draft ⟨bytes.toArray⟩
  IO.FS.rename draft (absolute l)

def writeChanges (before after : Store) : IO Unit :=
  after.entries.forM fun (l, e) =>
    match e with
    | .file bytes =>
      if before.lookup l = some (.file bytes) then return () else writeFile l bytes
    | .directory => return ()

/-- Runs the program, with a line from the terminal if it has a question. -/
def runAsking (args : List Text) (e : Settings.Environment) (s : Store) : IO Outcome := do
  let surroundings (input : Bytes) : Surroundings := ⟨⟨[], []⟩, input, []⟩
  let o := run args e (surroundings []) s
  let asked := Prompt.shown Conversion.question
  if asked.isPrefixOf o.errors then
    IO.eprint (String.ofList asked)
    let answer := (← (← IO.getStdin).getLine).toUTF8.toList
    let o := run args e (surroundings answer) s
    return { o with errors := o.errors.drop asked.length }
  return o

def getVariable (name : String) : IO (Option Text) := do
  return (← IO.getEnv name).map String.toList

end CutPath.CommandLine

open CutPath CutPath.CommandLine in
def main (args : List String) : IO UInt32 := do
  let args := args.map String.toList
  let e : Settings.Environment := ⟨← getVariable "XDG_CONFIG_HOME", ← getVariable "HOME"⟩
  let before ← readStore args e
  let o ← runAsking args e before
  writeChanges before o.store
  IO.print (String.ofList o.output)
  IO.eprint (String.ofList o.errors)
  return o.code.toUInt32
