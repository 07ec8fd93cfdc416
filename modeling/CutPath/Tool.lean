import CutPath.Store

namespace CutPath

structure Command where
  program : Path
  arguments : List Text
  timeout : Nat
  deriving DecidableEq, Repr

inductive ExitStatus where
  | exited (code : UInt8)
  /-- Ended by a signal, which may have left an image of its memory. -/
  | signalled (signal : Nat) (dumped : Bool := false)
  deriving DecidableEq, Repr

namespace ExitStatus

def isSuccess (s : ExitStatus) : Bool := s == exited 0

def signalNames : List String :=
  ["HUP", "INT", "QUIT", "ILL", "TRAP", "ABRT", "BUS", "FPE", "KILL", "USR1", "SEGV", "USR2",
    "PIPE", "ALRM", "TERM", "STKFLT", "CHLD", "CONT", "STOP", "TSTP", "TTIN", "TTOU", "URG",
    "XCPU", "XFSZ", "VTALRM", "PROF", "WINCH", "IO", "PWR", "SYS"]

def signalName (signal : Nat) : Text :=
  match ("" :: signalNames)[signal]? with
  | some "" => []
  | some name => " (SIG" ++ name ++ ")"
  | none => []

def dumpNote (dumped : Bool) : Text := if dumped then " (core dumped)" else []

def message : ExitStatus → Text
  | exited code => "exit status: " ++ Text.ofNat code.toNat
  | signalled signal dumped =>
    "signal: " ++ (Text.ofNat signal ++ signalName signal ++ dumpNote dumped)

end ExitStatus

inductive Launch where
  | notStarted (kind : IoKind) (detail : Text)
  | overran
  | finished (status : ExitStatus) (errors : Bytes)
  deriving DecidableEq, Repr

namespace Tool

def name (program : Path) : Text := program.fileName?.getD program.text

def overrun (c : Command) : Failure := .timeout (name c.program) (c.timeout / 1000)

def takeBytes : Nat → Text → Text
  | _, [] => []
  | room, c :: t =>
    let n := (Text.Utf8.encodeChar c).length
    if n ≤ room then c :: takeBytes (room - n) t else []

def tailBytes : Nat := 400

/-- The end of a text without blanks around it, as much as fits into a message. -/
def tail (t : Text) : Text := (takeBytes tailBytes (Text.trim t).reverse).reverse

theorem takeBytes_prefix (room : Nat) (t : Text) : takeBytes room t <+: t := by
  induction t generalizing room with
  | nil => exact List.prefix_refl []
  | cons c t ih =>
    rw [takeBytes]
    split
    · exact List.cons_prefix_cons.2 ⟨rfl, ih _⟩
    · exact List.nil_prefix

theorem size_takeBytes_le (room : Nat) (t : Text) : Text.Utf8.size (takeBytes room t) ≤ room := by
  induction t generalizing room with
  | nil => exact Nat.zero_le _
  | cons c t ih =>
    rw [takeBytes]
    split
    · next h =>
      have := ih (room - (Text.Utf8.encodeChar c).length)
      rw [Text.Utf8.size_cons]
      omega
    · exact Nat.zero_le _

theorem tail_suffix (t : Text) : tail t <:+ Text.trim t := by
  have h := takeBytes_prefix tailBytes (Text.trim t).reverse
  rw [tail, ← List.reverse_prefix, List.reverse_reverse]
  exact h

theorem size_tail_le (t : Text) : Text.Utf8.size (tail t) ≤ tailBytes := by
  rw [tail, Text.Utf8.size_reverse]
  exact size_takeBytes_le _ _

end Tool

namespace Exporter

def selection : Option Text → List Text
  | some id => ["--export-id=" ++ id, "--export-id-only"]
  | none => []

def arguments (drawing output : Path) (selector : Option Text) : List Text :=
  let page : List Text :=
    [drawing.text, "--export-type=eps", "--export-filename=" ++ output.text, "--export-area-page",
      "--export-text-to-path"]
  page ++ selection selector

def command (program drawing output : Path) (selector : Option Text) (timeout : Nat) : Command :=
  ⟨program, arguments drawing output selector, timeout⟩

/-- What the end of an export means. Success is believed only when the output is there. -/
def outcome (c : Command) (output : Path) (produced : Bool) : Launch → Except Failure Unit
  | .notStarted .notFound _ => .error (.exporter (Tool.name c.program ++ ": program not found"))
  | .notStarted _ detail => .error (.exporter (Tool.name c.program ++ ": " ++ detail))
  | .overran => .error (Tool.overrun c)
  | .finished status errors =>
    if !status.isSuccess then
      .error (.exporter (Tool.name c.program ++ " exited with " ++ status.message ++ ": " ++
        Tool.tail (Text.Utf8.decodeLossy errors)))
    else if !produced then
      .error (.exporter (Tool.name c.program ++ " reported success but produced no output at " ++
        output.text))
    else .ok ()

end Exporter

namespace Validator

def arguments (document : Path) : List Text :=
  ["-q", "-dSAFER", "-dBATCH", "-dNOPAUSE", "-sDEVICE=nullpage", document.text]

def command (program document : Path) (timeout : Nat) : Command :=
  ⟨program, arguments document, timeout⟩

/-- What the end of a check means. A validator that is not installed is no failure. -/
def outcome (c : Command) : Launch → List Warning × Except Failure Verdict
  | .notStarted .notFound _ =>
    let name := Tool.name c.program
    ([.validatorMissing name], .ok (.skipped (name ++ " not installed")))
  | .notStarted _ detail => ([], .error (.validator (Tool.name c.program ++ ": " ++ detail)))
  | .overran => ([], .error (Tool.overrun c))
  | .finished status errors =>
    if status.isSuccess then ([], .ok .valid)
    else ([.documentRejected status.message],
      .ok (.invalid (Tool.tail (Text.Utf8.decodeLossy errors))))

end Validator

namespace Tool

structure Act where
  executable : Bool
  errors : Bytes
  output : Option Entry
  duration : Nat
  ending : ExitStatus
  deriving DecidableEq, Repr

namespace Act

def launch (a : Act) (timeout : Nat) : Launch :=
  if !a.executable then .notStarted .permissionDenied IoKind.permissionDenied.detail
  else if timeout ≤ a.duration then .overran
  else .finished a.ending a.errors

def left (a : Act) : Option Entry := if a.executable then a.output else none

end Act

/-- The performances of a program that are still to come; the last one is repeated. -/
abbrev Part := List Act

structure Cast where
  directory : Location
  parts : List (Text × Part)
  deriving DecidableEq, Repr

namespace Cast

def locate (cast : Cast) (store : Store) (program : Path) : Except IoKind Location :=
  if program.text.contains '/' then store.locate program
  else do
    Store.admits program
    store.follow cast.directory program.text

def part? (cast : Cast) (l : Location) : Option (Text × Part) :=
  cast.parts.find? fun p => cast.directory ++ [p.1] = l

def advance (cast : Cast) (name : Text) (rest : Part) : Cast :=
  { cast with parts := cast.parts.map fun p =>
      if p.1 = name && !rest.isEmpty then (name, rest) else p }

def notStarted (kind : IoKind) : Launch := .notStarted kind kind.detail

/-- Runs a command. What is no program of the cast cannot be executed, and no argument may hold the
character NUL. -/
def launch (cast : Cast) (store : Store) (c : Command) : Launch × Option Entry × Cast :=
  if c.arguments.any (·.contains '\x00') then (notStarted .invalidName, none, cast)
  else
    match cast.locate store c.program with
    | .error kind => (notStarted kind, none, cast)
    | .ok l =>
      match cast.part? l with
      | some (name, act :: rest) => (act.launch c.timeout, act.left, cast.advance name rest)
      | _ => (notStarted .permissionDenied, none, cast)

end Cast
end Tool
end CutPath
