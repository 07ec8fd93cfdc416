import CutPath.CommandLine.Arguments
import CutPath.Conversion
import CutPath.Failure.Advice

namespace CutPath
namespace Prompt

def isYes (answer : Text) : Bool :=
  let a := Text.lowerAscii (Text.trim answer)
  a = "y" || a = "yes"

def firstLine : Bytes → Bytes
  | [] => []
  | b :: bytes => if b = 10 then [b] else b :: firstLine bytes

/-- Reads an answer from the first line of the input. No input at all is a no. -/
def readAnswer (input : Bytes) : Except Failure Bool :=
  match Text.Utf8.decode (firstLine input) with
  | .ok line => .ok (isYes line)
  | .error _ => .error (.ofIo .invalidData)

def shown (question : Text) : Text := question ++ " (y/n): "

end Prompt

namespace CommandLine

open Conversion (Mode Programs Run Summary)

def modeReport (strokes : Nat) : Mode → Text
  | .singleLayer =>
    Text.ofNat strokes ++ " stroke(s) now use the " ++ SpotColor.cutContourName ++ " spot color"
  | .merged regions =>
    Text.ofNat regions ++ " cut region(s), " ++ Text.ofNat strokes ++ " stroke(s) on " ++
      SpotColor.cutContourName ++ " above the print layer"

def verdictReport : Verdict → Text
  | .valid => "validated with Ghostscript"
  | .invalid detail => "WARNING: validator rejected the output: " ++ detail
  | .skipped reason => "validation skipped (" ++ reason ++ ")"

def report (s : Summary) : Text :=
  line ("Conversion complete: " ++ s.output.text) ++
    line ("  " ++ modeReport s.strokes s.mode) ++
    line ("  " ++ verdictReport s.verdict) ++
    line ("  sha256 " ++ s.fingerprint)

def failureReport (f : Failure) : Text :=
  let a := Advice.ofFailure f
  line ("Error: " ++ a.message) ++ line ("  " ++ a.suggestion)

structure Outcome where
  code : Nat
  output : Text
  errors : Text
  store : Store

structure Surroundings where
  cast : Tool.Cast
  input : Bytes
  shown : Text

def launch (s : Surroundings) (store : Store) (c : Command) :
    Launch × Option Entry × Surroundings :=
  let (launch, left, cast) := s.cast.launch store c
  (launch, left, { s with cast })

def confirm (s : Surroundings) (question : Text) : Except Failure Bool × Surroundings :=
  (Prompt.readAnswer s.input, { s with shown := s.shown ++ Prompt.shown question })

def programs : Programs Surroundings := ⟨launch, confirm⟩

def convert (a : Arguments) (settings : Settings) (s : Surroundings) (store : Store) : Outcome :=
  let action := Conversion.convert (programs.tools settings) settings ⟨a.input, a.output⟩
  let (result, r) := action ⟨store, s, [], []⟩
  match result with
  | .ok summary => ⟨0, report summary, r.state.shown, r.store⟩
  | .error f => ⟨1, [], r.state.shown ++ failureReport f, r.store⟩

def run (args : List Text) (e : Settings.Environment) (s : Surroundings) (store : Store) :
    Outcome :=
  match Arguments.parse args with
  | .error .help => ⟨0, help, [], store⟩
  | .error .version => ⟨0, line version, [], store⟩
  | .error _ => ⟨2, [], line usage, store⟩
  | .ok a =>
    match a.settings e store with
    | .error f => ⟨1, [], failureReport f, store⟩
    | .ok settings => convert a settings s store

end CommandLine
end CutPath
