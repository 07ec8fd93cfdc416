import CutPath.Json
import CutPath.SpotColor
import CutPath.Store

namespace CutPath

structure Settings where
  strokeWidth : Binary64
  regionTags : List Text
  ignoreRegion : Bool
  validate : Bool
  exporter : Path
  validator : Path
  timeout : Nat
  assumeYes : Bool
  deriving DecidableEq, Repr

namespace Settings

def default : Settings where
  strokeWidth := StrokeStyle.hairline.width
  regionTags := [SpotColor.cutContourName]
  ignoreRegion := false
  validate := true
  exporter := ⟨"inkscape"⟩
  validator := ⟨"gs"⟩
  timeout := 30
  assumeYes := false

def stroke (s : Settings) : StrokeStyle := ⟨s.strokeWidth⟩

def regionTag (s : Settings) : RegionTag := .ofWords s.regionTags

/-- Refuses settings that no conversion can honour: a width that is not positive, no time for the
programs, and no word for the regions where regions count. -/
def check (s : Settings) : Except Failure Unit :=
  if !s.strokeWidth.isPositive then
    .error (.config ("stroke width must be a positive number, got " ++
      Decimal.plain.write s.strokeWidth))
  else if s.timeout = 0 then .error (.config "tool timeout must be at least one second")
  else if !s.ignoreRegion && s.regionTag.isEmpty then
    .error (.config "region_tags needs at least one word (or set ignore_region)")
  else .ok ()

inductive Field where
  | strokeWidth
  | regionTags
  | ignoreRegion
  | validate
  | exporter
  | validator
  | timeout
  | assumeYes
  deriving DecidableEq, Repr

namespace Field

def all : List Field :=
  [strokeWidth, regionTags, ignoreRegion, validate, exporter, validator, timeout, assumeYes]

def name : Field → Text
  | strokeWidth => "stroke_width"
  | regionTags => "region_tags"
  | ignoreRegion => "ignore_region"
  | validate => "validate"
  | exporter => "inkscape_binary"
  | validator => "ghostscript_binary"
  | timeout => "tool_timeout_secs"
  | assumeYes => "assume_yes"

def ofName? (name : Text) : Option Field := all.find? (·.name = name)

end Field

open Json (Value)

def readNumber? : Value → Option Binary64
  | .numeral n => n.value?
  | _ => none

def readNat? : Value → Option Nat
  | .numeral n => n.toNat?
  | _ => none

def readTruth? : Value → Option Bool
  | .truth b => some b
  | _ => none

def readText? : Value → Option Text
  | .quoted raw => Json.unescape? raw
  | _ => none

def readTexts? : Value → Option (List Text)
  | .array items => items.mapM readText?
  | _ => none

def set? (s : Settings) (f : Field) (v : Value) : Option Settings :=
  match f with
  | .strokeWidth => (readNumber? v).map fun x => { s with strokeWidth := x }
  | .regionTags => (readTexts? v).map fun ts => { s with regionTags := ts }
  | .ignoreRegion => (readTruth? v).map fun b => { s with ignoreRegion := b }
  | .validate => (readTruth? v).map fun b => { s with validate := b }
  | .exporter => (readText? v).map fun t => { s with exporter := ⟨t⟩ }
  | .validator => (readText? v).map fun t => { s with validator := ⟨t⟩ }
  | .timeout => (readNat? v).map fun n => { s with timeout := n }
  | .assumeYes => (readTruth? v).map fun b => { s with assumeYes := b }

def setAll? (s : Settings) : List Field → List Value → Option Settings
  | _, [] => some s
  | [], _ :: _ => none
  | f :: fs, v :: vs => (s.set? f v).bind (setAll? · fs vs)

/-- Sets the fields that an object names. Every key has to be readable, and a field may stand
there once; `seen` are those that did. -/
def setMembers? (s : Settings) (seen : List Field) : List (Text × Value) → Option Settings
  | [] => some s
  | (key, v) :: members =>
    match Json.unescape? key with
    | none => none
    | some name =>
      match Field.ofName? name with
      | none => setMembers? s seen members
      | some f =>
        if f ∈ seen then none else (s.set? f v).bind (setMembers? · (f :: seen) members)

def ofValue? : Value → Option Settings
  | .object members => default.setMembers? [] members
  | .array items => default.setAll? Field.all items
  | _ => none

def ofBytes (bytes : Bytes) : Except Failure Settings :=
  match Text.Utf8.decode bytes with
  | .error _ => .error (.ofIo .invalidData)
  | .ok t =>
    match (Value.read? t).bind ofValue? with
    | some s => .ok s
    | none => .error .serialization

def numberFormat : Decimal.Format := ⟨some (-5), some 16, true, true, .even⟩

def writeNumber : Binary64 → Text
  | .finite negative m q => numberFormat.write (.finite negative m q)
  | _ => "null"

def writeTruth (b : Bool) : Text := if b then "true" else "false"

def writeTexts (ts : List Text) : Text :=
  if ts.isEmpty then "[]"
  else
    let lines := ts.map fun t => "    " ++ Json.quote t
    "[\n" ++ Text.join ",\n" lines ++ "\n  ]"

def writeField (s : Settings) : Field → Text
  | .strokeWidth => writeNumber s.strokeWidth
  | .regionTags => writeTexts s.regionTags
  | .ignoreRegion => writeTruth s.ignoreRegion
  | .validate => writeTruth s.validate
  | .exporter => Json.quote s.exporter.text
  | .validator => Json.quote s.validator.text
  | .timeout => Text.ofNat s.timeout
  | .assumeYes => writeTruth s.assumeYes

def write (s : Settings) : Text :=
  let line (f : Field) : Text := "  " ++ Json.quote f.name ++ ": " ++ s.writeField f
  "\x7b\n" ++ Text.join ",\n" (Field.all.map line) ++ "\n\x7d"

structure Environment where
  configHome : Option Text
  home : Option Text
  deriving DecidableEq, Repr

def Environment.base (e : Environment) : Path :=
  match e.configHome, e.home with
  | some dir, _ => ⟨dir⟩
  | none, some home => Path.join ⟨home⟩ ⟨".config"⟩
  | none, none => ⟨"."⟩

def defaultPath (e : Environment) : Path :=
  (e.base.join ⟨"cutcontour"⟩).join ⟨"config.json"⟩

/-- What a settings file says, whether or not it can be honoured. A file that is not there says
nothing. -/
def readFile (store : Store) (p : Path) : Except Failure Settings :=
  match store.read p with
  | .ok bytes => ofBytes bytes
  | .error .notFound => .ok default
  | .error kind => .error (.ofIo kind)

def load (store : Store) (p : Path) : Except Failure Settings := do
  let s ← readFile store p
  s.check
  return s

def save (s : Settings) (store : Store) (p : Path) : Except Failure Store :=
  Except.mapError .ofIo do
    let store ← store.makeDirectories (p.parent?.getD ⟨[]⟩)
    store.write p (Text.Utf8.encode s.write)

end Settings
end CutPath
