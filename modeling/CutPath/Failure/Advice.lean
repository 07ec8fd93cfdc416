import CutPath.Failure

namespace CutPath

inductive Severity where
  | transient
  | actionRequired
  | permanent
  | installRequired
  deriving DecidableEq, Repr

structure Advice where
  message : Text
  suggestion : Text
  retriable : Bool
  severity : Severity
  deriving DecidableEq, Repr

namespace Advice

/-- Advice on an exporter's failure, told from the words in its detail. -/
def ofExporterDetail (detail : Text) : Advice :=
  let lower := Text.lowerAscii detail
  if Text.occursIn "not found" lower || Text.occursIn "no such file" lower then
    ⟨"Inkscape is not installed or not on PATH.",
      "Install Inkscape 1.x, or set inkscape_binary in the config file.", false, .installRequired⟩
  else if Text.occursIn "no output" lower then
    ⟨"Inkscape finished but produced no EPS file.",
      "Open the drawing in Inkscape and check that it exports to EPS by hand.", false, .permanent⟩
  else
    ⟨"Inkscape could not export the drawing.", "Try again. (Detail: " ++ detail ++ ")", true,
      .transient⟩

def ofIoKind : IoKind → Advice
  | .notFound =>
    ⟨"The file couldn't be found.", "Check the path and try again.", false, .actionRequired⟩
  | .permissionDenied =>
    ⟨"Permission denied while reading or writing a file.",
      "Check the file permissions, or choose a different output directory.", false,
      .actionRequired⟩
  | _ =>
    ⟨"There was a problem reading or writing a file.",
      "Try again. If this keeps happening, the disk may be full.", true, .transient⟩

def ofFailure : Failure → Advice
  | .invalidDocument _ =>
    ⟨"This file is not a PostScript/EPS document.",
      "Export the artwork as EPS (or pass the SVG directly) and try again.", false, .permanent⟩
  | .drawing detail =>
    ⟨"The SVG drawing could not be read.",
      "Open and re-save it in Inkscape, then try again. (" ++ detail ++ ")", false, .permanent⟩
  | .encoding _ =>
    ⟨"The document contains characters that cannot be written back.",
      "Re-export the EPS with text converted to paths.", false, .permanent⟩
  | .markerNotFound step marker =>
    ⟨"The exported layers could not be combined.",
      "The exporter produced an unexpected layout (" ++ step ++ ": missing " ++ marker ++
        "). Try again with --ignore-region to convert without merging.", false, .actionRequired⟩
  | .exporter detail => ofExporterDetail detail
  | .timeout tool seconds =>
    ⟨tool ++ " took longer than " ++ Text.ofNat seconds ++ " seconds.",
      "Try again, or raise tool_timeout_secs in the config file for large drawings.", true,
      .transient⟩
  | .validator detail =>
    ⟨"The validator could not check the output.",
      "The file was still written. (" ++ detail ++ ")", true, .transient⟩
  | .declined =>
    ⟨"Nothing was written.",
      "Re-run with --yes to convert a file that already uses CutContour.", false,
      .actionRequired⟩
  | .config detail =>
    ⟨"The configuration is invalid.",
      "Fix the config file or command-line flags. (" ++ detail ++ ")", false, .actionRequired⟩
  | .io kind _ => ofIoKind kind
  | .serialization =>
    ⟨"The config file is not valid JSON.",
      "Fix or delete the config file; defaults are used when it is absent.", false,
      .actionRequired⟩

end Advice
end CutPath
