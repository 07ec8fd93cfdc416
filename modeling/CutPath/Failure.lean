import CutPath.Text.Quoted

namespace CutPath

inductive IoKind where
  | notFound
  | permissionDenied
  | invalidData
  | isADirectory
  | notADirectory
  | alreadyExists
  | busy
  | nameTooLong
  | invalidName
  | other
  deriving DecidableEq, Repr

def IoKind.detail : IoKind → Text
  | .notFound => "No such file or directory (os error 2)"
  | .permissionDenied => "Permission denied (os error 13)"
  | .invalidData => "stream did not contain valid UTF-8"
  | .isADirectory => "Is a directory (os error 21)"
  | .notADirectory => "Not a directory (os error 20)"
  | .alreadyExists => "File exists (os error 17)"
  | .busy => "Device or resource busy (os error 16)"
  | .nameTooLong => "File name too long (os error 36)"
  | .invalidName => "nul byte found in provided data"
  | .other => "other error"

inductive Failure where
  | invalidDocument (detail : Text)
  | drawing (detail : Text)
  | encoding (detail : Text)
  | markerNotFound (step marker : Text)
  | exporter (detail : Text)
  | timeout (tool : Text) (seconds : Nat)
  | validator (detail : Text)
  | declined
  | config (detail : Text)
  | io (kind : IoKind) (detail : Text)
  | serialization
  deriving DecidableEq, Repr

namespace Failure

def ofIo (kind : IoKind) : Failure := io kind kind.detail

def message : Failure → Text
  | invalidDocument detail => "not a valid PostScript/EPS document: " ++ detail
  | drawing detail => "could not read drawing: " ++ detail
  | encoding detail => "text encoding error: " ++ detail
  | markerNotFound step marker => step ++ ": marker `" ++ marker ++ "` not found"
  | exporter detail => "export failed: " ++ detail
  | timeout tool seconds => tool ++ " did not finish within " ++ Text.ofNat seconds ++ "s"
  | validator detail => "validation failed: " ++ detail
  | declined => "conversion cancelled by user"
  | config detail => "configuration error: " ++ detail
  | io _ detail => "file I/O error: " ++ detail
  | serialization => "serialization error: invalid JSON"

end Failure

inductive Verdict where
  | valid
  | invalid (detail : Text)
  /-- Nobody looked at the document; it is taken to be valid. -/
  | skipped (reason : Text)
  deriving DecidableEq, Repr

namespace Verdict

def isAcceptable : Verdict → Bool
  | invalid _ => false
  | _ => true

def disabled : Verdict := skipped "validation disabled"

def quoted : Verdict → Text
  | valid => "Valid"
  | invalid detail => "Invalid(" ++ Text.quote detail ++ ")"
  | skipped reason => "Skipped(" ++ Text.quote reason ++ ")"

end Verdict

inductive Warning where
  | noHeaderAnchor
  | prologEndMissing
  | prologPlaceMissing
  /-- The body of a page restores less often than its clip line saves. -/
  | unrestoredSaves (step : Text) (depth closed : Nat)
  | boundingBoxesDiffer (print cut : Text)
  | alreadyConverted (name : Text)
  | documentRejected (status : Text)
  | validatorMissing (tool : Text)
  | rejectedButWritten (verdict : Verdict)
  | validatorFailed (failure : Failure)
  deriving DecidableEq, Repr

namespace Warning

def message : Warning → Text
  | noHeaderAnchor => "no %%BoundingBox or %%LanguageLevel line; header left unannotated"
  | prologEndMissing => "%%EndProlog not found, inserting before %%BeginSetup"
  | prologPlaceMissing =>
    "neither %%EndProlog nor %%BeginSetup found; spot color procedures not injected"
  | unrestoredSaves .. => "page setup saves are not all restored at the end of the body"
  | boundingBoxesDiffer .. => "print and cut bounding boxes differ; layers may not align"
  | alreadyConverted name => "input already contains '" ++ name ++ "'"
  | documentRejected _ => "validator rejected the document"
  | validatorMissing tool => tool ++ " not found, skipping validation"
  | rejectedButWritten _ => "validator rejected the output; it is written anyway"
  | validatorFailed _ => "validator could not run"

def fields : Warning → List (Text × Text)
  | unrestoredSaves step depth closed =>
    [("step", step), ("depth", Text.ofNat depth), ("closed", Text.ofNat closed)]
  | boundingBoxesDiffer print cut => [("print", print), ("cut", cut)]
  | documentRejected status => [("status", status)]
  | rejectedButWritten verdict => [("verdict", verdict.quoted)]
  | validatorFailed failure => [("error", failure.message)]
  | _ => []

end Warning
end CutPath
