import CutPath.Main
import CutPath.Proofs.CommandLine.Layering
import CutPath.Proofs.Conversion.Recognition
import CutPath.Proofs.Document.ActivatedLine
import CutPath.Proofs.Document.CutLayer
import CutPath.Proofs.Document.Declaration
import CutPath.Proofs.Document.Injection
import CutPath.Proofs.Document.LastBound
import CutPath.Proofs.Document.LineEndings.Texts
import CutPath.Proofs.Document.MergeOutcome
import CutPath.Proofs.Document.Remarking
import CutPath.Proofs.Document.Restores
import CutPath.Proofs.Document.SaveBalance
import CutPath.Proofs.Document.Untouched
import CutPath.Proofs.Drawing.CutLayer
import CutPath.Proofs.Drawing.Shown
import CutPath.Proofs.Drawing.Untouched
import CutPath.Proofs.Path.DefaultOutput
import CutPath.Proofs.Tool.ErrorsTail
import CutPath.Proofs.Tool.InstallAdvice
