import DocTypes.Draft.Editable
import DocTypes.Main
import DocTypes.Proofs.Draft.Load
import DocTypes.Proofs.Transform.LocalLines
import DocTypes.Proofs.Pass.Modified
import DocTypes.Proofs.TypeExpr.Replace
import DocTypes.Proofs.TypeExpr.NormalForm
import DocTypes.Proofs.Expression.Literal
import DocTypes.Proofs.Program.Spans
import DocTypes.Proofs.Program.Owned
import DocTypes.Proofs.Program.Reprinted
import DocTypes.Proofs.Program.Outcome
import DocTypes.Proofs.TypeExpr.Progress
