import ArrayLiteral.Cursor.Stack
import ArrayLiteral.Limits.Document
import ArrayLiteral.Main
import ArrayLiteral.Path
import ArrayLiteral.Proofs.Answers
import ArrayLiteral.Proofs.BoundedMemory
import ArrayLiteral.Proofs.BoundedNesting
import ArrayLiteral.Proofs.BoundedPulls
import ArrayLiteral.Proofs.Classification
import ArrayLiteral.Proofs.Displaced
import ArrayLiteral.Proofs.Edits
import ArrayLiteral.Proofs.FirstFault
import ArrayLiteral.Proofs.Language
import ArrayLiteral.Proofs.NormalForm
import ArrayLiteral.Proofs.Renderings
import ArrayLiteral.Proofs.Respelling
import ArrayLiteral.Proofs.Sessions
import ArrayLiteral.Proofs.Succession
import ArrayLiteral.Proofs.Unambiguous
