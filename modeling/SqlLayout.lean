import SqlLayout.Host.Workspace
import SqlLayout.Main
import SqlLayout.Proofs.Fidelity
import SqlLayout.Proofs.Idempotence
import SqlLayout.Proofs.Tiling
import SqlLayout.Proofs.Closure
import SqlLayout.Proofs.InlineMode
import SqlLayout.Proofs.SourceBlanks
import SqlLayout.Proofs.CleanLines
import SqlLayout.Proofs.Separators
import SqlLayout.Proofs.Bookkeeping
import SqlLayout.Proofs.StrayTokens
import SqlLayout.Proofs.Statements
import SqlLayout.Proofs.StringGrammar
import SqlLayout.Proofs.CommentTokens
import SqlLayout.Proofs.InlineWidth
import SqlLayout.Proofs.ClauseAlignment
import SqlLayout.Proofs.Capitals
import SqlLayout.Proofs.PositionalValues
import SqlLayout.Proofs.Snippets
import SqlLayout.Proofs.WholeDocument
import SqlLayout.Proofs.AllOrNothing
import SqlLayout.Proofs.SteadyComments
import SqlLayout.Proofs.PageText
