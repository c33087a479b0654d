import Polyglot.Building
import Polyglot.Expr.Render
import Polyglot.Options.Toml
import Polyglot.Script.Output
import Polyglot.Proofs.Aliases.Script
import Polyglot.Proofs.Blocks.Script
import Polyglot.Proofs.Blocks.Splice
import Polyglot.Proofs.Brackets.Hidden
import Polyglot.Proofs.Brackets.Python
import Polyglot.Proofs.Brackets.Script
import Polyglot.Proofs.Expr.Pieces
import Polyglot.Proofs.Expr.Unambiguous
import Polyglot.Proofs.Imports.Agreement
import Polyglot.Proofs.Imports.Coverage
import Polyglot.Proofs.Imports.Listing
import Polyglot.Proofs.Imports.Requests
import Polyglot.Proofs.Imports.Section
import Polyglot.Proofs.Isolation.Script
import Polyglot.Proofs.Layout.Depth
import Polyglot.Proofs.Writer.Depth
import Polyglot.Proofs.Precedence.Honest
import Polyglot.Proofs.Precedence.Tight
import Polyglot.Proofs.Suites.Stmt
import Polyglot.Proofs.Expr.Expressible
import Polyglot.Proofs.Building.Invariants
import Polyglot.Proofs.Handlers.Clause
import Polyglot.Proofs.Script.Entries
import Polyglot.Proofs.Assignment.Place
import Polyglot.Proofs.Building.Refused
import Polyglot.Proofs.Properties.Writes
import Polyglot.Proofs.Literals.Stmt
import Polyglot.Proofs.OneLine.Stmt
import Polyglot.Proofs.Comments.Script
import Polyglot.Proofs.Documentation.Script
import Polyglot.Proofs.Expr.Fields
import Polyglot.Proofs.Access.Creation
import Polyglot.Proofs.Access.Fallback
import Polyglot.Proofs.Ty.Function
import Polyglot.Proofs.Dicts.Construction
import Polyglot.Proofs.Dicts.Reads
import Polyglot.Proofs.Typing.Operators
import Polyglot.Proofs.Properties.Constructor
import Polyglot.Proofs.Handlers.Acceptance
import Polyglot.Proofs.Ty.Expressible
import Polyglot.Proofs.Ty.Blank
import Polyglot.Proofs.Parameters.Python
import Polyglot.Proofs.Ty.Closed
import Polyglot.Proofs.Imports.Names
import Polyglot.Proofs.Ty.Docblock
import Polyglot.Proofs.Parameters.Widened
import Polyglot.Proofs.Ty.Repeated
import Polyglot.Proofs.Expr.Opposite
import Polyglot.Proofs.Imports.Grouping
import Polyglot.Proofs.Ty.Constants
