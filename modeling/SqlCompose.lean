import SqlCompose.Moment
import SqlCompose.Number.Numeral
import SqlCompose.Object.Declare
import SqlCompose.Object.Function.Basic
import SqlCompose.Object.Member
import SqlCompose.Object.Operate
import SqlCompose.Proofs.Compile.Acceptance
import SqlCompose.Proofs.Compile.Alias
import SqlCompose.Proofs.Compile.CallOrder
import SqlCompose.Proofs.Compile.Grouping
import SqlCompose.Proofs.Compile.Independence
import SqlCompose.Proofs.Compile.JoinOrder
import SqlCompose.Proofs.Compile.Naming
import SqlCompose.Proofs.Compile.Nesting
import SqlCompose.Proofs.Compile.Retargeting
import SqlCompose.Proofs.Compile.Returning
import SqlCompose.Proofs.Compile.Rows
import SqlCompose.Proofs.Compile.Source
import SqlCompose.Proofs.Compile.Union
import SqlCompose.Proofs.Compile.Unnamed
import SqlCompose.Proofs.Dialect.Identifier
import SqlCompose.Proofs.Dialect.Literal
import SqlCompose.Proofs.Dialect.Paging
import SqlCompose.Proofs.Draft.Acceptance
import SqlCompose.Proofs.Expr.Calculation
import SqlCompose.Proofs.Expr.Concatenation
import SqlCompose.Proofs.Expr.Reading
import SqlCompose.Proofs.Expr.Escape
import SqlCompose.Proofs.Expr.Search
import SqlCompose.Proofs.Expr.Validity
import SqlCompose.Proofs.Object.NullTest
import SqlCompose.Proofs.Object.Ownership
import SqlCompose.Proofs.Object.Registry
import SqlCompose.Proofs.Schema.Check
import SqlCompose.Proofs.Schema.Defaults
import SqlCompose.Proofs.Statement.Assignments
