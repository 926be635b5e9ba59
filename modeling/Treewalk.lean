import Treewalk.Apply
import Treewalk.Arithmetic
import Treewalk.Context
import Treewalk.Decimal.Layout
import Treewalk.Decimal.Shortest
import Treewalk.Evaluation.Evaluate
import Treewalk.Evaluation.Node
import Treewalk.Evaluation.Run
import Treewalk.Expr
import Treewalk.Expr.Equality
import Treewalk.Expr.Listing
import Treewalk.Failure
import Treewalk.Fault
import Treewalk.Journal
import Treewalk.Limits
import Treewalk.Number
import Treewalk.Object
import Treewalk.Operator
import Treewalk.Proofs.Comparison
import Treewalk.Proofs.Faults
import Treewalk.Proofs.Fuel
import Treewalk.Range
import Treewalk.Scope
import Treewalk.Source.LineTable
import Treewalk.Source.Marker
import Treewalk.Source.Slice
import Treewalk.Span
import Treewalk.Text.Form
import Treewalk.Text.Hidden
import Treewalk.Text.Quoted
import Treewalk.Traceback
import Treewalk.Value
import Treewalk.Value.Display
import Treewalk.Value.Equality
import Treewalk.Proofs.Children
import Treewalk.Proofs.Termination
import Treewalk.Proofs.Budget
import Treewalk.Proofs.Parameters
import Treewalk.Proofs.Limits
import Treewalk.Proofs.Isolation
import Treewalk.Proofs.Tree
import Treewalk.Proofs.Reading
import Treewalk.Proofs.Memory
import Treewalk.Proofs.Overwrite
import Treewalk.Proofs.Sharing
import Treewalk.Proofs.InPlace
import Treewalk.Proofs.Operations
import Treewalk.Proofs.CopyOnBind
import Treewalk.Proofs.Accounts
import Treewalk.Proofs.Questions
import Treewalk.Proofs.Sites
import Treewalk.Proofs.Derived
import Treewalk.Proofs.Adequacy
import Treewalk.Proofs.Footprint
import Treewalk.Proofs.Course
import Treewalk.Proofs.Aftermath
import Treewalk.Proofs.Depth
import Treewalk.Proofs.Tame
import Treewalk.Proofs.Interrupt
import Treewalk.Proofs.Ahead
import Treewalk.Proofs.Batch
import Treewalk.Proofs.HostCall
import Treewalk.Proofs.Blank
import Treewalk.Proofs.Outline
import Treewalk.Proofs.Columns
import Treewalk.Proofs.Markers
import Treewalk.Proofs.Lines
import Treewalk.Proofs.Snippets
import Treewalk.Proofs.Rendering
import Treewalk.Proofs.Equality
import Treewalk.Proofs.Exactness
import Treewalk.Proofs.Counting
import Treewalk.Proofs.Rounds
import Treewalk.Proofs.Tour
import Treewalk.Proofs.StraightLine
import Treewalk.Proofs.Touched
import Treewalk.Proofs.Zeros
import Treewalk.Proofs.OperatorTable
import Treewalk.Proofs.Pieces
import Treewalk.Proofs.Foreign
