import DdlOrder.Event
import DdlOrder.Main
import DdlOrder.Proofs.Batch.ReadBack
import DdlOrder.Proofs.Batch.Printed
import DdlOrder.Proofs.Graph.Counting
import DdlOrder.Proofs.Event
import DdlOrder.Proofs.Graph.TieBreak
import DdlOrder.Proofs.Order.Columns
import DdlOrder.Proofs.Order.Cycles
import DdlOrder.Proofs.Order.Names
import DdlOrder.Proofs.Tree.Indentation
import DdlOrder.Proofs.Order.Selection
import DdlOrder.Proofs.Order.Repeated
import DdlOrder.Proofs.Order.Matching
import DdlOrder.Proofs.Tree.Target
import DdlOrder.Proofs.ViewTarget
import DdlOrder.Proofs.Order.Views
import DdlOrder.Proofs.Comment
import DdlOrder.Proofs.Tree.TargetNames
import DdlOrder.Proofs.Source.Comments
import DdlOrder.Proofs.Source.Batches
import DdlOrder.Proofs.Pass.Dependencies
import DdlOrder.Proofs.Source.Requests
import DdlOrder.Proofs.Line.Shapes
import DdlOrder.Proofs.Line.Scalar
import DdlOrder.Proofs.Line.Literals
import DdlOrder.Proofs.Line.Aliases
import DdlOrder.Proofs.Line.Layout
import DdlOrder.Proofs.Order.Edges
import DdlOrder.Proofs.Statement.Selects
import DdlOrder.Proofs.Tree.Rereading
import DdlOrder.Proofs.Statement.Operands
import DdlOrder.Proofs.Comment.Search
import DdlOrder.Proofs.Batch.Document
import DdlOrder.Proofs.Order.Unrelated
import DdlOrder.Proofs.Tree.Navigation
import DdlOrder.Proofs.Tree.Printer
