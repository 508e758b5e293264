import ShapeModel.Dialect
import ShapeModel.Model.Validation
import ShapeModel.Proofs.Checks
import ShapeModel.Proofs.Selection
import ShapeModel.Proofs.Validity
import ShapeModel.Proofs.Conformance
import ShapeModel.Proofs.Constraint
import ShapeModel.Proofs.Text.Lines
import ShapeModel.Proofs.Source.Position
import ShapeModel.Proofs.Source.LineTable
import ShapeModel.Proofs.Token.Scan
import ShapeModel.Proofs.Token.Kinds
import ShapeModel.Proofs.Token.Lexer
import ShapeModel.Proofs.Token.Cover
import ShapeModel.Proofs.Token.Quoted
import ShapeModel.Proofs.Token.Rendering
import ShapeModel.Proofs.Token.Below
import ShapeModel.Proofs.Token.Break
import ShapeModel.Proofs.Text.Returns
import ShapeModel.Proofs.Token.Returns
import ShapeModel.Proofs.Number.Exact
import ShapeModel.Proofs.Number.Literal
import ShapeModel.Proofs.Json.Tokens
import ShapeModel.Proofs.Document.Cursor
import ShapeModel.Proofs.Identifier.Text
import ShapeModel.Proofs.Document.Scope
import ShapeModel.Proofs.Document.Movement
import ShapeModel.Proofs.Document.Value
import ShapeModel.Proofs.Document.Grammar
import ShapeModel.Proofs.Document.Annotation
import ShapeModel.Proofs.Document.Body
import ShapeModel.Proofs.Document.Statement
import ShapeModel.Proofs.Document.Run
import ShapeModel.Proofs.Document.Key
import ShapeModel.Proofs.Table.Decode
import ShapeModel.Proofs.Model.UpdateTraits
import ShapeModel.Proofs.Model.Mutation
import ShapeModel.Proofs.Model.Additions
import ShapeModel.Proofs.Model.Decode
import ShapeModel.Proofs.Model.Address
import ShapeModel.Proofs.Model.Select
import ShapeModel.Proofs.Model.Insertion
import ShapeModel.Proofs.Faults
import ShapeModel.Proofs.Document.Entry
import ShapeModel.Proofs.Shape.Decode
import ShapeModel.Proofs.Trait.Decode
import ShapeModel.Proofs.Document.Applied
import ShapeModel.Proofs.Document.Application
import ShapeModel.Proofs.Document.Json
import ShapeModel.Proofs.Document.Script
import ShapeModel.Proofs.Document.Order
import ShapeModel.Proofs.Document.Kept
import ShapeModel.Proofs.Table.Keys
import ShapeModel.Proofs.Document.Part
import ShapeModel.Proofs.Document.Members
import ShapeModel.Proofs.Document.Lockstep
import ShapeModel.Proofs.Document.LineBreak
import ShapeModel.Proofs.Json.Reader
import ShapeModel.Proofs.Json.Text
import ShapeModel.Proofs.Json.Parse
import ShapeModel.Proofs.Document.Ordered
import ShapeModel.Proofs.Agreement
import ShapeModel.Proofs.Trait.Plain
import ShapeModel.Proofs.Shape.Plain
import ShapeModel.Proofs.Model.Plain
import ShapeModel.Proofs.Document.Located
import ShapeModel.Proofs.Document.Phrase
import ShapeModel.Proofs.Document.Declared
import ShapeModel.Proofs.Number.Rounding
import ShapeModel.Proofs.Number.Order
import ShapeModel.Proofs.Document.Integer
import ShapeModel.Proofs.Document.Mention
import ShapeModel.Proofs.Document.Absolute
import ShapeModel.Proofs.Document.Resolution
import ShapeModel.Proofs.Token.Block
import ShapeModel.Proofs.FaultPlaces
import ShapeModel.Proofs.Model.Tightening
import ShapeModel.Proofs.Text.Words
import ShapeModel.Proofs.Selector.Words
import ShapeModel.Proofs.Document.Modes
import ShapeModel.Proofs.Document.Spellings
import ShapeModel.Proofs.Number.Accessors
import ShapeModel.Proofs.Trait.Reachable
import ShapeModel.Proofs.Document.Moves
import ShapeModel.Proofs.Document.Parted
import ShapeModel.Proofs.Document.Documented
