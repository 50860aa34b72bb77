import Docbase.Collection.Name
import Docbase.Document
import Docbase.Engine
import Docbase.Engine.Scripted
import Docbase.Error
import Docbase.Field
import Docbase.Field.Given
import Docbase.Filter
import Docbase.Filter.Condition
import Docbase.Index
import Docbase.Index.Data
import Docbase.Index.Statements
import Docbase.Input.Call
import Docbase.Input.Checked
import Docbase.Input.Given
import Docbase.Input.Reading
import Docbase.Json.Decode
import Docbase.Json.Encode
import Docbase.Log.Level
import Docbase.Log.Logger
import Docbase.Log.Place
import Docbase.Log.Template
import Docbase.Number.Binary64
import Docbase.Number.Rounded
import Docbase.Number.Shortest
import Docbase.Number.Whole
import Docbase.Order
import Docbase.Order.SortKey
import Docbase.Proofs.Collection.Listing
import Docbase.Proofs.Collection.Naming
import Docbase.Proofs.Engine
import Docbase.Proofs.Engine.Documents
import Docbase.Proofs.Engine.Effect
import Docbase.Proofs.Engine.Ledger
import Docbase.Proofs.Engine.Server
import Docbase.Proofs.Engine.Shelf
import Docbase.Proofs.Engine.Tables
import Docbase.Proofs.Field
import Docbase.Proofs.Field.Accessors
import Docbase.Proofs.Field.Faults
import Docbase.Proofs.Field.Uses
import Docbase.Proofs.Filter.Accepted
import Docbase.Proofs.Filter.Faults
import Docbase.Proofs.Filter.Flawed
import Docbase.Proofs.Filter.Numbering
import Docbase.Proofs.Filter.Reading
import Docbase.Proofs.Filter.Sets
import Docbase.Proofs.Filter.Shown
import Docbase.Proofs.Filter.Unambiguous
import Docbase.Proofs.Index.Catalog
import Docbase.Proofs.Index.Keys
import Docbase.Proofs.Index.Levels
import Docbase.Proofs.Index.Malformed
import Docbase.Proofs.Index.RoundTrip
import Docbase.Proofs.Index.Uniqueness
import Docbase.Proofs.Json.Datum
import Docbase.Proofs.Json.MemberNames
import Docbase.Proofs.Json.Numbers
import Docbase.Proofs.Json.Plain
import Docbase.Proofs.Json.RoundTrip
import Docbase.Proofs.Json.Unwritable
import Docbase.Proofs.Order.Leaves
import Docbase.Proofs.Outcome
import Docbase.Proofs.Selection.Assembly
import Docbase.Proofs.Selection.Labels
import Docbase.Proofs.Selection.Paths
import Docbase.Proofs.Sql.Alteration
import Docbase.Proofs.Sql.Format
import Docbase.Proofs.Sql.Fragments
import Docbase.Proofs.Sql.Identifier
import Docbase.Proofs.Sql.Like
import Docbase.Proofs.Sql.Params
import Docbase.Proofs.Sql.Pieces
import Docbase.Proofs.Sql.Reading
import Docbase.Proofs.Sql.Truth
import Docbase.Proofs.Store.Action
import Docbase.Proofs.Store.Allowed
import Docbase.Proofs.Store.Clients
import Docbase.Proofs.Store.Columns
import Docbase.Proofs.Store.Concurrent
import Docbase.Proofs.Store.Documents
import Docbase.Proofs.Store.Findings
import Docbase.Proofs.Store.Frame
import Docbase.Proofs.Store.Handling
import Docbase.Proofs.Store.Holding
import Docbase.Proofs.Store.Iteration
import Docbase.Proofs.Store.Listing
import Docbase.Proofs.Store.MemberNames
import Docbase.Proofs.Store.Openings
import Docbase.Proofs.Store.Past
import Docbase.Proofs.Store.Placeholders
import Docbase.Proofs.Store.Reaching
import Docbase.Proofs.Store.Readers
import Docbase.Proofs.Store.Refused
import Docbase.Proofs.Store.Rejecting
import Docbase.Proofs.Store.Released
import Docbase.Proofs.Store.Replacing
import Docbase.Proofs.Store.Rows
import Docbase.Proofs.Store.Run
import Docbase.Proofs.Store.Sending
import Docbase.Proofs.Store.Settling
import Docbase.Proofs.Store.Statements
import Docbase.Proofs.Store.Steps
import Docbase.Proofs.Store.Storing
import Docbase.Proofs.Store.Transaction
import Docbase.Proofs.Store.Troubles
import Docbase.Proofs.Store.Unhandled
import Docbase.Proofs.Text.Lowercase
import Docbase.Proofs.Value.Keys
import Docbase.Proofs.Value.Members
import Docbase.Selection
import Docbase.Selection.Columns
import Docbase.Settings
import Docbase.Settings.File
import Docbase.Sql.Condition
import Docbase.Sql.Direction
import Docbase.Sql.Identifier
import Docbase.Sql.Literal
import Docbase.Sql.Operand
import Docbase.Sql.Page
import Docbase.Sql.Params
import Docbase.Sql.Statement
import Docbase.Store.Collections
import Docbase.Store.Options
import Docbase.Store.Reader
import Docbase.Store.Reading
import Docbase.Store.Record
import Docbase.Store.Session
import Docbase.Store.Writing
import Docbase.Text.Blank
import Docbase.Text.Digit
import Docbase.Text.Lowercase
import Docbase.Text.Printable
import Docbase.Text.Quoted
import Docbase.Text.Ranges
import Docbase.Text.Search
import Docbase.Text.Split
import Docbase.Uuid
import Docbase.Value
import Docbase.Value.Contents
import Docbase.Value.Text
