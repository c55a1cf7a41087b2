import SqlBuilder.Builder.Step
import SqlBuilder.Config.Document
import SqlBuilder.Json.Reader
import SqlBuilder.Table.OfJson
import SqlBuilder.Proofs.Quotation
import SqlBuilder.Proofs.Literal
import SqlBuilder.Proofs.LiteralForm
import SqlBuilder.Proofs.Methods
import SqlBuilder.Proofs.Dispatch
import SqlBuilder.Proofs.Agreement
import SqlBuilder.Proofs.Effects
import SqlBuilder.Proofs.Rejection
import SqlBuilder.Proofs.Correspondence
import SqlBuilder.Proofs.Correspondence.Statements
import SqlBuilder.Proofs.Correspondence.Calls
import SqlBuilder.Proofs.Correspondence.Documents
import SqlBuilder.Proofs.Correspondence.Runs
import SqlBuilder.Proofs.CallText
import SqlBuilder.Proofs.CallScan
import SqlBuilder.Proofs.CallGrammar
import SqlBuilder.Proofs.Noninterference
import SqlBuilder.Proofs.Injection
import SqlBuilder.Proofs.Precedence
import SqlBuilder.Proofs.Precedence.Texts
import SqlBuilder.Proofs.Conditions
import SqlBuilder.Proofs.Meaning
import SqlBuilder.Proofs.LostGroups
import SqlBuilder.Proofs.Layout
import SqlBuilder.Proofs.Retention
import SqlBuilder.Proofs.Items
import SqlBuilder.Proofs.Decoding
import SqlBuilder.Proofs.Grammar
import SqlBuilder.Proofs.Assembly
import SqlBuilder.Proofs.Doubling
import SqlBuilder.Proofs.FilterDocuments
import SqlBuilder.Proofs.Validation
import SqlBuilder.Proofs.Encodings
import SqlBuilder.Proofs.Gating
import SqlBuilder.Proofs.Families
import SqlBuilder.Proofs.Scripts
import SqlBuilder.Proofs.Slots
import SqlBuilder.Proofs.Prohibitions
import SqlBuilder.Proofs.Commutation
import SqlBuilder.Proofs.Inheritance
import SqlBuilder.Proofs.Balance
import SqlBuilder.Proofs.Balance.Runs
import SqlBuilder.Proofs.EmptyTables
import SqlBuilder.Proofs.Offences
import SqlBuilder.Proofs.Wildcards
import SqlBuilder.Proofs.TableDefinitions
import SqlBuilder.Proofs.Batches
import SqlBuilder.Proofs.Groups
import SqlBuilder.Proofs.Equalities
import SqlBuilder.Proofs.Chronology
import SqlBuilder.Proofs.Collation
import SqlBuilder.Proofs.Names
import SqlBuilder.Proofs.References
import SqlBuilder.Proofs.Edits
import SqlBuilder.Proofs.Rounding
import SqlBuilder.Proofs.ShortestDigits
import SqlBuilder.Proofs.Integers
