import QueryCompiler.Call
import QueryCompiler.Compilation
import QueryCompiler.Document.Decode
import QueryCompiler.Document.Encode
import QueryCompiler.Document.Journal
import QueryCompiler.Document.Json
import QueryCompiler.Proofs.Aliasing
import QueryCompiler.Proofs.Blanking
import QueryCompiler.Proofs.Calls
import QueryCompiler.Proofs.Collection
import QueryCompiler.Proofs.ColumnCasts
import QueryCompiler.Proofs.Completeness
import QueryCompiler.Proofs.Configurations
import QueryCompiler.Proofs.Declarations
import QueryCompiler.Proofs.FieldNames
import QueryCompiler.Proofs.Filters
import QueryCompiler.Proofs.Fragments
import QueryCompiler.Proofs.Grouping
import QueryCompiler.Proofs.Keys
import QueryCompiler.Proofs.Keys.Inlines
import QueryCompiler.Proofs.Keys.Literals
import QueryCompiler.Proofs.Keys.Numbers
import QueryCompiler.Proofs.Layout
import QueryCompiler.Proofs.Numbering
import QueryCompiler.Proofs.Operands
import QueryCompiler.Proofs.ParamTypes
import QueryCompiler.Proofs.Paths
import QueryCompiler.Proofs.Projecting
import QueryCompiler.Proofs.Redefinition
import QueryCompiler.Proofs.Registration
import QueryCompiler.Proofs.Repeats
import QueryCompiler.Proofs.Resolution
import QueryCompiler.Proofs.Siblings
import QueryCompiler.Proofs.Sites
import QueryCompiler.Proofs.Spelling
import QueryCompiler.Proofs.Stacks
import QueryCompiler.Proofs.Subqueries
import QueryCompiler.Proofs.Tables
import QueryCompiler.Proofs.Unions
import QueryCompiler.Proofs.Validation
import QueryCompiler.Proofs.Validity
import QueryCompiler.Proofs.Validity.Bare
import QueryCompiler.Proofs.Validity.Faults
import QueryCompiler.Proofs.Validity.Written
