import FilterSql.CommandLine.Run
import FilterSql.Main
import FilterSql.Query.Apply
import FilterSql.Schema.Document
import FilterSql.Schema.Store
import FilterSql.Proofs.Alias.Letters
import FilterSql.Proofs.Alias.Run
import FilterSql.Proofs.Alias.Table
import FilterSql.Proofs.Attachment
import FilterSql.Proofs.Combining
import FilterSql.Proofs.Conditions
import FilterSql.Proofs.Database
import FilterSql.Proofs.Fidelity
import FilterSql.Proofs.Formula
import FilterSql.Proofs.Joining
import FilterSql.Proofs.Meaning
import FilterSql.Proofs.Multiplicity
import FilterSql.Proofs.Sql.Grammar
import FilterSql.Proofs.Sql.Lexer
import FilterSql.Proofs.Sql.Pattern
import FilterSql.Proofs.Sql.Placeholders
import FilterSql.Proofs.Sql.Rendering
import FilterSql.Proofs.Sql.RoundTrip
import FilterSql.Proofs.Sql.Wording
import FilterSql.Proofs.Strictness
import FilterSql.Proofs.Structure
import FilterSql.Proofs.Sql.Identifier
import FilterSql.Proofs.JoinPaths
import FilterSql.Proofs.Existence
import FilterSql.Proofs.Renaming
import FilterSql.Proofs.Independence
import FilterSql.Proofs.Filter.Grammar
import FilterSql.Proofs.Filter.Outline
import FilterSql.Proofs.Filter.Dotted
import FilterSql.Proofs.Refusal
import FilterSql.Proofs.Refinement
import FilterSql.Proofs.Session
import FilterSql.Proofs.Distribution
import FilterSql.Proofs.Delegation
import FilterSql.Proofs.Filter.Spelling
import FilterSql.Proofs.Stages
import FilterSql.Proofs.Sql.Skeleton
import FilterSql.Proofs.Filter.Rewording
import FilterSql.Proofs.Blindness
import FilterSql.Proofs.Opposition
import FilterSql.Proofs.CommaList
import FilterSql.Proofs.Integers
import FilterSql.Proofs.Lowering
import FilterSql.Proofs.Finding
import FilterSql.Proofs.Acceptance
import FilterSql.Proofs.Json.Record
import FilterSql.Proofs.Layering
import FilterSql.Proofs.FirstOccurrences
import FilterSql.Proofs.Numerals
import FilterSql.Proofs.Searching
import FilterSql.Proofs.Alias.Order
import FilterSql.Proofs.Sql.Constants
import FilterSql.Proofs.Grouping
import FilterSql.Proofs.Variants
import FilterSql.Proofs.StorageType
import FilterSql.Proofs.QueryDocument
