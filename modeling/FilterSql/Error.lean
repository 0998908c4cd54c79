import FilterSql.Filter.Fault
import FilterSql.Filter.Operator

/-!
The errors of the compiler, by cause.

Every error has a stable code and a wording. Only a broken catalog is not the fault of the request.
-/

namespace FilterSql

/-- A fault in a catalog. -/
inductive SchemaFault where
  | unreadable (fault : Json.Fault)
  | repeatedCollection (name : String)
  | primaryNotAColumn (collection primary : String)
  | missingCollection (name : String)
  | missingColumn (collection column : String)
  deriving DecidableEq, Repr

/-- The wording of a fault in a catalog. -/
def SchemaFault.message : SchemaFault → String
  | .unreadable fault => "invalid catalog JSON: " ++ fault.message
  | .repeatedCollection name => "collection '" ++ name ++ "' is declared more than once"
  | .primaryNotAColumn collection primary =>
    "primary key '" ++ collection ++ "." ++ primary ++ "' is not a column"
  | .missingCollection name => "relation references missing collection '" ++ name ++ "'"
  | .missingColumn collection column =>
    "relation references missing column '" ++ collection ++ "." ++ column ++ "'"

/-- Why an operator cannot be applied where it stands. -/
inductive OperandFault where
  /-- a range with another number of bounds than two -/
  | bounds (found : Nat)
  /-- a one-to-many relation used like a column -/
  | needsNestedFilter
  deriving DecidableEq, Repr

/-- The wording of an operand fault. -/
def OperandFault.message : OperandFault → String
  | .bounds found => "expected exactly 2 values, got " ++ toString found
  | .needsNestedFilter => "a one-to-many relation needs a nested filter"

/-- An error of the compiler. -/
inductive CompileError where
  | schemaIntegrity (fault : SchemaFault)
  | unknownCollection (name : String)
  /-- a path on a collection with a segment that is neither a relation nor a column -/
  | malformedPath (collection : String) (path : List String) (segment : String)
  | invalidOperand (operator : Operator) (field : String) (fault : OperandFault)
  | unknownOperator (key : String)
  | invalidFilter (fault : FilterFault)
  deriving DecidableEq, Repr

namespace CompileError

/-- The stable code of an error. -/
def code : CompileError → String
  | schemaIntegrity _ => "SCHEMA_INTEGRITY"
  | unknownCollection _ => "UNKNOWN_COLLECTION"
  | malformedPath _ _ _ => "MALFORMED_FILTER_PATH"
  | invalidOperand _ _ _ => "INVALID_FILTER_VALUE"
  | unknownOperator _ => "UNKNOWN_FILTER_OPERATOR"
  | invalidFilter fault => fault.code

/-- Whether the request is at fault rather than the catalog. -/
def isClientError : CompileError → Bool
  | schemaIntegrity _ => false
  | _ => true

/-- The wording of an error. -/
def message : CompileError → String
  | schemaIntegrity fault => "Schema integrity error: " ++ fault.message
  | unknownCollection name => "Unknown collection: " ++ name
  | malformedPath collection path segment =>
    "Malformed filter path '" ++ Text.join "." path ++ "' on " ++ collection
      ++ ": no relation or column '" ++ segment ++ "'"
  | invalidOperand operator field fault =>
    "Invalid value for " ++ operator.key ++ " on " ++ field ++ ": " ++ fault.message
  | unknownOperator key => "Unknown filter operator: " ++ key
  | invalidFilter fault => "Invalid filter (" ++ fault.code ++ "): " ++ fault.message

end CompileError

end FilterSql
