import FilterSql.Json.Fault

/-!
What can be wrong with a filter document before anything is known about the catalog.
-/

namespace FilterSql

/-- A fault in the form of a filter document. -/
inductive FilterFault where
  /-- the text cannot be read -/
  | unreadable (fault : Json.Fault)
  | notAnObject (found : Json.Kind)
  | tooLarge (limit : Nat)
  | tooDeep (limit : Nat)
  /-- a combination of something that is no array -/
  | notAnArray (key : String)
  /-- a combination with an item that is no object -/
  | itemNotAnObject (key : String) (found : Json.Kind)
  /-- an operator where a field is expected -/
  | operatorWithoutField (key : String)
  | emptySegment (key : String)
  /-- operators and field names side by side -/
  | mixedKeys (path : List String)
  deriving DecidableEq, Repr

namespace FilterFault

/-- The stable code of a fault. -/
def code : FilterFault → String
  | unreadable _ | notAnObject _ => "INVALID_FILTER_JSON"
  | tooLarge _ => "FILTER_JSON_TOO_LARGE"
  | tooDeep _ => "TOO_MANY_FILTER_LEVELS"
  | notAnArray _ | itemNotAnObject _ _ => "INVALID_LOGICAL_FILTER"
  | operatorWithoutField _ => "OPERATOR_WITHOUT_FIELD"
  | emptySegment _ => "INVALID_FILTER_PATH"
  | mixedKeys _ => "MIXED_FILTER_KEYS"

/-- The wording of a fault. -/
def message : FilterFault → String
  | unreadable fault => fault.message
  | notAnObject found => "Filter must be an object, got " ++ found.name
  | tooLarge limit => "Filter JSON exceeds maximum size of " ++ toString limit ++ " bytes"
  | tooDeep limit => "Filter nesting exceeds " ++ toString limit ++ " levels"
  | notAnArray key => "'" ++ key ++ "' expects an array of filters"
  | itemNotAnObject key found =>
    "'" ++ key ++ "' entries must be objects, got " ++ found.name
  | operatorWithoutField key => "Operator '" ++ key ++ "' must be nested under a field"
  | emptySegment key => "Empty segment in field path '" ++ key ++ "'"
  | mixedKeys path =>
    "'" ++ Text.join "." path ++ "' mixes operators with field names"

end FilterFault

end FilterSql
