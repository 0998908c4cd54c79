/-!
The choices a caller makes about one compilation.
-/

namespace FilterSql

/-- What becomes of a condition whose path names neither a relation nor a column. -/
inductive PathPolicy where
  /-- the condition is dropped -/
  | ignore
  /-- compilation fails -/
  | reject
  deriving DecidableEq, Repr, Inhabited

/-- The policy of a caller that asks for strict paths or does not. -/
def PathPolicy.ofStrict (strict : Bool) : PathPolicy := if strict then .reject else .ignore

/-- The name of a policy. -/
def PathPolicy.name : PathPolicy → String
  | .ignore => "ignore"
  | .reject => "reject"

/-- How join aliases are made up. -/
inductive AliasStrategy where
  /-- a counter written in letters -/
  | sequential
  /-- random letters, drawn again on collision -/
  | random
  deriving DecidableEq, Repr, Inhabited

/-- The name of a strategy. -/
def AliasStrategy.name : AliasStrategy → String
  | .sequential => "sequential"
  | .random => "random"

/-- The strategies by name. -/
def AliasStrategy.named : List (String × AliasStrategy) :=
  [.sequential, .random].map fun s => (s.name, s)

/-- The choices about one compilation. -/
structure CompileOptions where
  unresolvedPaths : PathPolicy := .ignore
  aliases : AliasStrategy := .sequential
  /-- the greatest number of filter objects inside one another -/
  maxDepth : Nat := 32
  /-- the greatest size of a filter in bytes -/
  maxBytes : Nat := 65536
  deriving DecidableEq, Repr, Inhabited

end FilterSql
