import FilterSql.Sql.Dialect
import FilterSql.Sql.Value

/-!
SQL text with operands left open.

A fragment is a list of pieces of text and operands in the order of the text. Its SQL text puts a
placeholder for each operand, numbered by position; its parameters are the operands themselves. Null
and booleans are written into the text and are never operands.
-/

namespace FilterSql

/-- A piece of SQL text or an operand. -/
inductive Piece where
  | text (s : String)
  | operand (v : SqlValue)
  deriving DecidableEq, Repr

/-- SQL text with operands left open. -/
abbrev Fragment := List Piece

namespace Fragment

/-- Text without operands. -/
def ofText (s : String) : Fragment := [.text s]

/-- A value as it stands in a text. -/
def ofValue (d : Dialect) : SqlValue → Fragment
  | .null => [.text "NULL"]
  | .bool b => [.text (d.boolLiteral b)]
  | v => [.operand v]

/-- Fragments with a separator between neighbours. -/
def joinWith (sep : String) : List Fragment → Fragment
  | [] => []
  | [f] => f
  | f :: rest => f ++ .text sep :: joinWith sep rest

/-- The operands in the order of the text. -/
def operands : Fragment → List SqlValue
  | [] => []
  | .text _ :: rest => operands rest
  | .operand v :: rest => v :: operands rest

/-- The SQL text after `bound` parameters that are bound already. -/
def sql (d : Dialect) (bound : Nat) : Fragment → String
  | [] => ""
  | .text s :: rest => s ++ sql d bound rest
  | .operand _ :: rest => d.placeholder (bound + 1) ++ sql d (bound + 1) rest

/-- The SQL text, and the parameters with the operands after those already bound. -/
def render (d : Dialect) (params : List SqlValue) (f : Fragment) : String × List SqlValue :=
  (f.sql d params.length, params ++ f.operands)

@[simp] theorem operands_append (f g : Fragment) :
    operands (f ++ g) = operands f ++ operands g := by
  induction f with
  | nil => rfl
  | cons p f ih => cases p <;> simp [operands, ih]

theorem sql_append (d : Dialect) (bound : Nat) (f g : Fragment) :
    sql d bound (f ++ g) = sql d bound f ++ sql d (bound + (operands f).length) g := by
  induction f generalizing bound with
  | nil => simp [sql, operands]
  | cons p f ih =>
    cases p with
    | text s => simp [sql, operands, ih, String.append_assoc]
    | operand v =>
      simp [sql, operands, ih, String.append_assoc, Nat.add_assoc, Nat.add_comm 1]

end Fragment

end FilterSql
