import FilterSql.Options
import Std.Data.TreeMap
import Std.Data.TreeSet

/-!
Aliases for joined tables.

An alias belongs to a field followed from an anchor in a scope, and asking twice gives the same
alias. No alias is given out for two of them, and no reserved name is given out at all. Aliases are
five letters or more: a counter written in base twenty-six, or letters drawn at random, where a
draw that is taken is repeated a limited number of times before the counter is used.
-/

namespace FilterSql

/-- What an alias belongs to. -/
structure AliasKey where
  scope : Nat
  anchor : String
  field : String
  deriving DecidableEq, Repr

namespace AliasKey

/-- The order of keys, by scope, anchor and field. -/
def order : AliasKey → AliasKey → Ordering :=
  compareLex (compareOn scope) (compareLex (compareOn anchor) (compareOn field))

instance : Ord AliasKey := ⟨order⟩

instance : Std.TransOrd AliasKey :=
  inferInstanceAs (Std.TransCmp
    (compareLex (compareOn scope) (compareLex (compareOn anchor) (compareOn field))))

instance : Std.LawfulEqOrd AliasKey where
  eq_of_compare {a b} h := by
    change order a b = .eq at h
    simp only [order, compareLex, compareOn, Ordering.then_eq_eq, Std.compare_eq_iff_eq] at h
    obtain ⟨s, n, f⟩ := h
    cases a
    cases b
    simp_all

end AliasKey

namespace AliasTable

/-- The least number of letters of an alias. -/
def width : Nat := 5

/-- A letter by its place in the alphabet. -/
def letter (n : Nat) : Char := Char.ofNat (97 + n % 26)

/-- The base twenty-six digits of a number as letters, with at most `fuel` digits, before the letters
already there. -/
def lettersOnto : (fuel : Nat) → Nat → List Char → List Char
  | 0, _, written => written
  | fuel + 1, n, written =>
    if n < 26 then letter n :: written else lettersOnto fuel (n / 26) (letter n :: written)

/-- The base twenty-six digits of a number as letters. -/
def letters (n : Nat) : List Char := lettersOnto (n + 1) n []

/-- A number in letters, with `a`, the digit zero, in front up to the least number of letters. -/
def encode (n : Nat) : String :=
  let ls := letters n
  String.ofList (List.replicate (width - ls.length) 'a' ++ ls)

/-- How many random candidates are tried. -/
def attempts : Nat := 64

/-- The number of different random candidates. -/
def candidates : Nat := Nat.pow 26 width

end AliasTable

/-- The aliases given out so far. The random draws are an argument: `draws n` is the `n`-th draw. -/
structure AliasTable where
  strategy : AliasStrategy
  draws : Nat → Nat
  /-- how many draws have been made -/
  drawn : Nat
  /-- the first number not yet tried -/
  counter : Nat
  /-- the first scope not yet opened; the scope of a whole statement is zero -/
  nextScope : Nat
  issued : Std.TreeMap AliasKey String
  /-- names that are reserved or given out -/
  taken : Std.TreeSet String

namespace AliasTable

/-- The table that has given out nothing and never gives out the reserved names. -/
def fresh (strategy : AliasStrategy) (draws : Nat → Nat) (reserved : List String) : AliasTable where
  strategy := strategy
  draws := draws
  drawn := 0
  counter := 0
  nextScope := 1
  issued := ∅
  taken := .ofList reserved

/-- Opens a scope of its own. -/
def newScope (t : AliasTable) : Nat × AliasTable :=
  (t.nextScope, { t with nextScope := t.nextScope + 1 })

/-- Whether a name may be given out. -/
def isFree (t : AliasTable) (name : String) : Bool := !t.taken.contains name

/-- The first number from `n` on whose letters are free, after at most `fuel` that are not. -/
def firstFree (taken : Std.TreeSet String) : (fuel : Nat) → Nat → Nat
  | 0, n => n
  | fuel + 1, n => if taken.contains (encode n) then firstFree taken fuel (n + 1) else n

/-- The next alias of the counter. Among one number more than there are names taken, one is
free. -/
def nextSequential (t : AliasTable) : String × AliasTable :=
  let n := firstFree t.taken t.taken.size t.counter
  (encode n, { t with counter := n + 1 })

/-- A free name among the next draws, and how many draws have been made. -/
def drawFree (t : AliasTable) : (attempts : Nat) → (drawn : Nat) → Option String × Nat
  | 0, drawn => (none, drawn)
  | k + 1, drawn =>
    let candidate := encode (t.draws drawn % candidates)
    if t.isFree candidate then (some candidate, drawn + 1) else t.drawFree k (drawn + 1)

/-- The next alias. -/
def next (t : AliasTable) : String × AliasTable :=
  match t.strategy with
  | .sequential => t.nextSequential
  | .random =>
    match t.drawFree attempts t.drawn with
    | (some name, drawn) => (name, { t with drawn := drawn })
    | (none, drawn) => nextSequential { t with drawn := drawn }

/-- The alias of a key, and whether it is given out for the first time. -/
def aliasFor (t : AliasTable) (key : AliasKey) : (String × Bool) × AliasTable :=
  match t.issued[key]? with
  | some name => ((name, false), t)
  | none =>
    let (name, t) := t.next
    ((name, true), { t with issued := t.issued.insert key name, taken := t.taken.insert name })

end AliasTable

end FilterSql
