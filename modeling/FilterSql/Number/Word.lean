/-!
The ranges of sixty-four-bit words.
-/

namespace FilterSql

namespace Word64

/-- How many words there are, which is one more than the greatest unsigned one. -/
def count : Nat := 18446744073709551616

/-- One more than the greatest signed word; its opposite is the least one. -/
def signedLimit : Nat := 9223372036854775808

theorem count_eq_two_mul_signedLimit : count = 2 * signedLimit := rfl

end Word64

end FilterSql
