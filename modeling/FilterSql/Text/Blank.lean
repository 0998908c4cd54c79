/-!
White space and trimming.

A character is blank when it has the Unicode property `White_Space`, twenty-five code points in all.
Trimming drops blanks from both ends of a text and nothing else.
-/

namespace FilterSql

namespace Text

/-- The Unicode property `White_Space`. -/
def isBlank (c : Char) : Bool :=
  let n := c.toNat
  (0x9 ≤ n && n ≤ 0xD) || n == 0x20 || n == 0x85 || n == 0xA0 || n == 0x1680
    || (0x2000 ≤ n && n ≤ 0x200A) || n == 0x2028 || n == 0x2029 || n == 0x202F || n == 0x205F
    || n == 0x3000

/-- Characters without the blanks in front. -/
def trimStart (cs : List Char) : List Char := cs.dropWhile isBlank

/-- Characters without the blanks at the end. -/
def trimEnd (cs : List Char) : List Char := (cs.reverse.dropWhile isBlank).reverse

/-- Characters without the blanks at both ends. -/
def trim (cs : List Char) : List Char := trimEnd (trimStart cs)

/-- A text without the blanks at both ends. -/
def trimmed (s : String) : String := String.ofList (trim s.toList)

/-- Whether a text holds nothing but blanks. -/
def isAllBlank (s : String) : Bool := s.toList.all isBlank

/-- Blanks in front are dropped up to the first character that is none. -/
theorem dropWhile_isBlank {before cs : List Char} (leading : ∀ c ∈ before, isBlank c = true)
    (first : ∀ c ∈ cs.head?, isBlank c = false) : (before ++ cs).dropWhile isBlank = cs := by
  rw [List.dropWhile_append_of_pos leading]
  cases cs with
  | nil => rfl
  | cons c cs => simp [List.dropWhile, first c rfl]

/-- Blanks around characters that are none are trimmed, and no more. -/
theorem trim_surrounded {before cs after : List Char} (leading : ∀ c ∈ before, isBlank c = true)
    (trailing : ∀ c ∈ after, isBlank c = true) (inside : ∀ c ∈ cs, isBlank c = false) :
    trim (before ++ cs ++ after) = cs := by
  cases cs with
  | nil =>
    have all : ∀ c ∈ before ++ after, isBlank c = true := by
      intro c mem
      exact (List.mem_append.mp mem).elim (leading c) (trailing c)
    have none : (before ++ after ++ []).dropWhile isBlank = [] := dropWhile_isBlank all (by simp)
    rw [List.append_nil] at none
    simp [trim, trimStart, trimEnd, none]
  | cons c cs =>
    have start : trimStart (before ++ (c :: cs) ++ after) = c :: cs ++ after := by
      rw [trimStart, List.append_assoc]
      exact dropWhile_isBlank leading (by simp [inside c (by simp)])
    have last : ∀ d ∈ (c :: cs).reverse.head?, isBlank d = false := by
      intro d mem
      exact inside d (List.mem_reverse.mp (List.mem_of_mem_head? mem))
    rw [trim, start, trimEnd, List.reverse_append, dropWhile_isBlank (by simpa using trailing) last,
      List.reverse_reverse]

end Text

end FilterSql
