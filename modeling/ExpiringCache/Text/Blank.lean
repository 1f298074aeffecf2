/-!
# Blank characters

The characters with the Unicode property White_Space, and trimming by them. The property holds of
25 characters, among them the next-line character, the no-break spaces and the ideographic space.
-/

namespace ExpiringCache.Text

/-- The ranges of code points with the property White_Space. -/
def blankRanges : List (Nat × Nat) :=
  [(0x09, 0x0D), (0x20, 0x20), (0x85, 0x85), (0xA0, 0xA0), (0x1680, 0x1680), (0x2000, 0x200A),
    (0x2028, 0x2029), (0x202F, 0x202F), (0x205F, 0x205F), (0x3000, 0x3000)]

/-- Whether a character has the property White_Space. -/
def isBlank (c : Char) : Bool :=
  blankRanges.any fun range => range.1 ≤ c.toNat && c.toNat ≤ range.2

/-- Every blank that core knows is a blank. -/
theorem isBlank_of_isWhitespace {c : Char} (h : c.isWhitespace = true) : isBlank c = true := by
  simp only [Char.isWhitespace, Bool.or_eq_true, decide_eq_true_eq] at h
  rcases h with ((rfl | rfl) | rfl) | rfl <;> decide

/-- The property holds of 25 characters. -/
example : (blankRanges.flatMap fun range => List.range' range.1 (range.2 + 1 - range.1)).length =
    25 := by decide

/-- A text without the blanks at its two ends. -/
def trim (text : String) : String :=
  String.ofList ((text.toList.dropWhile isBlank).reverse.dropWhile isBlank).reverse

/-- A text with the ASCII capitals made small; other characters stay as they are. -/
def lower (text : String) : String := String.ofList (text.toList.map Char.toLower)

end ExpiringCache.Text
