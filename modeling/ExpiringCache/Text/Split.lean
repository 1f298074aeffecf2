/-!
# Cutting texts

A text cut at every occurrence of a character. There is always one part more than there are
occurrences, so parts may be empty.
-/

namespace ExpiringCache.Text

/-- A list of characters cut at each occurrence of one. -/
def splitChars (cut : Char) : List Char → List (List Char)
  | [] => [[]]
  | c :: rest =>
    if c = cut then [] :: splitChars cut rest
    else
      match splitChars cut rest with
      | [] => [[c]]
      | first :: more => (c :: first) :: more

theorem splitChars_ne_nil (cut : Char) (cs : List Char) : splitChars cut cs ≠ [] := by
  cases cs with
  | nil => simp [splitChars]
  | cons c rest =>
    simp only [splitChars]
    split
    · simp
    · split <;> simp

/-- Nothing is lost: the parts, put together with the character between them, are the whole. -/
theorem intercalate_splitChars (cut : Char) (cs : List Char) :
    [cut].intercalate (splitChars cut cs) = cs := by
  induction cs with
  | nil => rfl
  | cons c rest ih =>
    obtain ⟨first, more, hs⟩ := List.exists_cons_of_ne_nil (splitChars_ne_nil cut rest)
    rw [hs] at ih
    by_cases hc : c = cut
    · simp only [splitChars, hc, if_true, hs]
      simpa [List.intercalate, List.intersperse] using ih
    · simp only [splitChars, hc, if_false, hs]
      cases more <;> simpa [List.intercalate, List.intersperse] using ih

/-- A text cut at each occurrence of a character. -/
def split (cut : Char) (text : String) : List String :=
  (splitChars cut text.toList).map String.ofList

end ExpiringCache.Text
