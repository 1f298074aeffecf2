import ExpiringCache.Text.Blank

/-!
# Words that choose

A setting with finitely many values is written as one of a list of words. Blanks around the word
and the case of ASCII letters do not matter; a word that is not in the list is an error that names
the setting and the word as it was compared.
-/

namespace ExpiringCache.Text

/-- A word that chooses nothing: what was to be chosen, and the word. -/
structure UnknownWord where
  /-- What the word was to choose. -/
  topic : String
  /-- The word, trimmed and in small letters. -/
  word : String
deriving DecidableEq

/-- The text of the error. -/
def UnknownWord.message (e : UnknownWord) : String :=
  "unknown " ++ e.topic ++ " '" ++ e.word ++ "'"

/-- The value a text chooses from a list of words and their values. -/
def choose {α : Type} (topic : String) (words : List (String × α)) (text : String) :
    Except UnknownWord α :=
  let word := lower (trim text)
  match words.lookup word with
  | some value => .ok value
  | none => .error ⟨topic, word⟩

end ExpiringCache.Text
