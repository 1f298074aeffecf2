import ExpiringCache.Text.Choice
import ExpiringCache.Text.Scalar

/-!
# Properties

Settings given as texts under names. A text that cannot be read counts as not given.
-/

namespace ExpiringCache

/-- Settings given as texts: the text under each name, if there is one. -/
structure Properties where
  find? : String → Option String

namespace Properties

/-- No settings. -/
def none : Properties := ⟨fun _ => .none⟩

/-- The settings of a list. -/
def ofList (settings : List (String × String)) : Properties := ⟨fun name => settings.lookup name⟩

/-- The settings whose names start with a stem, under their names without it. -/
def under (stem : String) (properties : Properties) : Properties :=
  ⟨fun name => properties.find? (stem ++ name)⟩

/-- The stem under which the environment holds the settings of the cache. -/
def environmentStem : String := "CACHE_"

/-- The setting of a name, read; a text that cannot be read is passed over. -/
def read? {α : Type} (properties : Properties) (read : String → Option α) (name : String) :
    Option α :=
  (properties.find? name).bind read

end Properties

/-- The chosen value, if there is one. -/
def Text.chosen? {α : Type} : Except Text.UnknownWord α → Option α
  | .ok value => some value
  | .error _ => none

end ExpiringCache
