import ObjectMarkup.Locale
import ObjectMarkup.Resource.Provider
import ObjectMarkup.Value

namespace ObjectMarkup

/-- A table under the base name for which it was loaded. -/
structure Bundle where
  baseName : String
  get? : String → Option Value

/-- Finds the bundle with a base name, in the layers that fit a locale. -/
abbrev BundleLoader := String → Option Locale → Except ResourceError Bundle

/-- A bundle with one value for each key. -/
def Bundle.flat (baseName : String) (entries : OrderedMap String Value) : Bundle :=
  ⟨baseName, entries.get?⟩

end ObjectMarkup
