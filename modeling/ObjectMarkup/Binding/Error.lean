import ObjectMarkup.Document.Error

namespace ObjectMarkup

inductive BindError where
  /-- A field that both loads and takes. -/
  | conflictingBinding (owner field : String)
  | immutableField (owner field : String)
  /-- A field that takes from one that loads nothing. -/
  | unloadedProperty (owner field property : String)
  /-- A field that takes from one that only its own class may take from. -/
  | inaccessibleProperty (owner field property : String)
  | missingId (property id : String)
  | missingResources (baseName : String) (cause : ResourceError)
  | noBundleLoader (baseName : String)
  | invalidLocale (tag : String) (cause : PropertyError)
  | load (owner field document : String) (cause : ReadError)
  /-- A field that refused its value. -/
  | field (owner field : String) (cause : PropertyError)
  deriving DecidableEq, Repr

def BindError.message : BindError → String
  | .conflictingBinding owner name =>
    s!"Field '{owner}.{name}' declares both load and bind metadata"
  | .immutableField owner name => s!"Field '{owner}.{name}' is not writable"
  | .unloadedProperty owner name source =>
    s!"Property '{source}' used by '{owner}.{name}' has not been loaded"
  | .inaccessibleProperty owner name source =>
    s!"Property '{source}' used by '{owner}.{name}' is private to an ancestor"
  | .missingId source id => s!"'{id}' is not a valid ID value in property '{source}'"
  | .missingResources baseName cause =>
    s!"Resource bundle '{baseName}' is not available: {cause.message}"
  | .noBundleLoader baseName => s!"No resource bundle loader configured for '{baseName}'"
  | .invalidLocale tag cause => s!"Invalid locale '{tag}': {cause.message}"
  | .load owner name document cause =>
    s!"Failed to load '{document}' into '{owner}.{name}': {cause.message}"
  | .field owner name cause => s!"Failed to assign '{owner}.{name}': {cause.message}"

end ObjectMarkup
