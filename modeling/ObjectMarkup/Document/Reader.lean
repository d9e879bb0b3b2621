import ObjectMarkup.Collections
import ObjectMarkup.Document.Session

namespace ObjectMarkup

/-- What all documents of a reader share. -/
structure Environment where
  types : TypeRegistry
  documents : Provider
  bundles : Option BundleLoader
  engines : ScriptEngines
  locale : Option Locale

/-- An environment, with the bundle that keys are looked up in. -/
structure Reader where
  environment : Environment
  resources : Option Bundle

namespace Reader

/-- The reader that knows the collections and has no documents. -/
def plain : Reader where
  environment :=
    { types := .collections
      documents := Library.empty.provider
      bundles := none
      engines := []
      locale := none }
  resources := none

/-- The reader that knows the collections and has the documents of a library. -/
def ofLibrary (l : Library) : Reader :=
  { plain with environment := { plain.environment with documents := l.provider } }

def withResources (r : Reader) (resources : Option Bundle) : Reader := { r with resources }

def loadBundle (r : Reader) (baseName : String) (locale : Option Locale) :
    Except ReadError Bundle :=
  match r.environment.bundles with
  | none => .error (.noBundleLoader baseName)
  | some loader =>
    (loader baseName (locale.orElse fun _ => r.environment.locale)).mapError .resource

end Reader

structure Document where
  root : Value
  names : Registry
  location : Option String

end ObjectMarkup
