import ObjectMarkup.CommandLine.Request
import ObjectMarkup.Document.Read
import ObjectMarkup.Dump
import ObjectMarkup.Resource.FileSystem
import ObjectMarkup.Resource.JsonBundle

namespace ObjectMarkup.CommandLine

inductive Failure where
  | locale (cause : PropertyError)
  | document (cause : ReadError)
  | unknownId (id : String)
  deriving DecidableEq, Repr

def Failure.message : Failure → String
  | .locale cause => s!"Invalid locale: {cause.message}"
  | .document cause => s!"Failed to read document: {cause.message}"
  | .unknownId id => s!"No object named '{id}' in the document"

namespace Request

def locale (r : Request) : Except Failure (Option Locale) :=
  match r.settings.get? .locale with
  | none => .ok none
  | some tag => ((Locale.parse tag).map some).mapError .locale

/-- A reader of the collections in a directory, without scripts. Bundles are JSON files of the same
directory. -/
def plainReader (r : Request) (disk : FileSystem) (locale : Option Locale) : Reader :=
  let documents := (DocumentRoot.named disk r.root).provider disk
  { environment :=
      { types := .collections
        documents
        bundles := some (JsonBundle.loader documents)
        engines := []
        locale }
    resources := none }

/-- The reader with the bundle that is asked for, if any. -/
def reader (r : Request) (disk : FileSystem) (locale : Option Locale) : Except Failure Reader :=
  let reader := r.plainReader disk locale
  match r.settings.get? .resources with
  | none => .ok reader
  | some baseName => do
    let bundle ← (reader.loadBundle baseName none).mapError .document
    return reader.withResources (some bundle)

/-- The part of a document that is asked for: what an id names, or else the root. -/
def select (r : Request) (document : Document) : Except Failure Value :=
  match r.settings.get? .id with
  | none => .ok document.root
  | some id =>
    match document.names.get? id with
    | some value => .ok value
    | none => .error (.unknownId id)

def run (r : Request) (disk : FileSystem) : Except Failure String := do
  let reader ← r.reader disk (← r.locale)
  let (result, session) := (reader.read r.document).perform .initial
  let document ← result.mapError .document
  let value ← r.select document
  return Dump.text session.heap value

end Request

structure Outcome where
  exitCode : Nat
  output : String
  failure : Option Failure
  deriving DecidableEq, Repr

def versionLine : String := "wtkx 0.1.0\n"

def helpText : String :=
  Text.join "\n"
    ["Usage: wtkx [OPTIONS] <DOCUMENT>",
      "",
      "Reads a document and prints the resulting object graph as JSON.",
      "",
      "Options:",
      "      --root <ROOT>            Directory of documents and bundles [default: .]",
      "      --resources <RESOURCES>  Bundle to load, such as demo.Strings",
      "      --locale <LOCALE>        Locale of the bundle, such as fr_CA",
      "      --id <ID>                Print only the object with this id",
      "  -v, --verbose                Report what is read",
      "  -h, --help                   Print help",
      "  -V, --version                Print version",
      ""]

def Halt.outcome : Halt → Outcome
  | .misuse => ⟨2, "", none⟩
  | .help => ⟨0, helpText, none⟩
  | .version => ⟨0, versionLine, none⟩

def Request.outcome (r : Request) (disk : FileSystem) : Outcome :=
  match r.run disk with
  | .ok text => ⟨0, text ++ "\n", none⟩
  | .error failure => ⟨1, "", some failure⟩

def run (arguments : List String) (disk : FileSystem) : Outcome :=
  match Request.parse arguments with
  | .error halt => halt.outcome
  | .ok request => request.outcome disk

end ObjectMarkup.CommandLine
