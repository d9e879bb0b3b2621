import ObjectMarkup.OrderedMap
import ObjectMarkup.Text.Utf8

namespace ObjectMarkup

/-- What is wrong with the content of a file that should hold a table. -/
inductive FormatFault where
  | notAnObject
  | notJson
  deriving DecidableEq, Repr

/-- Why a file is not to be had. -/
inductive ResourceError where
  | notFound (path : String)
  | loadFailed (path reason : String)
  | invalidFormat (path : String) (fault : FormatFault)
  deriving DecidableEq, Repr

namespace ResourceError

/-- Whether the file is missing, as opposed to unusable. -/
def isNotFound : ResourceError → Bool
  | .notFound _ => true
  | _ => false

def message : ResourceError → String
  | .notFound path => s!"Resource not found: {path}"
  | .loadFailed path reason => s!"Failed to load resource '{path}': {reason}"
  | .invalidFormat path .notAnObject =>
    s!"Invalid resource format in '{path}': expected a JSON object"
  | .invalidFormat path .notJson => s!"Invalid resource format in '{path}': not JSON"

end ResourceError

/-- A source of files, each under a slash-separated path. -/
structure Provider where
  load : String → Except ResourceError Bytes
  holds : String → Bool
  name : String
  /-- The place that relative paths start from, if there is one. -/
  base : Option String

/-- Files held in memory, each under exactly its path. -/
structure Library where
  files : OrderedMap String Bytes
  deriving DecidableEq, Repr

namespace Library

def empty : Library := ⟨.empty⟩

/-- Puts a file in, in place of an older one with its path. -/
def add (l : Library) (path : String) (content : Bytes) : Library :=
  ⟨l.files.insert path content⟩

def addText (l : Library) (path text : String) : Library := l.add path (Text.encode text.toList)

def remove (l : Library) (path : String) : Library := ⟨l.files.erase path⟩

def load (l : Library) (path : String) : Except ResourceError Bytes :=
  match l.files.get? path with
  | some content => .ok content
  | none => .error (.notFound path)

def provider (l : Library) : Provider where
  load := l.load
  holds := l.files.contains
  name := "InMemoryResourceProvider"
  base := none

end Library

end ObjectMarkup
