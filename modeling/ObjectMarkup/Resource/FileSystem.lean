import ObjectMarkup.Path
import ObjectMarkup.Resource.Provider

namespace ObjectMarkup

/-- Why a file cannot be read. -/
inductive FileFailure where
  | missing
  | unusable (reason : String)
  deriving DecidableEq, Repr

/-- What can be asked about the paths of a disk. -/
structure FileSystem where
  /-- The path from the root of the disk, free of dots and links, to what a path leads to; `none`
  when it leads to nothing. -/
  canonicalize : String → Option String
  read : String → Except FileFailure Bytes
  isFile : String → Bool

/-- The directory that documents are kept in. -/
structure DocumentRoot where
  path : String
  /-- Where the path led when the directory was named. -/
  canonical : Option String
  deriving DecidableEq, Repr

namespace DocumentRoot

def named (disk : FileSystem) (path : String) : DocumentRoot := ⟨path, disk.canonicalize path⟩

def dropDots : List Char → List Char
  | '.' :: '/' :: rest => dropDots rest
  | cs => cs

/-- A path below the root, less the dots it starts with. -/
def relative (path : String) : String := String.ofList (dropDots path.toList)

/-- Whether a path does not start from the root or climbs on its way. -/
def isForeign (relative : String) : Bool :=
  Path.isAbsolute relative || (Path.parts relative).contains ['.', '.']

/-- The path on disk of what a path leads to from the root; `none` when that is not inside the
root. Where nothing is at the end of the path, it is the path itself. -/
def locate (root : DocumentRoot) (disk : FileSystem) (path : String) : Option String :=
  let relative := relative path
  if isForeign relative then none
  else
    let full := Path.join root.path relative
    match disk.canonicalize full, root.canonical with
    | some target, some canonical => if Path.isBelow canonical target then some target else none
    | _, _ => some full

def outside (path : String) : ResourceError := .notFound (path ++ " (outside document root)")

def failure (path : String) : FileFailure → ResourceError
  | .missing => .notFound path
  | .unusable reason => .loadFailed path reason

/-- The content of the document at a path. A path is refused when it starts at the root of the disk,
when a part of it is a double dot, and when links lead it out of the root directory; then it is
reported as missing, and nothing is read for it. -/
def load (root : DocumentRoot) (disk : FileSystem) (path : String) :
    Except ResourceError Bytes :=
  match root.locate disk path with
  | none => .error (outside path)
  | some target => (disk.read target).mapError (failure path)

def holds (root : DocumentRoot) (disk : FileSystem) (path : String) : Bool :=
  match root.locate disk path with
  | none => false
  | some target => disk.isFile target

/-- The documents of the directory as a source of files. -/
def provider (root : DocumentRoot) (disk : FileSystem) : Provider where
  load := root.load disk
  holds := root.holds disk
  name := "FilesystemResourceProvider"
  base := some root.path

end DocumentRoot

end ObjectMarkup
