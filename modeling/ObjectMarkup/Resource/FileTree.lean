import ObjectMarkup.Resource.FileSystem

namespace ObjectMarkup

/-- What a directory has under a name. -/
inductive FileNode where
  | file (content : Bytes)
  | directory
  | link (target : String)
  deriving DecidableEq, Repr

/-- Where something stands: the names on the way to it from the root. -/
abbrev Place := List String

/-- What stands where, apart from the root itself, and where relative paths start. -/
structure FileTree where
  nodes : OrderedMap Place FileNode
  start : Place
  deriving DecidableEq, Repr

namespace FileTree

/-- The place that a path names when there are no links. -/
def placeOf (path : String) : Place := (Path.collapse (Path.parts path)).map String.ofList

def pathOf (place : Place) : String := Path.ofParts true (place.map String.toList)

def empty : FileTree := ⟨.empty, []⟩

def node? (t : FileTree) (place : Place) : Option FileNode :=
  if place.isEmpty then some .directory else t.nodes.get? place

/-- Makes a directory of each place where nothing stands on the way from `above`. -/
def makeDirectories (t : FileTree) (above : Place) : Place → FileTree
  | [] => t
  | name :: rest =>
    let place := above ++ [name]
    if (t.node? place).isSome then t.makeDirectories place rest
    else makeDirectories { t with nodes := t.nodes.insert place .directory } place rest

/-- Puts something at the place of a path, in directories that are made if need be. -/
def put (t : FileTree) (path : String) (node : FileNode) : FileTree :=
  let place := placeOf path
  let t := t.makeDirectories [] place.dropLast
  { t with nodes := t.nodes.insert place node }

def putDirectory (t : FileTree) (path : String) : FileTree := t.makeDirectories [] (placeOf path)

/-- Where following a path comes to a stop. -/
inductive Stop where
  | arrived (place : Place) (node : FileNode)
  | failed (failure : FileFailure)
  /-- A link, by the directory that holds it, its target and what is left of the path. -/
  | linked (place : Place) (target : String) (rest : List String)
  deriving DecidableEq, Repr

/-- The greatest number of bytes in a name. -/
def maxName : Nat := 255

/-- The greatest number of bytes in a path. -/
def maxPath : Nat := 4095

/-- The greatest number of links that a path may lead through. -/
def maxLinks : Nat := 40

/-- Follows the parts of a path from a place up to the next link. Every part but the last has to
lead to a directory, and so has the last when a slash or a dot follows it. -/
def walk (t : FileTree) (place : Place) : List String → Stop
  | [] =>
    match t.node? place with
    | some node => .arrived place node
    | none => .failed .missing
  | name :: rest =>
    match t.node? place with
    | some .directory =>
      if name = "" ∨ name = "." then t.walk place rest
      else if name = ".." then t.walk place.dropLast rest
      else if name.utf8ByteSize > maxName then .failed (.unusable "File name too long")
      else
        match t.node? (place ++ [name]) with
        | some (.link target) => .linked place target rest
        | _ => t.walk (place ++ [name]) rest
    | some _ => .failed (.unusable "Not a directory")
    | none => .failed .missing

def origin (path : String) (place : Place) : Place := if Path.isAbsolute path then [] else place

/-- Follows the parts of a path from a place, through no more than `links` links. The target of a
link counts from the directory that holds the link, unless it starts at the root. -/
def follow (t : FileTree) : Nat → Place → List String → Except FileFailure (Place × FileNode)
  | links, place, names =>
    match t.walk place names with
    | .arrived place node => .ok (place, node)
    | .failed failure => .error failure
    | .linked place target rest =>
      match links with
      | 0 => .error (.unusable "Too many levels of symbolic links")
      | links + 1 => t.follow links (origin target place) (Text.segments '/' target ++ rest)

/-- What a path leads to, and where it stands. -/
def find (t : FileTree) (path : String) : Except FileFailure (Place × FileNode) :=
  if path = "" then .error .missing
  else if path.toList.contains '\x00' then .error (.unusable "The path holds a zero byte")
  else if path.utf8ByteSize > maxPath then .error (.unusable "File name too long")
  else t.follow maxLinks (origin path t.start) (Text.segments '/' path)

def read (t : FileTree) (path : String) : Except FileFailure Bytes :=
  match t.find path with
  | .ok (_, .file content) => .ok content
  | .ok _ => .error (.unusable "Is a directory")
  | .error failure => .error failure

/-- The tree as a disk. -/
def fileSystem (t : FileTree) : FileSystem where
  canonicalize path :=
    match t.find path with
    | .ok (place, _) => some (pathOf place)
    | .error _ => none
  read := t.read
  isFile path :=
    match t.read path with
    | .ok _ => true
    | .error _ => false

end FileTree

end ObjectMarkup
