import ObjectMarkup.Text.Split

namespace ObjectMarkup.Path

/-- The parts of a location that count: neither empty nor a single dot. -/
def parts (path : String) : List (List Char) :=
  (Text.pieces '/' path.toList).filter fun p => p ≠ [] ∧ p ≠ ['.']

/-- Takes away each double dot together with the part before it; `kept` holds the parts so far, the
last one first. -/
def collapseOnto (kept : List (List Char)) : List (List Char) → List (List Char)
  | [] => kept.reverse
  | p :: rest =>
    if p = ['.', '.'] then collapseOnto (kept.drop 1) rest else collapseOnto (p :: kept) rest

def collapse (ps : List (List Char)) : List (List Char) := collapseOnto [] ps

def isAbsolute (path : String) : Bool := path.toList.head? = some '/'

def ofParts (absolute : Bool) (ps : List (List Char)) : String :=
  String.ofList ((if absolute then ['/'] else []) ++ List.intercalate ['/'] ps)

def normalize (path : String) : String := ofParts (isAbsolute path) (collapse (parts path))

/-- Whether a reference names its place by itself: from the root, or with a scheme. -/
def isSelfContained (href : String) : Bool :=
  isAbsolute href || Text.occursIn "://".toList href.toList

/-- The location that `href` names in the directory of the document at `base`. A base without a
part that counts has no directory, not even the root. -/
def resolve (href : String) (base : Option String) : String :=
  if isSelfContained href then href
  else
    match base with
    | none => normalize href
    | some base =>
      let baseParts := parts base
      ofParts (isAbsolute base && !baseParts.isEmpty)
        (collapse (baseParts.dropLast ++ parts href))

def fileName (path : String) : List Char :=
  match Text.cutLast '/' path.toList with
  | some (_, name) => name
  | none => path.toList

/-- What stands after the last dot of the file name, if anything does. -/
def extension? (path : String) : Option String :=
  match Text.cutLast '.' (fileName path) with
  | some (_, c :: cs) => some (String.ofList (c :: cs))
  | _ => none

def join (root relative : String) : String :=
  match root.toList.getLast? with
  | none => relative
  | some c => if c = '/' then root ++ relative else root ++ "/" ++ relative

/-- Whether a location is a root or lies below it, part by part. -/
def isBelow (root location : String) : Bool := (parts root).isPrefixOf (parts location)

def ofDottedName (name : String) : String := Text.replace '.' '/' name

end ObjectMarkup.Path
