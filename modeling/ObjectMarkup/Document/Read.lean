import ObjectMarkup.Document.Builder

namespace ObjectMarkup

open Markup

namespace Reader

/-- Reads the text of a document, with a way to read the documents it includes. A byte order mark
at its start does not count. -/
def parse (nested : Reader → String → Reading Document) (r : Reader) (source : List Char)
    (location : Option String) : Reading Document := do
  let source := Text.dropMark source
  let b ← deliver (fun b e => Builder.step nested b e) Builder.finished
    (fun _ f => .fail (.markup f)) (signals source) (Builder.start r location)
  .lift id (b.finish (Location.ofOffset source (Text.byteLength source)))

def parseBytes (nested : Reader → String → Reading Document) (r : Reader) (bytes : Bytes)
    (location : Option String) : Reading Document := do
  let source ← .lift .notText (Text.decode bytes)
  r.parse nested source location

/-- Reads the document at a location inside the open ones. `room` bounds the documents that may
still be opened inside one another; it is never used up, as the guard allows fewer. -/
def readNested : Nat → Reader → String → Reading Document
  | 0, _, _ => .fail (.nesting (.tooDeep Guard.maxDepth))
  | room + 1, r, location =>
    .within (some location) do
      let bytes ← .lift .resource (r.environment.documents.load location)
      r.parseBytes (readNested room) bytes (some location)

def read (r : Reader) (location : String) : Reading Document :=
  readNested (Guard.maxDepth + 1) r location

def readBytes (r : Reader) (bytes : Bytes) (location : Option String) : Reading Document :=
  .within location (r.parseBytes (readNested (Guard.maxDepth + 1)) bytes location)

/-- Reads a document from its text. It has no location, so that its includes are found from the
root of the provider and it can hold no relative address. -/
def readText (r : Reader) (source : String) : Reading Document :=
  .within none (r.parse (readNested (Guard.maxDepth + 1)) source.toList none)

end Reader

end ObjectMarkup
