import ObjectMarkup.Markup.Reference
import ObjectMarkup.Unicode.WhiteSpace

namespace ObjectMarkup.Markup

open Unicode

/-- An attribute as it is written, with the references in its value resolved. -/
structure RawAttribute where
  key : List Char
  value : List Char
  deriving DecidableEq, Repr

/-- The name of a tag: everything before white space, perhaps nothing. -/
def tagName (content : List Char) : List Char := content.takeWhile fun c => !isMarkupSpace c

def tagRest (content : List Char) : List Char := content.dropWhile fun c => !isMarkupSpace c

def skipSpace (cs : List Char) : List Char := cs.dropWhile isMarkupSpace

def isKeyChar (c : Char) : Bool := c ≠ '=' && !isMarkupSpace c

/-- Splits a key off, which has at least one character, whatever it is. An equals sign must follow,
perhaps after white space. -/
def splitKey : List Char → Except MarkupFault (List Char × List Char)
  | [] => .error .missingEquals
  | c :: cs =>
    match skipSpace (cs.dropWhile isKeyChar) with
    | '=' :: rest => .ok (c :: cs.takeWhile isKeyChar, rest)
    | _ => .error .missingEquals

def splitValue (cs : List Char) : Except MarkupFault (List Char × List Char) :=
  match skipSpace cs with
  | [] => .error .missingValue
  | quote :: rest =>
    if quote = '"' ∨ quote = '\'' then
      match rest.dropWhile (· ≠ quote) with
      | [] => .error .missingQuote
      | _ :: after => .ok (rest.takeWhile (· ≠ quote), after)
    else
      .error .unquotedValue

/-- One attribute of a tag in which the given keys stand before it. -/
def nextAttribute (seen : List (List Char)) (cs : List Char) :
    Except MarkupFault (RawAttribute × List Char) :=
  match splitKey cs with
  | .error e => .error e
  | .ok (key, rest) =>
    if key ∈ seen then .error .duplicatedAttribute
    else
      match splitValue rest with
      | .error e => .error e
      | .ok (raw, rest) => (unescape raw).map fun value => (⟨key, value⟩, rest)

/-- The attributes of a tag in order; `fuel` bounds their number. The first fault decides. -/
def attributesAfter (seen : List (List Char)) :
    Nat → List Char → Except MarkupFault (List RawAttribute)
  | 0, _ => .ok []
  | fuel + 1, cs =>
    match skipSpace cs with
    | [] => .ok []
    | c :: rest =>
      match nextAttribute seen (c :: rest) with
      | .error e => .error e
      | .ok (a, rest) => (attributesAfter (a.key :: seen) fuel rest).map (a :: ·)

def tagAttributes (content : List Char) : Except MarkupFault (List RawAttribute) :=
  attributesAfter [] (content.length + 1) (tagRest content)

end ObjectMarkup.Markup
