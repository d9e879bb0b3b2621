import ObjectMarkup.Markup.Fault
import ObjectMarkup.Number.Numeral

namespace ObjectMarkup.Markup

/-- The character with a number, if it is a character at all and not the null character. -/
def characterOf? (code : Nat) : Option Char :=
  if h : code.isValidChar then if code = 0 then none else some (Char.ofNatAux code h) else none

/-- The character that a reference names, given what stands between `&` and `;`. -/
def resolveReference (name : List Char) : Except MarkupFault Char :=
  match name with
  | '#' :: 'x' :: digits => numbered (readHex digits)
  | '#' :: digits => numbered (readDigits digits)
  | _ =>
    if name = "lt".toList then .ok '<'
    else if name = "gt".toList then .ok '>'
    else if name = "amp".toList then .ok '&'
    else if name = "apos".toList then .ok '\''
    else if name = "quot".toList then .ok '"'
    else .error .unknownEntity
where
  numbered (code : Option Nat) : Except MarkupFault Char :=
    match code.bind characterOf? with
    | some c => .ok c
    | none => .error .badCharacterReference

/-- What stands before the next semicolon, if no `&` comes first, and what stands after it. -/
def splitReference : List Char → Option (List Char × List Char)
  | [] => none
  | c :: rest =>
    if c = ';' then some ([], rest)
    else if c = '&' then none
    else (splitReference rest).map fun (name, rest) => (c :: name, rest)

/-- The text with its references resolved; `fuel` bounds the characters read. -/
def unescapeWithin : Nat → List Char → Except MarkupFault (List Char)
  | 0, _ => .ok []
  | _ + 1, [] => .ok []
  | fuel + 1, c :: rest =>
    if c = '&' then
      match splitReference rest with
      | none => .error .unterminatedEntity
      | some (name, rest) =>
        match resolveReference name with
        | .error e => .error e
        | .ok d => (unescapeWithin fuel rest).map (d :: ·)
    else
      (unescapeWithin fuel rest).map (c :: ·)

def unescape (cs : List Char) : Except MarkupFault (List Char) := unescapeWithin (cs.length + 1) cs

end ObjectMarkup.Markup
