import ObjectMarkup.Markup.Fault
import ObjectMarkup.Text.Utf8
import ObjectMarkup.Unicode.WhiteSpace

namespace ObjectMarkup.Markup

open Unicode

/-- What a piece of the source is. Tags hold what stands between their brackets. -/
inductive Token where
  | openTag (content : List Char)
  /-- A tag that ends its element at once. -/
  | emptyTag (content : List Char)
  | closeTag (content : List Char)
  | text (content : List Char)
  /-- Text in which nothing is markup. -/
  | literal (content : List Char)
  /-- A reference in text, with its name. -/
  | reference (name : List Char)
  /-- A comment, an instruction, a declaration or a document type. -/
  | skipped
  deriving DecidableEq, Repr

structure Scanned where
  token : Token
  written : List Char
  rest : List Char

def splitAtMark (mark : List Char) : List Char → Option (List Char × List Char)
  | [] => none
  | c :: rest =>
    if mark.isPrefixOf (c :: rest) then some ([], (c :: rest).drop mark.length)
    else (splitAtMark mark rest).map fun (a, b) => (c :: a, b)

/-- Splits at the first `>` that stands outside quotes; `quote` is the quote that is open. -/
def splitTag : Option Char → List Char → Except MarkupFault (List Char × List Char)
  | none, [] => .error .unclosedTag
  | some q, [] => .error (if q = '"' then .unclosedDoubleQuote else .unclosedSingleQuote)
  | none, c :: rest =>
    if c = '>' then .ok ([], rest)
    else
      (splitTag (if c = '"' ∨ c = '\'' then some c else none) rest).map fun (a, b) => (c :: a, b)
  | some q, c :: rest =>
    (splitTag (if c = q then none else some q) rest).map fun (a, b) => (c :: a, b)

/-- Where the scan of a document type stands. -/
inductive DoctypePart where
  /-- Before the inner declarations, perhaps inside a quote. -/
  | head (quote : Option Char)
  /-- Among the inner declarations. -/
  | inner
  /-- Inside an inner declaration that ends at the next `>`. -/
  | plain
  /-- Inside an inner declaration that may have quotes, perhaps inside one. -/
  | declaration (quote : Option Char)
  /-- Inside a comment, of whose opening some characters are still to come. -/
  | comment (opening : Nat)
  /-- Inside an instruction, of whose opening some characters are still to come. -/
  | instruction (opening : Nat)
  /-- After the inner declarations. -/
  | tail

def toggleQuote (quote : Option Char) (c : Char) : Option Char :=
  match quote with
  | some q => if c = q then none else some q
  | none => if c = '"' ∨ c = '\'' then some c else none

/-- What the inner declarations begin with in which quotes count. -/
def quotedDeclarations : List String := ["!ENTITY", "!ATTLIST", "!NOTATION"]

/-- What begins at a `<` among the inner declarations, given what follows it. No character of an
opening counts for the end, so neither `<!-->` nor `<?>` is over. -/
def DoctypePart.begun (ahead : List Char) : DoctypePart :=
  if "!--".toList.isPrefixOf ahead then .comment 3
  else if "?".toList.isPrefixOf ahead then .instruction 1
  else if quotedDeclarations.any fun word => word.toList.isPrefixOf ahead then .declaration none
  else .plain

/-- Where the scan stands after one more character, given what follows it; `none` at the end. -/
def DoctypePart.next (part : DoctypePart) (c : Char) (ahead : List Char) : Option DoctypePart :=
  match part with
  | .head quote =>
    if quote = none ∧ c = '>' then none
    else if quote = none ∧ c = '[' then some .inner
    else some (.head (toggleQuote quote c))
  | .inner => some (if c = ']' then .tail else if c = '<' then begun ahead else .inner)
  | .plain => some (if c = '>' then .inner else .plain)
  | .declaration quote =>
    some (if quote = none ∧ c = '>' then .inner else .declaration (toggleQuote quote c))
  | .comment (n + 1) => some (.comment n)
  | .comment 0 => some (if "-->".toList.isPrefixOf (c :: ahead) then .plain else .comment 0)
  | .instruction (n + 1) => some (.instruction n)
  | .instruction 0 => some (if "?>".toList.isPrefixOf (c :: ahead) then .plain else .instruction 0)
  | .tail => if c = '>' then none else some .tail

def splitDoctype (part : DoctypePart) : List Char → Option (List Char × List Char)
  | [] => none
  | c :: rest =>
    match part.next c rest with
    | none => some ([], rest)
    | some part => (splitDoctype part rest).map fun (a, b) => (c :: a, b)

/-- Text without white space at its end, unless it is nothing else. -/
def trimTagEnd (cs : List Char) : List Char :=
  let trimmed := (cs.reverse.dropWhile isMarkupSpace).reverse
  if trimmed.isEmpty then cs else trimmed

def scanTag (cs : List Char) : Except MarkupFault Scanned :=
  (splitTag none cs).map fun (content, rest) =>
    let token := match content with
      | '/' :: name => .closeTag (trimTagEnd name)
      | _ => if content.getLast? = some '/' then .emptyTag content.dropLast else .openTag content
    ⟨token, '<' :: content ++ ['>'], rest⟩

def scanComment (cs : List Char) : Except MarkupFault Scanned :=
  match splitAtMark "-->".toList cs with
  | some (content, rest) => .ok ⟨.skipped, "<!--".toList ++ content ++ "-->".toList, rest⟩
  | none => .error .unclosedComment

def scanLiteral (cs : List Char) : Except MarkupFault Scanned :=
  match splitAtMark "]]>".toList cs with
  | some (content, rest) =>
    .ok ⟨.literal content, "<![CDATA[".toList ++ content ++ "]]>".toList, rest⟩
  | none => .error .unclosedLiteral

/-- A document type, after its `<!`. Its keyword counts in any case of letters, and something must
follow the keyword. -/
def scanDoctype (cs : List Char) : Except MarkupFault Scanned :=
  match splitDoctype (.head none) cs with
  | none => .error .unclosedDoctype
  | some (content, rest) =>
    if (content.take 7).map Char.toUpper ≠ "DOCTYPE".toList then .error .unclosedDoctype
    else if (content.drop 7).all isMarkupSpace then .error .missingDoctypeName
    else .ok ⟨.skipped, "<!".toList ++ content ++ ['>'], rest⟩

def scanBang (cs : List Char) : Except MarkupFault Scanned :=
  match cs with
  | '[' :: _ =>
    if "[CDATA[".toList.isPrefixOf cs then scanLiteral (cs.drop 7) else .error .unclosedLiteral
  | '-' :: _ =>
    if "--".toList.isPrefixOf cs then scanComment (cs.drop 2) else .error .unclosedComment
  | 'D' :: _ => scanDoctype cs
  | 'd' :: _ => scanDoctype cs
  | _ => .error .unknownBang

/-- An instruction, after its `<`. Its two question marks are different ones. -/
def scanInstruction (cs : List Char) : Except MarkupFault Scanned :=
  match splitAtMark "?>".toList cs with
  | some ([], _) => .error .unclosedInstruction
  | some (content, rest) => .ok ⟨.skipped, '<' :: content ++ "?>".toList, rest⟩
  | none =>
    let target := cs.drop 4
    if "?xml".toList.isPrefixOf cs &&
        (target.isEmpty || target.head?.any fun c => isMarkupSpace c || c == '?') then
      .error .unclosedDeclaration
    else
      .error .unclosedInstruction

def scanReference (cs : List Char) : Except MarkupFault Scanned :=
  let name := cs.takeWhile fun c => c ≠ ';' ∧ c ≠ '&' ∧ c ≠ '<'
  match cs.drop name.length with
  | ';' :: rest => .ok ⟨.reference name, '&' :: name ++ [';'], rest⟩
  | _ => .error .unclosedReference

def isPlain (c : Char) : Bool := c ≠ '<' && c ≠ '&'

def scanToken (cs : List Char) : Except MarkupFault Scanned :=
  match cs with
  | '<' :: '!' :: rest => scanBang rest
  | '<' :: '?' :: rest => scanInstruction ('?' :: rest)
  | '<' :: rest => scanTag rest
  | '&' :: rest => scanReference rest
  | _ =>
    let content := cs.takeWhile isPlain
    .ok ⟨.text content, content, cs.dropWhile isPlain⟩

/-- A token with the byte offset at which it is written. The pieces of a scan leave nothing out, so
that is the length of the pieces before it. -/
structure Placed where
  token : Token
  offset : Nat
  deriving DecidableEq, Repr

/-- The tokens of a source up to its end or its first fault. -/
structure Scan where
  tokens : List Placed
  fault : Option MarkupFault
  deriving DecidableEq, Repr

/-- Scans from an offset on; `fuel` bounds the tokens read. -/
def scanFrom : Nat → Nat → List Char → Scan
  | 0, _, _ => ⟨[], none⟩
  | _ + 1, _, [] => ⟨[], none⟩
  | fuel + 1, offset, c :: rest =>
    match scanToken (c :: rest) with
    | .error fault => ⟨[], some fault⟩
    | .ok s =>
      let after := scanFrom fuel (offset + Text.byteLength s.written) s.rest
      ⟨⟨s.token, offset⟩ :: after.tokens, after.fault⟩

/-- The tokens of a source. A byte order mark at its start does not count, not even in offsets. -/
def scan (source : List Char) : Scan :=
  let cs := Text.dropMark source
  scanFrom (cs.length + 1) 0 cs

end ObjectMarkup.Markup
