namespace ObjectMarkup

/-- A fault in the form of a document, before its elements mean anything. -/
inductive MarkupFault where
  /-- A `<` without its `>`. -/
  | unclosedTag
  /-- A tag that ends inside an attribute value between apostrophes. -/
  | unclosedSingleQuote
  /-- A tag that ends inside an attribute value between quotation marks. -/
  | unclosedDoubleQuote
  | unclosedComment
  | unclosedInstruction
  /-- An unfinished instruction for `xml`. -/
  | unclosedDeclaration
  | unclosedLiteral
  | unclosedDoctype
  /-- A `<!` that begins nothing. -/
  | unknownBang
  | missingDoctypeName
  /-- A `&` in text without its semicolon. -/
  | unclosedReference
  /-- A `&` in an attribute value without its semicolon. -/
  | unterminatedEntity
  | unknownEntity
  | badCharacterReference
  | mismatchedEndTag
  | unmatchedEndTag
  /-- An attribute without an equals sign. -/
  | missingEquals
  /-- An attribute without anything after its equals sign. -/
  | missingValue
  /-- An attribute whose value does not begin with a quote. -/
  | unquotedValue
  /-- An attribute whose value has no closing quote. -/
  | missingQuote
  | duplicatedAttribute
  deriving DecidableEq, Repr

def MarkupFault.message : MarkupFault → String
  | .unclosedTag => "Markup error: a tag is not closed"
  | .unclosedSingleQuote => "Markup error: a tag ends between apostrophes"
  | .unclosedDoubleQuote => "Markup error: a tag ends between quotation marks"
  | .unclosedComment => "Markup error: a comment is not closed"
  | .unclosedInstruction => "Markup error: a processing instruction is not closed"
  | .unclosedDeclaration => "Markup error: the declaration is not closed"
  | .unclosedLiteral => "Markup error: a CDATA section is not closed"
  | .unclosedDoctype => "Markup error: the document type is not closed"
  | .unknownBang => "Markup error: nothing begins with these characters"
  | .missingDoctypeName => "Markup error: the document type has no name"
  | .unclosedReference => "Markup error: a reference has no semicolon"
  | .unterminatedEntity => "Malformed escape sequence: a reference has no semicolon"
  | .unknownEntity => "Malformed escape sequence: the entity is not known"
  | .badCharacterReference => "Malformed escape sequence: the reference names no character"
  | .mismatchedEndTag => "Markup error: an end tag closes another element"
  | .unmatchedEndTag => "Markup error: an end tag closes no element"
  | .missingEquals => "Malformed attribute: no equals sign"
  | .missingValue => "Malformed attribute: no value"
  | .unquotedValue => "Malformed attribute: the value has no quotes"
  | .missingQuote => "Malformed attribute: the value has no closing quote"
  | .duplicatedAttribute => "Malformed attribute: the name occurs twice"

end ObjectMarkup
