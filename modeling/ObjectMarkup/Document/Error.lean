import ObjectMarkup.Location
import ObjectMarkup.Markup.Fault
import ObjectMarkup.Resolution
import ObjectMarkup.Script
import ObjectMarkup.Types

namespace ObjectMarkup

/-- A document whose elements do not fit together. Elements and attributes are told by their names
as written, objects by the names of their types. -/
inductive StructureFault where
  /-- An end without an open element. -/
  | unbalancedEnd
  /-- The end of the document inside an element. -/
  | unfinished (element : String)
  | noRoot
  | unknownControlTag (element : String)
  | unknownControlAttribute (key : String)
  /-- An element for an object whose type has no namespace. -/
  | noNamespace (element : String)
  /-- A property element outside the elements of objects. -/
  | propertyOutsideObject (element : String)
  /-- A composite property whose object is missing. -/
  | missingComposite (property typeName : String)
  /-- Attributes on an element that assigns a property. -/
  | attributesOnAssignment (element : String)
  /-- A property element that ends where no object encloses it. -/
  | noEnclosingObject (element : String)
  | includeWithoutSource (element : String)
  | scriptWithId (element : String)
  | unknownScriptAttribute (key element : String)
  | scriptWithoutLanguage (element : String)
  | childOfScript
  /-- A child of an element that stands for null. -/
  | childOfNull (element : String)
  /-- A child of an object that collects none. -/
  | childOfPlainObject (typeName : String)
  /-- Attributes on an element that stands for null. -/
  | attributesOfNull (element : String)
  /-- An attached property without an owner in its name. -/
  | attachedWithoutOwner (key : String)
  | attachedWithoutNamespace (key : String)
  deriving DecidableEq, Repr

def StructureFault.message : StructureFault → String
  | .unbalancedEnd => "Unbalanced end tag"
  | .unfinished element => s!"Unexpected end of document inside <{element}>"
  | .noRoot => "Document has no root element"
  | .unknownControlTag element => s!"Unknown control tag <{element}>"
  | .unknownControlAttribute key => s!"Unknown control attribute '{key}'"
  | .noNamespace element => s!"Typed element <{element}> has no namespace"
  | .propertyOutsideObject element =>
    s!"Property element <{element}> must be nested in an object element"
  | .missingComposite property typeName =>
    s!"Read-only property '{property}' of '{typeName}' is null"
  | .attributesOnAssignment element =>
    s!"Writable property element <{element}> cannot have attributes"
  | .noEnclosingObject element => s!"Property element <{element}> has no enclosing object"
  | .includeWithoutSource element => s!"<{element}> requires a 'src' attribute"
  | .scriptWithId element => s!"<{element}> cannot declare an id"
  | .unknownScriptAttribute key element =>
    s!"Unknown attribute '{key}' on <{element}>"
  | .scriptWithoutLanguage element => s!"Inline <{element}> requires a 'language' attribute"
  | .childOfScript => "Objects cannot be nested in a script element"
  | .childOfNull element => s!"<{element}> has no object to add children to"
  | .childOfPlainObject typeName => s!"'{typeName}' cannot contain child objects"
  | .attributesOfNull element => s!"Attributes of <{element}> cannot be applied to a null value"
  | .attachedWithoutOwner key =>
    s!"Attached property '{key}' must be written as Owner.property"
  | .attachedWithoutNamespace key => s!"Attached property '{key}' has no namespace"

inductive NestingError where
  /-- A document inside itself: the documents from the outermost to the one that recurs. -/
  | cyclic (chain : List String)
  /-- Too many documents inside one another. -/
  | tooDeep (limit : Nat)
  deriving DecidableEq, Repr

def NestingError.message : NestingError → String
  | .cyclic chain => "Circular include detected: " ++ Text.join " -> " chain
  | .tooDeep limit => s!"Include depth limit ({limit}) exceeded"

inductive ReadError where
  | markup (fault : MarkupFault)
  /-- Bytes that are no text; so many of them at the start are. -/
  | notText (validUpTo : Nat)
  | malformed (fault : StructureFault) (location : Location)
  | instantiation (e : InstantiationError)
  | unknownAttached (owner name : String)
  | reference (e : ReferenceError)
  | noBundleLoader (baseName : String)
  /-- A listener that no name is bound to. -/
  | unknownId (id : String)
  /-- A listener that is no object. -/
  | notAListener (id found : String)
  | noScriptEngine (key : String)
  | nesting (e : NestingError)
  /-- An error in an included document. -/
  | included (source : String) (cause : ReadError)
  | property (e : PropertyError)
  | resource (e : ResourceError)
  | script (e : ScriptError)
  deriving DecidableEq, Repr

namespace ReadError

/-- The error itself, without the inclusions it came through. -/
def rootCause : ReadError → ReadError
  | .included _ cause => cause.rootCause
  | e => e

def message : ReadError → String
  | .markup fault => fault.message
  | .notText n => s!"UTF-8 error after {n} bytes"
  | .malformed fault location =>
    s!"Document structure error at {location.display}: {fault.message}"
  | .instantiation (.unknownType typeName) => s!"Unknown type '{typeName}'"
  | .instantiation (.notInstantiable typeName reason) =>
    s!"Type '{typeName}' cannot be instantiated: {reason}"
  | .unknownAttached owner name => s!"Unknown attached property '{name}' on '{owner}'"
  | .reference e => e.message
  | .noBundleLoader baseName =>
    s!"Resource bundle '{baseName}' requested but no bundle loader is configured"
  | .unknownId id => s!"'{id}' is not a valid ID value"
  | .notAListener id found => s!"'{id}' is not a listener: {found}"
  | .noScriptEngine key => s!"No script engine for '{key}'"
  | .nesting e => e.message
  | .included source cause => s!"Include of '{source}' failed: {cause.message}"
  | .property e => s!"Property error: {e.message}"
  | .resource e => s!"Resource error: {e.message}"
  | .script e => s!"Script error: {e.message}"

end ReadError

end ObjectMarkup
