import ObjectMarkup.Document.Element
import ObjectMarkup.Document.Reader
import ObjectMarkup.Markup.Event

namespace ObjectMarkup

open Markup

/-- A document in the making: the open elements, the innermost first, and the root once the
outermost element has closed. An element with an upper-case name makes an object when it opens; when
it closes, its attributes are applied, its name is bound, and it joins the object around it. Other
elements stand for properties of that object. -/
structure Builder where
  reader : Reader
  location : Option String
  names : Registry
  stack : List Element
  root : Option Value

namespace Builder

def start (reader : Reader) (location : Option String) : Builder :=
  ⟨reader, location, .empty, [], none⟩

def context (b : Builder) : Context := ⟨b.location, b.reader.resources, b.names⟩

def push (b : Builder) (e : Element) : Builder := { b with stack := e :: b.stack }

def openObject (b : Builder) (name : QualifiedName) (closing : Closing) (location : Location) :
    Reading Builder :=
  match name.space with
  | none => .fail (.malformed (.noNamespace name.display) location)
  | some space => do
    let blueprint ← .lift .instantiation (b.reader.environment.types.blueprint space name.localName)
    let object ← .build blueprint
    return b.push ⟨name, location, .created object closing⟩

/-- The kind of a property of an object, where its type declares it. -/
def propertyKind? (o : Object) (name : String) : Option PropertyKind :=
  (o.access?.bind fun a => a.descriptor? name).map PropertyDescriptor.kind

def openProperty (b : Builder) (name : QualifiedName) (closing : Closing) (location : Location) :
    Reading Builder :=
  match b.stack.head?.bind Element.holder? with
  | none => .fail (.malformed (.propertyOutsideObject name.display) location)
  | some id => do
    let o := (← .heap).object id
    let inPlace :=
      match propertyKind? o name.localName with
      | some .composite => true
      | some .listenerList => true
      | _ => false
    if inPlace then
      match (o.access?.bind fun a => a.get? name.localName).bind Value.object? with
      | some part => return b.push ⟨name, location, .composite part closing⟩
      | none => .fail (.malformed (.missingComposite name.localName o.typeName) location)
    else if closing.id.isSome || !closing.attributes.isEmpty then
      .fail (.malformed (.attributesOnAssignment name.display) location)
    else
      return b.push ⟨name, location, .assignment .null⟩

/-- Opens an element that includes another document, which is read at once. -/
def openInclude (nested : Reader → String → Reading Document) (b : Builder)
    (name : QualifiedName) (closing : Closing) (location : Location) : Reading Builder :=
  match plainValue? closing.attributes "src" with
  | none => .fail (.malformed (.includeWithoutSource name.display) location)
  | some source => do
    let path := Path.resolve source b.location
    let reader ←
      match plainValue? closing.attributes "resources" with
      | none => pure b.reader
      | some baseName => do
        let bundle ← .lift id (b.reader.loadBundle baseName none)
        pure (b.reader.withResources (some bundle))
    let document ← (nested reader path).mapError fun e =>
      match e with
      | .nesting e => .nesting e
      | e => .included path e
    let own := closing.attributes.filter fun a => !a.isPlain "src" && !a.isPlain "resources"
    return b.push ⟨name, location, .included document.root document.names ⟨closing.id, own⟩⟩

def runScript (b : Builder) (key script : String) : Reading Builder :=
  match b.reader.environment.engines.find? key with
  | none => .fail (.noScriptEngine key)
  | some engine => do
    let names ← .lift .script (engine.run script b.names)
    return { b with names }

def runScriptFile (b : Builder) (source : String) (language : Option String) : Reading Builder := do
  let path := Path.resolve source b.location
  let key ←
    match language.orElse fun _ => Path.extension? path with
    | some key => pure key
    | none => .fail (.noScriptEngine path)
  let bytes ← .lift .resource (b.reader.environment.documents.load path)
  let body ← .lift .notText (Text.decode bytes)
  b.runScript key (String.ofList body)

/-- Opens the element of a script. A script in a file is run at once. -/
def openScript (b : Builder) (name : QualifiedName) (closing : Closing) (location : Location) :
    Reading Builder :=
  if closing.id.isSome then .fail (.malformed (.scriptWithId name.display) location)
  else
    match closing.attributes.find? fun a => !a.isPlain "src" && !a.isPlain "language" with
    | some a =>
      .fail (.malformed (.unknownScriptAttribute a.name.display name.display) location)
    | none =>
      let language := plainValue? closing.attributes "language"
      match plainValue? closing.attributes "src" with
      | some source => do
        let b ← b.runScriptFile source language
        return b.push ⟨name, location, .script none⟩
      | none =>
        match language with
        | some language => return b.push ⟨name, location, .script (some ⟨language, ""⟩)⟩
        | none => .fail (.malformed (.scriptWithoutLanguage name.display) location)

def opened (nested : Reader → String → Reading Document) (b : Builder) (name : QualifiedName)
    (attributes : List Attribute) (location : Location) : Reading Builder := do
  let (id, own) ← .lift (fun f => .malformed f location) (takeId attributes)
  let closing : Closing := ⟨id, own⟩
  if name.isIn controlQualifier then
    if name.localName = "include" then b.openInclude nested name closing location
    else if name.localName = "script" then b.openScript name closing location
    else .fail (.malformed (.unknownControlTag name.display) location)
  else if Unicode.startsUppercase name.localName then b.openObject name closing location
  else b.openProperty name closing location

/-- The names in a list of listeners: between commas, without space around them, and not empty. -/
def listenerIds (raw : String) : List String :=
  ((Text.segments ',' raw).map Text.trimmed).filter fun id => id ≠ ""

def addListener (names : Registry) (property : String) (list : ObjectId) (id : String) :
    Reading Unit := do
  let heap ← .heap
  match names.get? id with
  | none => .fail (.unknownId id)
  | some (.object listener) =>
    match heap.addListener? list listener with
    | some heap => .setHeap heap
    | none => .fail (.property (.typeMismatch property "listener list" (heap.typeName list)))
  | some other => .fail (.notAListener id (heap.label other))

/-- Adds the objects with the given names to a list of listeners, up to the first name that stands
for none. -/
def addListeners (names : Registry) (property : String) (list : ObjectId) :
    List String → Reading Unit
  | [] => pure ()
  | id :: rest => do
    addListener names property list id
    addListeners names property list rest

/-- Applies an attribute that sets a property of the object itself. -/
def applyProperty (c : Context) (id : ObjectId) (a : Attribute) : Reading Unit := do
  let name := a.name.localName
  let o := (← .heap).object id
  match o.access? with
  | none => .fail (.property (.unsupported o.typeName))
  | some access =>
    let descriptor := access.descriptor? name
    match descriptor.map PropertyDescriptor.kind with
    | some .listenerList =>
      match (access.get? name).bind Value.object? with
      | none => .fail (.property (.null name))
      | some list => addListeners c.names name list (listenerIds a.value)
    | some .composite => .fail (.property (.readOnly o.typeName name))
    | _ =>
      let value ← .lift .reference (c.resolve a.value (descriptor.map PropertyDescriptor.type))
      .put id name value

/-- Applies an attribute that sets a property attached to the object. Its owner is in the namespace
of the attribute, or else in that of the element. -/
def applyAttached (b : Builder) (element : Element) (id : ObjectId) (a : Attribute) :
    Reading Unit :=
  match ownerAndProperty? a.name.localName with
  | none => .fail (.malformed (.attachedWithoutOwner a.name.display) element.location)
  | some (owner, property) =>
    match a.name.space.orElse fun _ => element.name.space with
    | none => .fail (.malformed (.attachedWithoutNamespace a.name.display) element.location)
    | some space =>
      let owner := qualifiedName space owner
      match b.reader.environment.types.attached? owner property with
      | none => .fail (.unknownAttached owner property)
      | some attached => do
        let value ← .lift .reference (b.context.resolve a.value (some attached.descriptor.type))
        let s ← get
        let log ← .lift .property (attached.set owner (s.heap.label value) id value s.attached)
        set { s with attached := log }

/-- Applies an attribute. One with an upper-case name sets an attached property. -/
def applyAttribute (b : Builder) (element : Element) (id : ObjectId) (a : Attribute) :
    Reading Unit :=
  if Unicode.startsUppercase a.name.localName then b.applyAttached element id a
  else applyProperty b.context id a

def applyAll (b : Builder) (element : Element) (id : ObjectId) : List Attribute → Reading Unit
  | [] => pure ()
  | a :: rest => do
    b.applyAttribute element id a
    b.applyAll element id rest

/-- Applies the attributes of an element to the object it stands for. -/
def applyAttributes (b : Builder) (element : Element) (attributes : List Attribute) :
    Reading Unit :=
  if attributes.isEmpty then pure ()
  else
    match element.value.object? with
    | none => .fail (.malformed (.attributesOfNull element.name.display) element.location)
    | some id => b.applyAll element id attributes

def joinObject (parent : Element) (value : Value) (location : Location) : Reading Unit :=
  match parent.value.object? with
  | none => .fail (.malformed (.childOfNull parent.name.display) location)
  | some id => do
    let heap ← .heap
    match heap.addItem? id value with
    | some added => .setHeap (← .lift .property added)
    | none =>
      match (heap.object id).listeners, value with
      | some _, .object listener => .setHeap ((heap.addListener? id listener).getD heap)
      | some _, _ => .fail (.notAListener parent.name.display (heap.label value))
      | none, _ => .fail (.malformed (.childOfPlainObject (heap.typeName id)) location)

def join (b : Builder) (value : Value) (location : Location) : Reading Builder :=
  match b.stack with
  | [] => return b
  | parent :: rest =>
    match parent.content with
    | .assignment _ =>
      return { b with stack := { parent with content := .assignment value } :: rest }
    | .script _ => .fail (.malformed .childOfScript location)
    | _ => do
      joinObject parent value location
      return b

/-- Binds the name of a closed element, with the named objects of an included document. -/
def bindName (b : Builder) (id : Option String) (value : Value) (names : Option Registry) :
    Builder :=
  match id with
  | none => b
  | some id =>
    match names with
    | none => { b with names := b.names.put id value }
    | some names => { b with names := b.names.bindInclude id value names }

/-- Assigns the value of a property element to the object around it. Text is read as a literal of
the property's type. -/
def closeAssignment (b : Builder) (element : Element) (value : Value) : Reading Builder :=
  match b.stack.head?.bind fun parent => parent.value.object? with
  | none => .fail (.malformed (.noEnclosingObject element.name.display) element.location)
  | some id => do
    let name := element.name.localName
    let o := (← .heap).object id
    match o.access? with
    | none => .fail (.property (.unsupported o.typeName))
    | some access =>
      match access.descriptor? name with
      | none =>
        .put id name value
        return b
      | some d =>
        if d.kind ≠ .writable then .fail (.property (.readOnly o.typeName name))
        else
          .put id name (match value with
            | .string text => coerce text d.type
            | v => v)
          return b

/-- Notes the value of a closed element as the root if it was the outermost one. -/
def rooted (b : Builder) (value : Value) : Builder :=
  if b.stack.isEmpty then { b with root := some value } else b

def closed (b : Builder) (location : Location) : Reading Builder :=
  match b.stack with
  | [] => .fail (.malformed .unbalancedEnd location)
  | element :: rest =>
    let b := { b with stack := rest }
    match element.content with
    | .assignment value => b.closeAssignment element value
    | .script none => return b.rooted .null
    | .script (some s) => do
      let b ← b.runScript s.language s.body
      return b.rooted .null
    | .created object closing => do
      b.applyAttributes element closing.attributes
      let b := b.bindName closing.id (.object object) none
      let b ← b.join (.object object) element.location
      return b.rooted (.object object)
    | .included root names closing => do
      b.applyAttributes element closing.attributes
      let b := b.bindName closing.id root (some names)
      let b ← b.join root element.location
      return b.rooted root
    | .composite object closing => do
      b.applyAttributes element closing.attributes
      let b := b.bindName closing.id (.object object) none
      return b.rooted (.object object)

/-- Takes text. It becomes the body of a script, the value of a property or an item of the object
around it; elsewhere, and where it is blank outside scripts, it does not count. -/
def text (b : Builder) (content : String) : Reading Builder :=
  match b.stack with
  | [] => return b
  | element :: rest =>
    match element.content with
    | .script inline =>
      let inline := inline.map fun s => { s with body := s.body ++ content }
      return { b with stack := { element with content := .script inline } :: rest }
    | .assignment _ =>
      if Text.isBlank content.toList then return b
      else
        return { b with
          stack := { element with content := .assignment (.string content) } :: rest }
    | .created object _ =>
      if Text.isBlank content.toList then return b
      else do
        match (← .heap).addItem? object (.string content) with
        | some added =>
          .setHeap (← .lift .property added)
          return b
        | none => return b
    | _ => return b

def step (nested : Reader → String → Reading Document) (b : Builder) : Event → Reading Builder
  | .opened name attributes location => b.opened nested name attributes location
  | .closed location => b.closed location
  | .text content _ => b.text content

/-- Whether the root is complete, so that nothing more is read. -/
def finished (b : Builder) : Bool := b.root.isSome

def finish (b : Builder) (ending : Location) : Except ReadError Document :=
  match b.stack with
  | element :: _ => .error (.malformed (.unfinished element.name.display) ending)
  | [] =>
    match b.root with
    | none => .error (.malformed .noRoot ending)
    | some root => .ok ⟨root, b.names, b.location⟩

end Builder

end ObjectMarkup
