import ObjectMarkup.Binding.Error
import ObjectMarkup.Binding.Field
import ObjectMarkup.Document.Read

namespace ObjectMarkup

/-- The named objects of a document that a field loaded. -/
structure Retained where
  visibility : Visibility
  names : Registry

/-- What filling changes: the session, and the assignments made, in order. -/
structure Progress where
  session : Session
  assignments : List Assignment

abbrev Filling (α : Type) := ExceptT BindError (StateM Progress) α

abbrev Loaded := OrderedMap String Retained

def Progress.note (p : Progress) (a : Assignment) : Progress :=
  { p with assignments := p.assignments ++ [a] }

namespace Binder

def assign (host : Host) (owner field : String) (value : Value) : Filling Unit := do
  let p ← get
  match host.answer p.assignments owner field value with
  | .ok () => set (p.note ⟨owner, field, value, true⟩)
  | .error e =>
    set (p.note ⟨owner, field, value, false⟩)
    throw (.field owner field e)

def lift {α : Type} : Except BindError α → Filling α
  | .ok a => pure a
  | .error e => throw e

def reading {α : Type} (wrap : ReadError → BindError) (r : Reading α) : Filling α := do
  let p ← get
  let (result, session) := r.perform p.session
  set { p with session }
  lift (result.mapError wrap)

def check (owner : BindingClass) (f : FieldBinding) : Except BindError Unit :=
  if f.load.isSome && f.bind.isSome then .error (.conflictingBinding owner.name f.name)
  else if !f.writable then .error (.immutableField owner.name f.name)
  else .ok ()

def localeOf (l : LoadPoint) : Except BindError (Option Locale) :=
  match l.locale with
  | none => .ok none
  | some tag =>
    match Locale.parse tag with
    | .ok locale => .ok (some locale)
    | .error e => .error (.invalidLocale tag e)

/-- The bundle of a document. One that is named must exist. Otherwise it is the bundle with the
name of the class, and where there is none, the bundle of the reader. -/
def resourcesFor (r : Reader) (owner : BindingClass) (l : LoadPoint) (locale : Option Locale) :
    Except BindError (Option Bundle) :=
  let locale := locale.orElse fun _ => r.environment.locale
  match l.resources, r.environment.bundles with
  | some baseName, none => .error (.noBundleLoader baseName)
  | some baseName, some loader =>
    ((loader baseName locale).map some).mapError (.missingResources baseName)
  | none, none => .ok r.resources
  | none, some loader =>
    match loader owner.name locale with
    | .ok bundle => .ok (some bundle)
    | .error e => if e.isNotFound then .ok r.resources else .error (.missingResources owner.name e)

def loadField (r : Reader) (host : Host) (owner : BindingClass) (f : FieldBinding)
    (l : LoadPoint) : Filling Registry := do
  let locale ← lift (localeOf l)
  let resources ← lift (resourcesFor r owner l locale)
  let location := Path.resolve l.document (some owner.location)
  let document ← reading (.load owner.name f.name location)
    ((r.withResources resources).read location)
  assign host owner.name f.name document.root
  return document.names

def loadFields (r : Reader) (host : Host) (owner : BindingClass) (own : Loaded) :
    List FieldBinding → Filling Loaded
  | [] => return own
  | f :: rest =>
    match f.load with
    | none => loadFields r host owner own rest
    | some l => do
      lift (check owner f)
      let names ← loadField r host owner f l
      loadFields r host owner (own.insert f.name ⟨f.visibility, names⟩) rest

/-- The document that a field takes from: one of its own class, or of an earlier class that does not
keep it to itself. Of two documents of one name the later counts. -/
def sourceOf (owner : BindingClass) (f : FieldBinding) (b : BindPoint) (own inherited : Loaded) :
    Except BindError Retained :=
  match own.get? b.property with
  | some retained => .ok retained
  | none =>
    match inherited.get? b.property with
    | some retained =>
      if retained.visibility = .ownClass then
        .error (.inaccessibleProperty owner.name f.name b.property)
      else .ok retained
    | none => .error (.unloadedProperty owner.name f.name b.property)

def takenValue (f : FieldBinding) (b : BindPoint) (source : Retained) : Except BindError Value :=
  let id := b.id.getD f.name
  match source.names.get? id with
  | some value => .ok value
  | none => .error (.missingId b.property id)

def bindFields (host : Host) (owner : BindingClass) (own inherited : Loaded) :
    List FieldBinding → Filling Unit
  | [] => return ()
  | f :: rest =>
    match f.bind with
    | none => bindFields host owner own inherited rest
    | some b => do
      lift (check owner f)
      let source ← lift (sourceOf owner f b own inherited)
      let value ← lift (takenValue f b source)
      assign host owner.name f.name value
      bindFields host owner own inherited rest

/-- Fills classes, after those whose documents are inherited. Of each class, first the fields that
load are filled, then those that take named objects. What was assigned before a failure stays
assigned. -/
def bindClasses (r : Reader) (host : Host) (inherited : Loaded) :
    List BindingClass → Filling Unit
  | [] => return ()
  | owner :: rest => do
    let own ← loadFields r host owner .empty owner.fields
    bindFields host owner own inherited owner.fields
    bindClasses r host (inherited.insertAll own.entries) rest

def bind (r : Reader) (host : Host) : Filling Unit := bindClasses r host .empty host.classes

end Binder

end ObjectMarkup
