import ObjectMarkup.Binding.Binder
import ObjectMarkup.Proofs.Reading.Outcome

namespace ObjectMarkup

inductive Task where
  /-- Its document is loaded. -/
  | load (point : LoadPoint)
  /-- A named object is taken. -/
  | take (point : BindPoint)
  deriving DecidableEq, Repr

/-- The turn of a field: the place of its class among the classes of the host, the class, the field,
and what is done. -/
structure Turn where
  rank : Nat
  owner : BindingClass
  field : FieldBinding
  task : Task
  deriving DecidableEq, Repr

/-- The names of a document, with the field that has loaded it and the place of its class. -/
structure LoadedDocument where
  rank : Nat
  field : FieldBinding
  names : Registry

def LoadedDocument.retained (d : LoadedDocument) : Retained := ⟨d.field.visibility, d.names⟩

/-- The document that was loaded last into a field of the given name. -/
def lastLoaded? (property : String) (docs : List LoadedDocument) : Option LoadedDocument :=
  (docs.filter fun d => d.field.name = property).getLast?

theorem lastLoaded?_append (property : String) (docs more : List LoadedDocument) :
    lastLoaded? property (docs ++ more) =
      (lastLoaded? property more).or (lastLoaded? property docs) := by
  rw [lastLoaded?, List.filter_append, List.getLast?_append]
  rfl

namespace Filling

variable {α β : Type} {p q : Progress} {e : BindError}

theorem run_bind (x : Filling α) (f : α → Filling β) (p : Progress) :
    (x >>= f).run p =
      match x.run p with
      | (.ok a, q) => (f a).run q
      | (.error e, q) => (.error e, q) := by
  change (ExceptT.bind x f).run p = _
  simp only [ExceptT.bind, ExceptT.mk, ExceptT.run, bind, StateT.bind]
  rcases x p with ⟨a | e, q⟩ <;> rfl

@[simp] theorem run_pure (a : α) (p : Progress) : (pure a : Filling α).run p = (.ok a, p) := rfl

@[simp] theorem run_lift (x : Except BindError α) (p : Progress) :
    (Binder.lift x).run p = (x, p) := by
  cases x <;> rfl

theorem run_reading_ok {wrap : ReadError → BindError} {x : Reading α} {p : Progress} {a : α}
    {s : Session} (h : x.perform p.session = (.ok a, s)) :
    (Binder.reading wrap x).run p = (.ok a, { p with session := s }) := by
  change (Binder.lift ((x.perform p.session).1.mapError wrap)).run
    { p with session := (x.perform p.session).2 } = _
  rw [run_lift, h]
  rfl

theorem run_reading_error {wrap : ReadError → BindError} {x : Reading α} {p : Progress}
    {e : ReadError} {s : Session} (h : x.perform p.session = (.error e, s)) :
    (Binder.reading wrap x).run p = (.error (wrap e), { p with session := s }) := by
  change (Binder.lift ((x.perform p.session).1.mapError wrap)).run
    { p with session := (x.perform p.session).2 } = _
  rw [run_lift, h]
  rfl

theorem run_assign (host : Host) (owner field : String) (value : Value) (p : Progress) :
    (Binder.assign host owner field value).run p =
      match host.answer p.assignments owner field value with
      | .ok () => (.ok (), p.note ⟨owner, field, value, true⟩)
      | .error e => (.error (.field owner field e), p.note ⟨owner, field, value, false⟩) := by
  change (match host.answer p.assignments owner field value with
    | .ok () => set (p.note ⟨owner, field, value, true⟩)
    | .error e => do
      set (p.note ⟨owner, field, value, false⟩)
      throw (.field owner field e) : Filling Unit).run p = _
  cases host.answer p.assignments owner field value <;> rfl

end Filling

namespace Turn

/-- The document that a field takes from: the one that was loaded last into the property, be it by
its own class or by one before it. A class before it may keep the document to itself. -/
def source (t : Turn) (b : BindPoint) (docs : List LoadedDocument) :
    Except BindError LoadedDocument :=
  match lastLoaded? b.property docs with
  | none => .error (.unloadedProperty t.owner.name t.field.name b.property)
  | some d =>
    if d.rank ≠ t.rank ∧ d.field.visibility = .ownClass then
      .error (.inaccessibleProperty t.owner.name t.field.name b.property)
    else .ok d

/-- Fills the field in its turn, and adds the document that it loads to those loaded before. -/
def fill (r : Reader) (host : Host) (docs : List LoadedDocument) (t : Turn) :
    Filling (List LoadedDocument) := do
  Binder.lift (Binder.check t.owner t.field)
  match t.task with
  | .load l => do
    let names ← Binder.loadField r host t.owner t.field l
    return docs ++ [⟨t.rank, t.field, names⟩]
  | .take b => do
    let source ← Binder.lift (t.source b docs)
    let value ← Binder.lift (Binder.takenValue t.field b source.retained)
    Binder.assign host t.owner.name t.field.name value
    return docs

/-- What a field is to get in its turn, with the documents and the session thereafter: the root of its
document, read at its place below the class with the bundle for the field, or the object that a loaded
document has under the id of the field. -/
inductive Finds (r : Reader) (docs : List LoadedDocument) (s : Session) :
    Turn → Value → List LoadedDocument → Session → Prop
  | load {rank : Nat} {owner : BindingClass} {field : FieldBinding} {l : LoadPoint}
      {locale : Option Locale} {resources : Option Bundle} {document : Document} {s' : Session}
      (localized : Binder.localeOf l = .ok locale)
      (supplied : Binder.resourcesFor r owner l locale = .ok resources)
      (read : ((r.withResources resources).read
        (Path.resolve l.document (some owner.location))).perform s = (.ok document, s')) :
      Finds r docs s ⟨rank, owner, field, .load l⟩ document.root
        (docs ++ [⟨rank, field, document.names⟩]) s'
  | take {rank : Nat} {owner : BindingClass} {field : FieldBinding} {b : BindPoint}
      {source : LoadedDocument} {value : Value}
      (selected : Turn.source ⟨rank, owner, field, .take b⟩ b docs = .ok source)
      (named : source.names.get? (b.id.getD field.name) = some value) :
      Finds r docs s ⟨rank, owner, field, .take b⟩ value docs s

/-- A turn that succeeds: the field may be filled, and takes the value that is found for it. -/
inductive Fills (r : Reader) (host : Host) (docs : List LoadedDocument) (p : Progress) (t : Turn) :
    List LoadedDocument → Progress → Prop
  | intro {value : Value} {docs' : List LoadedDocument} {s : Session}
      (checked : Binder.check t.owner t.field = .ok ())
      (found : t.Finds r docs p.session value docs' s)
      (accepted : host.answer p.assignments t.owner.name t.field.name value = .ok ()) :
      Fills r host docs p t docs'
        ⟨s, p.assignments ++ [⟨t.owner.name, t.field.name, value, true⟩]⟩

/-- A turn that fails, with its error and what it has changed. Only a field that refuses its value is
assigned one. -/
inductive Fails (r : Reader) (host : Host) (docs : List LoadedDocument) (p : Progress) :
    Turn → BindError → Progress → Prop
  | check {t : Turn} {e : BindError} (refused : Binder.check t.owner t.field = .error e) :
      Fails r host docs p t e p
  | locale {rank : Nat} {owner : BindingClass} {field : FieldBinding} {l : LoadPoint} {e : BindError}
      (checked : Binder.check owner field = .ok ()) (unknown : Binder.localeOf l = .error e) :
      Fails r host docs p ⟨rank, owner, field, .load l⟩ e p
  | resources {rank : Nat} {owner : BindingClass} {field : FieldBinding} {l : LoadPoint}
      {locale : Option Locale} {e : BindError}
      (checked : Binder.check owner field = .ok ()) (localized : Binder.localeOf l = .ok locale)
      (missing : Binder.resourcesFor r owner l locale = .error e) :
      Fails r host docs p ⟨rank, owner, field, .load l⟩ e p
  | read {rank : Nat} {owner : BindingClass} {field : FieldBinding} {l : LoadPoint}
      {locale : Option Locale} {resources : Option Bundle} {cause : ReadError} {s : Session}
      (checked : Binder.check owner field = .ok ()) (localized : Binder.localeOf l = .ok locale)
      (supplied : Binder.resourcesFor r owner l locale = .ok resources)
      (unread : ((r.withResources resources).read
        (Path.resolve l.document (some owner.location))).perform p.session = (.error cause, s)) :
      Fails r host docs p ⟨rank, owner, field, .load l⟩
        (.load owner.name field.name (Path.resolve l.document (some owner.location)) cause)
        { p with session := s }
  | source {rank : Nat} {owner : BindingClass} {field : FieldBinding} {b : BindPoint}
      {e : BindError} (checked : Binder.check owner field = .ok ())
      (unselected : Turn.source ⟨rank, owner, field, .take b⟩ b docs = .error e) :
      Fails r host docs p ⟨rank, owner, field, .take b⟩ e p
  | name {rank : Nat} {owner : BindingClass} {field : FieldBinding} {b : BindPoint}
      {source : LoadedDocument} (checked : Binder.check owner field = .ok ())
      (selected : Turn.source ⟨rank, owner, field, .take b⟩ b docs = .ok source)
      (unnamed : source.names.get? (b.id.getD field.name) = none) :
      Fails r host docs p ⟨rank, owner, field, .take b⟩
        (.missingId b.property (b.id.getD field.name)) p
  | refused {t : Turn} {value : Value} {docs' : List LoadedDocument} {s : Session}
      {cause : PropertyError} (checked : Binder.check t.owner t.field = .ok ())
      (found : t.Finds r docs p.session value docs' s)
      (refused : host.answer p.assignments t.owner.name t.field.name value = .error cause) :
      Fails r host docs p t (.field t.owner.name t.field.name cause)
        ⟨s, p.assignments ++ [⟨t.owner.name, t.field.name, value, false⟩]⟩

variable {r : Reader} {host : Host} {docs docs' : List LoadedDocument} {p q : Progress} {t : Turn}
  {e : BindError}

theorem run_fill_of_finds {value : Value} {s : Session}
    (checked : Binder.check t.owner t.field = .ok ())
    (found : t.Finds r docs p.session value docs' s) :
    (t.fill r host docs).run p =
      match host.answer p.assignments t.owner.name t.field.name value with
      | .ok () => (.ok docs', ⟨s, p.assignments ++ [⟨t.owner.name, t.field.name, value, true⟩]⟩)
      | .error cause => (.error (.field t.owner.name t.field.name cause),
          ⟨s, p.assignments ++ [⟨t.owner.name, t.field.name, value, false⟩]⟩) := by
  rw [fill, Filling.run_bind, Filling.run_lift, checked]
  cases found with
  | @load rank owner field l locale resources document _ localized supplied read =>
    simp only [Binder.loadField, Filling.run_bind, Filling.run_lift, localized, supplied,
      Filling.run_reading_ok read, Filling.run_assign]
    cases host.answer p.assignments owner.name field.name document.root <;> rfl
  | @take rank owner field b source value selected named =>
    simp only [Filling.run_bind, Filling.run_lift, selected, Binder.takenValue,
      LoadedDocument.retained, named, Filling.run_assign]
    cases host.answer p.assignments owner.name field.name value <;> rfl

theorem Fills.run (h : t.Fills r host docs p docs' q) :
    (t.fill r host docs).run p = (.ok docs', q) := by
  cases h with
  | intro checked found accepted => rw [run_fill_of_finds checked found, accepted]

theorem Fails.run (h : t.Fails r host docs p e q) :
    (t.fill r host docs).run p = (.error e, q) := by
  cases h with
  | check refused => simp only [fill, Filling.run_bind, Filling.run_lift, refused]
  | locale checked unknown =>
    simp only [fill, Binder.loadField, Filling.run_bind, Filling.run_lift, checked, unknown]
  | resources checked localized missing =>
    simp only [fill, Binder.loadField, Filling.run_bind, Filling.run_lift, checked, localized,
      missing]
  | read checked localized supplied unread =>
    simp only [fill, Binder.loadField, Filling.run_bind, Filling.run_lift, checked, localized,
      supplied, Filling.run_reading_error unread]
  | source checked unselected =>
    simp only [fill, Filling.run_bind, Filling.run_lift, checked, unselected]
  | name checked selected unnamed =>
    simp only [fill, Filling.run_bind, Filling.run_lift, checked, selected, Binder.takenValue,
      LoadedDocument.retained, unnamed]
  | refused checked found refused => rw [run_fill_of_finds checked found, refused]

inductive Ends (r : Reader) (host : Host) (docs : List LoadedDocument) (p : Progress) (t : Turn) : Prop
  | fills (docs' : List LoadedDocument) (q : Progress) (h : t.Fills r host docs p docs' q)
  | fails (e : BindError) (q : Progress) (h : t.Fails r host docs p e q)

theorem Finds.ends {value : Value} {s : Session} (found : t.Finds r docs p.session value docs' s)
    (checked : Binder.check t.owner t.field = .ok ()) : t.Ends r host docs p := by
  cases hanswer : host.answer p.assignments t.owner.name t.field.name value with
  | ok answer => exact .fills _ _ (.intro checked found hanswer)
  | error cause => exact .fails _ _ (.refused checked found hanswer)

theorem ends (r : Reader) (host : Host) (docs : List LoadedDocument) (p : Progress) (t : Turn) :
    t.Ends r host docs p := by
  obtain ⟨rank, owner, field, task⟩ := t
  cases checked : Binder.check owner field with
  | error e => exact .fails _ _ (.check checked)
  | ok u =>
    cases task with
    | load l =>
      cases localized : Binder.localeOf l with
      | error e => exact .fails _ _ (.locale checked localized)
      | ok locale =>
        cases supplied : Binder.resourcesFor r owner l locale with
        | error e => exact .fails _ _ (.resources checked localized supplied)
        | ok resources =>
          rcases read : ((r.withResources resources).read
            (Path.resolve l.document (some owner.location))).perform p.session with
            ⟨cause | document, s⟩
          · exact .fails _ _ (.read checked localized supplied read)
          · exact (Finds.load localized supplied read).ends checked
    | take b =>
      cases selected : source ⟨rank, owner, field, .take b⟩ b docs with
      | error e => exact .fails _ _ (.source checked selected)
      | ok source =>
        cases named : source.names.get? (b.id.getD field.name) with
        | none => exact .fails _ _ (.name checked selected named)
        | some value => exact (Finds.take selected named).ends checked

end Turn

end ObjectMarkup
