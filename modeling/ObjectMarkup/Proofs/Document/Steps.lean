import ObjectMarkup.Document.Read
import ObjectMarkup.Proofs.Reading.Outcome

namespace ObjectMarkup

open Markup

theorem takeId_of_plain {attributes : List Attribute}
    (h : ∀ a ∈ attributes, a.name.isIn controlQualifier = false) :
    takeId attributes = .ok (none, attributes) := by
  induction attributes with
  | nil => rfl
  | cons a rest ih =>
    rw [takeId, if_neg (by simp [h a List.mem_cons_self]),
      ih fun a ha => h a (List.mem_cons_of_mem _ ha)]
    rfl

theorem Value.eq_of_object? {v : Value} {o : ObjectId} (h : v.object? = some o) :
    v = .object o := by
  cases v <;> cases h
  rfl

/-- How an error of an included document comes out of the document that includes it. -/
def ReadError.through (path : String) : ReadError → ReadError
  | .nesting e => .nesting e
  | e => .included path e

def Reader.textAt? (r : Reader) (location : String) : Option (List Char) := do
  let bytes ← (r.environment.documents.load location).toOption
  (Text.decode bytes).toOption

namespace Element

inductive Kind where
  | object
  | inclusion
  | script
  | composite
  | assignment
  deriving DecidableEq, Repr

def kind (e : Element) : Kind :=
  match e.content with
  | .created _ _ => .object
  | .included _ _ _ => .inclusion
  | .script _ => .script
  | .composite _ _ => .composite
  | .assignment _ => .assignment

/-- Whether the element stands for a property of the element around it. -/
def isProperty (e : Element) : Bool :=
  match e.content with
  | .composite _ _ => true
  | .assignment _ => true
  | _ => false

/-- The id and the attributes that wait for the end of the element. -/
def closing? (e : Element) : Option Closing :=
  match e.content with
  | .created _ c => some c
  | .included _ _ c => some c
  | .composite _ c => some c
  | _ => none

def id? (e : Element) : Option String := e.closing?.bind Closing.id

def pending (e : Element) : List Attribute := (e.closing?.map Closing.attributes).getD []

def names? (e : Element) : Option Registry :=
  match e.content with
  | .included _ names _ => some names
  | _ => none

def inline? (e : Element) : Option InlineScript :=
  match e.content with
  | .script inline => inline
  | _ => none

end Element

inductive Naming where
  /-- An element with an id ends. -/
  | element (id : String) (value : Value)
  /-- An element with an id ends that includes a document. -/
  | inclusion (id : String) (root : Value) (names : Registry)
  /-- A script runs. -/
  | script (commands : List Command)

def Naming.run (names : Registry) : Naming → Except ScriptError Registry
  | .element id value => .ok (names.put id value)
  | .inclusion id root inner => .ok (names.bindInclude id root inner)
  | .script commands => Command.runAll names commands

namespace Builder

/-- The change to the names that a script brings, if there is an engine for it. -/
def scriptNaming? (b : Builder) (key body : String) : Option Naming :=
  (b.reader.environment.engines.find? key).map fun engine => .script (engine.compile body)

def fileNaming? (b : Builder) (source : String) (language : Option String) : Option Naming := do
  let path := Path.resolve source b.location
  let key ← language.orElse fun _ => Path.extension? path
  let bytes ← (b.reader.environment.documents.load path).toOption
  let body ← (Text.decode bytes).toOption
  b.scriptNaming? key (String.ofList body)

def closingNaming? (b : Builder) (e : Element) : Option Naming :=
  match e.content with
  | .created o ⟨some id, _⟩ => some (.element id (.object o))
  | .composite o ⟨some id, _⟩ => some (.element id (.object o))
  | .included root names ⟨some id, _⟩ => some (.inclusion id root names)
  | .script (some s) => b.scriptNaming? s.language s.body
  | _ => none

/-- The change to the names that an event brings: at its start tag for a script in a file, and else
at the end of an element. -/
def naming? (b : Builder) : Event → Option Naming
  | .opened name attributes _ =>
    match takeId attributes with
    | .ok (_, own) =>
      if name.isIn controlQualifier ∧ name.localName = "script" then
        (plainValue? own "src").bind fun source =>
          b.fileNaming? source (plainValue? own "language")
      else none
    | .error _ => none
  | .closed _ => b.stack.head?.bind b.closingNaming?
  | .text _ _ => none

def NamesAfter (b : Builder) (change : Option Naming) (names : Registry) : Prop :=
  match change with
  | none => names = b.names
  | some n => n.run b.names = .ok names

/-- The stack is the same, or the innermost element took a value or a piece of its script. -/
inductive Retouched : List Element → List Element → Prop
  | same (stack : List Element) : Retouched stack stack
  | assignment {e : Element} {rest : List Element} {old : Value} (new : Value)
      (was : e.content = .assignment old) :
      Retouched (e :: rest) ({ e with content := .assignment new } :: rest)
  | script {e : Element} {rest : List Element} {old : InlineScript} (body : String)
      (was : e.content = .script (some old)) :
      Retouched (e :: rest) ({ e with content := .script (some ⟨old.language, body⟩) } :: rest)

/-- What an opening event put on the stack. -/
inductive Opens (nested : Reader → String → Reading Document) (b : Builder) (s t : Session)
    (name : QualifiedName) (closing : Closing) : Content → Prop
  | object (o : ObjectId) (plain : name.isIn controlQualifier = false) :
      Opens nested b s t name closing (.created o closing)
  | composite (o : ObjectId) (plain : name.isIn controlQualifier = false)
      (inside : (b.stack.head?.bind Element.holder?).isSome) :
      Opens nested b s t name closing (.composite o closing)
  | assignment (plain : name.isIn controlQualifier = false)
      (inside : (b.stack.head?.bind Element.holder?).isSome) (bare : closing = ⟨none, []⟩) :
      Opens nested b s t name closing (.assignment .null)
  | inclusion (source : String) (reader : Reader) (document : Document)
      (control : name.isIn controlQualifier = true) (tag : name.localName = "include")
      (found : plainValue? closing.attributes "src" = some source)
      (same : plainValue? closing.attributes "resources" = none → reader = b.reader)
      (read : (nested reader (Path.resolve source b.location)).perform s = (.ok document, t)) :
      Opens nested b s t name closing (.included document.root document.names
        ⟨closing.id, closing.attributes.filter fun a => !a.isPlain "src" && !a.isPlain "resources"⟩)
  | script (inline : Option InlineScript) (control : name.isIn controlQualifier = true)
      (tag : name.localName = "script") (bare : closing.id = none) :
      Opens nested b s t name closing (.script inline)

variable {nested : Reader → String → Reading Document} {b b' : Builder} {s t : Session}

theorem Retouched.length_eq {stack stack' : List Element} (h : Retouched stack stack') :
    stack'.length = stack.length := by
  cases h <;> rfl

theorem Retouched.isEmpty_eq {stack stack' : List Element} (h : Retouched stack stack') :
    stack'.isEmpty = stack.isEmpty := by
  cases h <;> rfl

theorem Retouched.filter_eq {stack stack' : List Element} (h : Retouched stack stack')
    {p : Element → Bool} (hp : ∀ e, p e = true → e.id?.isSome) :
    stack'.filter p = stack.filter p := by
  have hno : ∀ e, e.id? = none → p e = false := by
    intro e he
    cases hpe : p e with
    | false => rfl
    | true => simpa [he] using hp e hpe
  cases h with
  | same => rfl
  | @assignment e rest old new was =>
    have hold : p e = false := hno e (by simp [Element.id?, Element.closing?, was])
    have hnew := hno { e with content := .assignment new } rfl
    simp [hold, hnew]
  | @script e rest old body was =>
    have hold : p e = false := hno e (by simp [Element.id?, Element.closing?, was])
    have hnew := hno { e with content := .script (some ⟨old.language, body⟩) } rfl
    simp [hold, hnew]

theorem runScript_ok {key body : String} (h : (b.runScript key body).perform s = (.ok b', t)) :
    ∃ names, b.NamesAfter (b.scriptNaming? key body) names ∧ b' = { b with names } := by
  unfold runScript at h
  split at h
  · cases h
  · rename_i engine found
    obtain ⟨names, u, hrun, hret⟩ := Reading.bind_eq_ok.mp h
    have hnames := (Reading.lift_eq_ok.mp hrun).1
    cases hret
    refine ⟨names, ?_, rfl⟩
    simp only [NamesAfter, scriptNaming?, found, Option.map_some]
    exact hnames

theorem runScriptFile_ok {source : String} {language : Option String}
    (h : (b.runScriptFile source language).perform s = (.ok b', t)) :
    ∃ names, b.NamesAfter (b.fileNaming? source language) names ∧ b' = { b with names } := by
  unfold runScriptFile at h
  dsimp only at h
  split at h
  · rename_i key hkey
    rw [pure_bind] at h
    obtain ⟨bytes, u, hload, hrest⟩ := Reading.bind_eq_ok.mp h
    obtain ⟨body, v, hdecode, hrun⟩ := Reading.bind_eq_ok.mp hrest
    have hn : b.fileNaming? source language = b.scriptNaming? key (String.ofList body) := by
      simp only [fileNaming?, hkey, (Reading.lift_eq_ok.mp hload).1,
        (Reading.lift_eq_ok.mp hdecode).1, Except.toOption, Option.bind_eq_bind, Option.bind_some]
    rw [hn]
    exact runScript_ok hrun
  · cases h

variable (nested) in
theorem openObject_ok {name : QualifiedName} {closing : Closing} {location : Location}
    (plain : name.isIn controlQualifier = false)
    (h : (b.openObject name closing location).perform s = (.ok b', t)) :
    ∃ content, b.Opens nested s t name closing content ∧ b' = b.push ⟨name, location, content⟩ := by
  unfold openObject at h
  split at h
  · cases h
  · obtain ⟨blueprint, u, -, hbuild⟩ := Reading.bind_eq_ok.mp h
    obtain ⟨o, v, -, hret⟩ := Reading.bind_eq_ok.mp hbuild
    cases hret
    exact ⟨_, .object o plain, rfl⟩

variable (nested) in
theorem openProperty_ok {name : QualifiedName} {closing : Closing} {location : Location}
    (plain : name.isIn controlQualifier = false)
    (h : (b.openProperty name closing location).perform s = (.ok b', t)) :
    ∃ content, b.Opens nested s t name closing content ∧ b' = b.push ⟨name, location, content⟩ := by
  unfold openProperty at h
  split at h
  · cases h
  · rename_i holder hholder
    have inside : (b.stack.head?.bind Element.holder?).isSome := by simp [hholder]
    obtain ⟨heap, u, -, hrest⟩ := Reading.bind_eq_ok.mp h
    extract_lets o inPlace at hrest
    split at hrest
    · split at hrest
      · rename_i part hpart
        cases hrest
        exact ⟨_, .composite part plain inside, rfl⟩
      · cases hrest
    · split at hrest
      · cases hrest
      · rename_i hbare
        have bare : closing = ⟨none, []⟩ := by
          obtain ⟨id, attributes⟩ := closing
          cases id <;> cases attributes <;> simp_all
        cases hrest
        exact ⟨_, .assignment plain inside bare, rfl⟩

theorem openInclude_ok {name : QualifiedName} {closing : Closing} {location : Location}
    (control : name.isIn controlQualifier = true) (tag : name.localName = "include")
    (h : (b.openInclude nested name closing location).perform s = (.ok b', t)) :
    ∃ content, b.Opens nested s t name closing content ∧ b' = b.push ⟨name, location, content⟩ := by
  unfold openInclude at h
  split at h
  · cases h
  · rename_i source found
    dsimp only at h
    split at h
    · rename_i hres
      rw [pure_bind] at h
      obtain ⟨document, u, hread, hret⟩ := Reading.bind_eq_ok.mp h
      have hread := Reading.mapError_eq_ok.mp hread
      cases hret
      exact ⟨_, .inclusion source b.reader document control tag found (fun _ => rfl) hread, rfl⟩
    · rename_i baseName hres
      obtain ⟨bundle, v, hload, h₁⟩ := Reading.bind_eq_ok.mp h
      have hv := (Reading.lift_eq_ok.mp hload).2
      rw [pure_bind] at h₁
      obtain ⟨document, u, hread, hret⟩ := Reading.bind_eq_ok.mp h₁
      have hread := Reading.mapError_eq_ok.mp hread
      subst hv
      cases hret
      refine ⟨_, .inclusion source _ document control tag found (fun hn => ?_) hread, rfl⟩
      rw [hres] at hn
      cases hn

variable (nested) in
theorem openScript_ok {name : QualifiedName} {closing : Closing} {location : Location}
    (control : name.isIn controlQualifier = true) (tag : name.localName = "script")
    (h : (b.openScript name closing location).perform s = (.ok b', t)) :
    ∃ content names, b.Opens nested s t name closing content ∧
      b.NamesAfter ((plainValue? closing.attributes "src").bind fun source =>
        b.fileNaming? source (plainValue? closing.attributes "language")) names ∧
      b' = { b with names, stack := ⟨name, location, content⟩ :: b.stack } := by
  unfold openScript at h
  split at h
  · cases h
  · rename_i hid
    have bare : closing.id = none := by simpa using hid
    split at h
    · cases h
    · dsimp only at h
      split at h
      · rename_i source hsrc
        obtain ⟨c, u, hrun, hret⟩ := Reading.bind_eq_ok.mp h
        obtain ⟨names, hnames, rfl⟩ := runScriptFile_ok hrun
        cases hret
        exact ⟨_, names, .script none control tag bare, by simpa [hsrc] using hnames, rfl⟩
      · rename_i hsrc
        split at h
        · rename_i language hlanguage
          cases h
          exact ⟨_, b.names, .script _ control tag bare, by simp [hsrc, NamesAfter], rfl⟩
        · cases h

/-- An opening event puts an element on the stack and changes nothing else but the names. -/
theorem opened_ok {name : QualifiedName} {attributes : List Attribute} {location : Location}
    (h : (b.opened nested name attributes location).perform s = (.ok b', t)) :
    ∃ id own content names, takeId attributes = .ok (id, own) ∧
      b.Opens nested s t name ⟨id, own⟩ content ∧
      b.NamesAfter (b.naming? (.opened name attributes location)) names ∧
      b' = { b with names, stack := ⟨name, location, content⟩ :: b.stack } := by
  unfold opened at h
  obtain ⟨⟨id, own⟩, u, hlift, hopen⟩ := Reading.bind_eq_ok.mp h
  clear h
  obtain ⟨htake, hu⟩ := Reading.lift_eq_ok.mp hlift
  subst hu
  refine ⟨id, own, ?_⟩
  have quiet : ¬(name.isIn controlQualifier ∧ name.localName = "script") →
      b.NamesAfter (b.naming? (.opened name attributes location)) b.names := by
    intro hno
    simp only [naming?, htake, if_neg hno, NamesAfter]
  dsimp only at hopen
  split at hopen
  · rename_i control
    split at hopen
    · rename_i tag
      obtain ⟨content, hopens, rfl⟩ := openInclude_ok control tag hopen
      exact ⟨content, b.names, htake, hopens, quiet (by simp [tag]), rfl⟩
    · split at hopen
      · rename_i tag
        obtain ⟨content, names, hopens, hnames, rfl⟩ :=
          openScript_ok nested control tag hopen
        refine ⟨content, names, htake, hopens, ?_, rfl⟩
        simpa only [naming?, htake, if_pos (And.intro control tag)] using hnames
      · cases hopen
  · rename_i plain
    have plain : name.isIn controlQualifier = false := by simpa using plain
    split at hopen
    · obtain ⟨content, hopens, rfl⟩ := openObject_ok nested plain hopen
      exact ⟨content, b.names, htake, hopens, quiet (by simp [plain]), rfl⟩
    · obtain ⟨content, hopens, rfl⟩ := openProperty_ok nested plain hopen
      exact ⟨content, b.names, htake, hopens, quiet (by simp [plain]), rfl⟩

theorem join_ok {value : Value} {location : Location}
    (h : (b.join value location).perform s = (.ok b', t)) :
    ∃ stack, Retouched b.stack stack ∧ b' = { b with stack } := by
  unfold join at h
  split at h
  · cases h
    exact ⟨b.stack, .same _, rfl⟩
  · rename_i parent rest hstack
    split at h
    · rename_i old was
      cases h
      exact ⟨_, hstack ▸ .assignment value was, rfl⟩
    · cases h
    · obtain ⟨-, u, -, hret⟩ := Reading.bind_eq_ok.mp h
      cases hret
      exact ⟨b.stack, .same _, rfl⟩

theorem closeAssignment_ok {e : Element} {value : Value}
    (h : (b.closeAssignment e value).perform s = (.ok b', t)) : b' = b ∧ b.stack ≠ [] := by
  unfold closeAssignment at h
  split at h
  · cases h
  · rename_i id hid
    have hne : b.stack ≠ [] := by
      intro hn
      simp [hn] at hid
    obtain ⟨_, u, -, hrest⟩ := Reading.bind_eq_ok.mp h
    dsimp only at hrest
    split at hrest
    · cases hrest
    · split at hrest
      · obtain ⟨-, v, -, hret⟩ := Reading.bind_eq_ok.mp hrest
        cases hret
        exact ⟨rfl, hne⟩
      · split at hrest
        · cases hrest
        · obtain ⟨-, v, -, hret⟩ := Reading.bind_eq_ok.mp hrest
          cases hret
          exact ⟨rfl, hne⟩

theorem bindName_eq (b : Builder) (id : Option String) (value : Value) (names : Option Registry) :
    b.bindName id value names = { b with names := (b.bindName id value names).names } := by
  cases id with
  | none => rfl
  | some id => cases names <;> rfl

theorem rooted_eq (b : Builder) (value : Value) :
    b.rooted value = { b with root := if b.stack.isEmpty then some value else b.root } := by
  unfold rooted
  split <;> simp_all

/-- What is left to do when the attributes of an element are applied: its name is bound, and its
value goes to the element around it. -/
theorem bound_ok {id : Option String} {value : Value} {names : Option Registry}
    {location : Location}
    (h : (do return (← (b.bindName id value names).join value location).rooted value :
      Reading Builder).perform s = (.ok b', t)) :
    ∃ stack, Retouched b.stack stack ∧
      b' = { b with
        names := (b.bindName id value names).names, stack
        root := if b.stack.isEmpty then some value else b.root } := by
  obtain ⟨c, u, hjoin, hret⟩ := Reading.bind_eq_ok.mp h
  obtain ⟨stack, hr, rfl⟩ := join_ok hjoin
  rw [bindName_eq] at hr
  refine ⟨stack, hr, ?_⟩
  cases hret
  rw [rooted_eq, bindName_eq, hr.isEmpty_eq]

/-- A closing event takes the innermost element away and hands its value to the one around it. -/
theorem closed_ok {location : Location} (h : (b.closed location).perform s = (.ok b', t)) :
    ∃ e rest stack names, b.stack = e :: rest ∧ Retouched rest stack ∧
      b.NamesAfter (b.closingNaming? e) names ∧
      b' = { b with names, stack, root := if rest.isEmpty then some e.value else b.root } := by
  unfold closed at h
  split at h
  · cases h
  · rename_i e rest hstack
    refine ⟨e, rest, ?_⟩
    extract_lets c at h
    split at h
    · rename_i value hcontent
      obtain ⟨rfl, hne⟩ := closeAssignment_ok h
      have hne : rest.isEmpty = false := by simpa [c] using hne
      exact ⟨rest, b.names, hstack, .same _, by simp [closingNaming?, hcontent, NamesAfter],
        by simp [hne, c]⟩
    · rename_i hcontent
      cases h
      refine ⟨rest, b.names, hstack, .same _, by simp [closingNaming?, hcontent, NamesAfter], ?_⟩
      simp [rooted_eq, c, Element.value, hcontent]
    · rename_i script hcontent
      obtain ⟨d, u, hrun, hret⟩ := Reading.bind_eq_ok.mp h
      obtain ⟨names, hnames, rfl⟩ := runScript_ok hrun
      cases hret
      refine ⟨rest, names, hstack, .same _, ?_, ?_⟩
      · simp only [closingNaming?, hcontent]
        exact hnames
      · simp [rooted_eq, c, Element.value, hcontent]
    · rename_i o closing hcontent
      obtain ⟨-, u, -, hbound⟩ := Reading.bind_eq_ok.mp h
      obtain ⟨stack, hr, rfl⟩ := bound_ok hbound
      refine ⟨stack, (c.bindName closing.id (.object o) none).names, hstack, hr, ?_, ?_⟩
      · obtain ⟨id, attributes⟩ := closing
        cases id <;> simp [closingNaming?, hcontent, NamesAfter, bindName, Naming.run, c]
      · simp [Element.value, hcontent, c]
    · rename_i root names closing hcontent
      obtain ⟨-, u, -, hbound⟩ := Reading.bind_eq_ok.mp h
      obtain ⟨stack, hr, rfl⟩ := bound_ok hbound
      refine ⟨stack, (c.bindName closing.id root (some names)).names, hstack, hr, ?_, ?_⟩
      · obtain ⟨id, attributes⟩ := closing
        cases id <;> simp [closingNaming?, hcontent, NamesAfter, bindName, Naming.run, c]
      · simp [Element.value, hcontent, c]
    · rename_i o closing hcontent
      obtain ⟨-, u, -, hret⟩ := Reading.bind_eq_ok.mp h
      cases hret
      refine ⟨rest, (c.bindName closing.id (.object o) none).names, hstack, .same _, ?_, ?_⟩
      · obtain ⟨id, attributes⟩ := closing
        cases id <;> simp [closingNaming?, hcontent, NamesAfter, bindName, Naming.run, c]
      · rw [rooted_eq, bindName_eq]
        simp [Element.value, hcontent, c]

theorem text_ok {content : String} (h : (b.text content).perform s = (.ok b', t)) :
    ∃ stack, Retouched b.stack stack ∧ b' = { b with stack } := by
  unfold text at h
  split at h
  · cases h
    exact ⟨b.stack, .same _, rfl⟩
  · rename_i e rest hstack
    split at h
    · rename_i inline was
      cases h
      cases inline with
      | none =>
        refine ⟨b.stack, .same _, ?_⟩
        rw [Option.map_none, ← was, hstack]
      | some script => exact ⟨_, hstack ▸ .script (script.body ++ content) was, rfl⟩
    · rename_i old was
      split at h
      · cases h
        exact ⟨b.stack, .same _, rfl⟩
      · cases h
        exact ⟨_, hstack ▸ .assignment (.string content) was, rfl⟩
    · split at h
      · cases h
        exact ⟨b.stack, .same _, rfl⟩
      · obtain ⟨heap, u, -, hadd⟩ := Reading.bind_eq_ok.mp h
        split at hadd
        · obtain ⟨added, v, -, hret⟩ := Reading.bind_eq_ok.mp hadd
          obtain ⟨-, w, -, hret⟩ := Reading.bind_eq_ok.mp hret
          cases hret
          exact ⟨b.stack, .same _, rfl⟩
        · cases hadd
          exact ⟨b.stack, .same _, rfl⟩
    · cases h
      exact ⟨b.stack, .same _, rfl⟩

end Builder

end ObjectMarkup
