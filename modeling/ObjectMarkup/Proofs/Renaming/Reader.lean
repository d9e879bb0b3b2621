import ObjectMarkup.Proofs.Renaming.Builder

namespace ObjectMarkup

open Markup

/-- The objects that the bundles and the scripts of a reader hold. -/
inductive Reader.Holds (r : Reader) : ObjectId → Prop
  | resource {bundle : Bundle} {key : String} {v : Value} {o : ObjectId}
      (found : r.resources = some bundle) (value : bundle.get? key = some v) (ho : o ∈ v.refs) :
      Holds r o
  | bundle {loader : BundleLoader} {baseName : String} {locale : Option Locale} {bundle : Bundle}
      {key : String} {v : Value} {o : ObjectId} (known : r.environment.bundles = some loader)
      (loaded : loader baseName locale = .ok bundle) (value : bundle.get? key = some v)
      (ho : o ∈ v.refs) : Holds r o
  | script {engine : ScriptEngine} {body : String} {command : Command} {o : ObjectId}
      (known : engine ∈ r.environment.engines) (compiled : command ∈ engine.compile body)
      (ho : o ∈ command.refs) : Holds r o

/-- A reader with a bundle that it has loaded holds no more than before. -/
theorem Reader.holds_withResources {r : Reader} {baseName : String} {locale : Option Locale}
    {bundle : Bundle} {o : ObjectId} (hload : r.loadBundle baseName locale = .ok bundle)
    (h : (r.withResources (some bundle)).Holds o) : r.Holds o := by
  unfold loadBundle at hload
  split at hload
  · cases hload
  · rename_i loader hloader
    cases hloaded : loader baseName (locale.orElse fun _ => r.environment.locale) with
    | error e =>
      rw [hloaded] at hload
      cases hload
    | ok loaded =>
      rw [hloaded] at hload
      cases hload
      cases h with
      | resource found value ho =>
        cases found
        exact .bundle hloader hloaded value ho
      | bundle known loaded value ho => exact .bundle known loaded value ho
      | script known compiled ho => exact .script known compiled ho

theorem ScriptEngines.mem_of_find? {engines : ScriptEngines} {key : String} {engine : ScriptEngine}
    (h : engines.find? key = some engine) : engine ∈ engines := by
  unfold find? byLanguage? byExtension? at h
  cases hlanguage : engines.reverse.find? fun e => Text.sameLetters e.language key with
  | some found =>
    rw [hlanguage] at h
    cases h
    exact List.mem_reverse.mp (List.mem_of_find?_eq_some hlanguage)
  | none =>
    rw [hlanguage] at h
    exact List.mem_reverse.mp (List.mem_of_find?_eq_some h)

namespace Correspondence

variable {c : Correspondence} {g g' : Guard} {excused : ReadError → Prop} {b b' : Builder}
  {nested nested' : Reader → String → Reading Document} {r : Reader}

def Names (c : Correspondence) (names names' : Registry) : Prop :=
  (∀ o ∈ names.refs, c.Known o) ∧ names' = names.mapRefs c.rename

/-- A document with its counterpart. Its root was made after the start. -/
structure Documents (c : Correspondence) (d d' : Document) : Prop where
  root : ∀ o ∈ d.root.refs, c.Own o
  root' : d'.root = d.root.mapRefs c.rename
  names : c.Names d.names d'.names
  location : d'.location = d.location

/-- A document in the making with its counterpart. -/
structure Builders (c : Correspondence) (b b' : Builder) : Prop where
  paired : c.Stacks [] b b'
  names : c.Names b.names b'.names
  location : b'.location = b.location
  held : ∀ o, b.reader.Holds o → c.shared o
  root : ∀ v, b.root = some v → ∀ o ∈ v.refs, c.Own o
  root' : b'.root = b.root.map (Value.mapRefs c.rename)

theorem Builders.resolves (h : c.Builders b b') (raw : String) :
    c.Resolves g g' excused b.context b'.context raw :=
  .of_names h.location (congrArg Reader.resources h.paired.reader)
    (fun _ _ _ hb hv o ho => h.held o (.resource hb hv ho)) h.names.1 h.names.2 raw

theorem Builders.of_restacked {d d' : Builder} (h : c.Builders b b')
    (hr : c.Restacked [] b b' d d') : c.Builders d d' where
  paired := hr.paired
  names := by
    rw [hr.left, hr.right]
    exact h.names
  location := by
    rw [hr.left, hr.right]
    exact h.location
  held := by
    rw [hr.left]
    exact h.held
  root := by
    rw [hr.left]
    exact h.root
  root' := by
    rw [hr.left, hr.right]
    exact h.root'

theorem Builders.start (held : ∀ o, r.Holds o → c.shared o) (location : Option String) :
    c.Builders (.start r location) (.start r location) where
  paired := ⟨rfl, rfl, by rintro _ ⟨⟩, fun e rest h => by cases List.suffix_nil.mp h⟩
  names := ⟨by rintro _ ⟨⟩, rfl⟩
  location := rfl
  held := held
  root := by rintro _ ⟨⟩
  root' := rfl

theorem Names.bind {names names' : Registry} {e : Element} (h : c.Names names names')
    (he : Known.Element c e) : c.Names (e.bind names) ((e.mapRefs c.rename).bind names') := by
  obtain ⟨hknown, rfl⟩ := h
  obtain ⟨name, location, content⟩ := e
  have hput : ∀ id v, (∀ o ∈ Value.refs v, c.Known o) →
      c.Names (names.put id v) ((names.mapRefs c.rename).put id (v.mapRefs c.rename)) :=
    fun id v hv =>
      ⟨fun o ho => (Registry.refs_put ho).elim (hv o) (hknown o), names.put_mapRefs id v⟩
  cases content with
  | created o closing =>
    obtain ⟨_ | id, attributes⟩ := closing
    · exact ⟨hknown, rfl⟩
    · exact hput id (.object o) he.value
  | included root inner closing =>
    obtain ⟨_ | id, attributes⟩ := closing
    · exact ⟨hknown, rfl⟩
    · refine ⟨fun o ho => ?_, names.bindInclude_mapRefs id root inner⟩
      rcases Registry.refs_bindInclude ho with ho | ho | ho
      · exact he.value o ho
      · exact he.names inner rfl o ho
      · exact hknown o ho
  | composite o closing =>
    obtain ⟨_ | id, attributes⟩ := closing
    · exact ⟨hknown, rfl⟩
    · exact hput id (.object o) he.value
  | assignment v => exact ⟨hknown, rfl⟩
  | script inline => exact ⟨hknown, rfl⟩

open Reading (Follows)

theorem follows_runScript {key body : String} (h : c.Builders b b') :
    Follows (c.Sessions g g') excused
      (fun d d' => d = { b with names := d.names } ∧ d' = { b' with names := d'.names } ∧
        c.Names d.names d'.names)
      (b.runScript key body) (b'.runScript key body) := by
  unfold Builder.runScript
  rw [h.paired.reader]
  cases hfind : b.reader.environment.engines.find? key with
  | none => exact .fail _
  | some engine =>
    have hcommands : ∀ command ∈ engine.compile body, ∀ o ∈ command.refs, c.shared o :=
      fun command hm o ho => h.held o (.script (ScriptEngines.mem_of_find? hfind) hm ho)
    have hrun : Agree c.Names (engine.run body b.names) (engine.run body b'.names) := by
      unfold ScriptEngine.run
      rw [h.names.2, Command.runAll_mapRefs b.names fun command hm o ho =>
        rename_shared (hcommands command hm o ho)]
      cases hnames : Command.runAll b.names (engine.compile body) with
      | error e => exact .error e
      | ok names =>
        refine .ok ⟨fun o ho => ?_, rfl⟩
        rcases Command.refs_runAll hnames o ho with ⟨command, hm, ho⟩ | ho
        · exact .inl (hcommands command hm o ho)
        · exact h.names.1 o ho
    exact .bind (.lift hrun) fun names names' hnames => .pure ⟨rfl, rfl, hnames⟩

theorem Builders.renamed {names names' : Registry} (h : c.Builders b b')
    (hnames : c.Names names names') :
    c.Builders { b with names } { b' with names := names' } :=
  ⟨h.paired.names names names', hnames, h.location, h.held, h.root, h.root'⟩

theorem follows_runScriptFile {source : String} {language : Option String}
    (h : c.Builders b b') :
    Follows (c.Sessions g g') excused c.Builders (b.runScriptFile source language)
      (b'.runScriptFile source language) := by
  unfold Builder.runScriptFile
  rw [h.location, h.paired.reader]
  dsimp only
  cases language.orElse fun _ => Path.extension? (Path.resolve source b.location) with
  | none => exact .bind (A := fun _ _ => False) (.fail _) (by rintro _ _ ⟨⟩)
  | some key =>
    simp only [pure_bind]
    refine .bind (.lift_self _) fun bytes bytes' hbytes => ?_
    obtain ⟨-, rfl⟩ := hbytes
    refine .bind (.lift_self _) fun body body' hbody => ?_
    obtain ⟨-, rfl⟩ := hbody
    refine (follows_runScript h).mono ?_
    intro d d' h
    obtain ⟨hd, hd', hnames⟩ := h
    rw [hd, hd']
    exact h.renamed hnames

theorem Builders.push {e : Element} (h : c.Builders b b') (he : Known.Element c e)
    (hp : e.isProperty = false) : c.Builders (b.push e) (b'.push (e.mapRefs c.rename)) :=
  h.of_restacked (h.paired.push he fun hin => by rw [hp] at hin; cases hin)

theorem follows_openScript {name : QualifiedName} {closing : Closing} {location : Location}
    (h : c.Builders b b') :
    Follows (c.Sessions g g') excused c.Builders (b.openScript name closing location)
      (b'.openScript name closing location) := by
  have hpush : ∀ inline d d', c.Builders d d' →
      c.Builders (d.push ⟨name, location, .script inline⟩)
        (d'.push ⟨name, location, .script inline⟩) :=
    fun inline d d' hd => hd.push (e := ⟨name, location, .script inline⟩) known_script rfl
  unfold Builder.openScript
  split
  · exact .fail _
  · split
    · exact .fail _
    · dsimp only
      split
      · exact .bind (follows_runScriptFile h) fun d d' hd => .pure (hpush none d d' hd)
      · split
        · exact .pure (hpush _ b b' h)
        · exact .fail _

theorem follows_text_of_builders {content : String} (h : c.Builders b b') :
    Follows (c.Sessions g g') excused c.Builders (b.text content) (b'.text content) :=
  (follows_text h.paired (.inr rfl)).mono fun _ _ => h.of_restacked

theorem follows_closed_of_builders {place : Location} (h : c.Builders b b') :
    Follows (c.Sessions g g') excused c.Builders (b.closed place) (b'.closed place) := by
  cases hstack : b.stack with
  | nil =>
    have hstack' : b'.stack = [] := by simp [h.paired.stack, hstack]
    simp only [Builder.closed, hstack, hstack']
    exact .fail _
  | cons e rest =>
    have he := h.paired.elements e (by simp [hstack])
    have hin := h.paired.enclosed e rest (hstack ▸ List.suffix_rfl)
    have hpop : c.Builders { b with stack := rest }
        { b' with stack := rest.map (Element.mapRefs c.rename) ++ [] } :=
      ⟨h.paired.pop hstack, h.names, h.location, h.held, h.root, h.root'⟩
    have hclosed : Follows (c.Sessions g g') excused _ (b.closed place) (b'.closed place) :=
      follows_closed (N := c.Names) h.paired hstack (.inr rfl) (fun a _ => h.resolves a.value)
        (h.names.bind he) fun script _ => follows_runScript hpop
    refine (hclosed.also (P := fun d => d.reader = b.reader) ?_).mono ?_
    · intro s d t hd
      obtain ⟨_, _, _, _, -, -, -, rfl⟩ := Builder.closed_ok hd
      rfl
    · intro d d' hd
      obtain ⟨hd, hreader⟩ := hd
      refine ⟨hd.paired, hd.names, ?_, ?_, ?_, ?_⟩
      · rw [hd.location, hd.location']
        exact h.location
      · rw [hreader]
        exact h.held
      · intro v hv
        rw [hd.root] at hv
        cases rest with
        | nil =>
          cases hv
          obtain ⟨name, location, content⟩ := e
          cases content with
          | script inline => rintro _ ⟨⟩
          | assignment v => exact absurd (hin rfl) (by simp)
          | _ => exact he.holder rfl
        | cons parent below => exact h.root v hv
      · rw [hd.root, hd.root']
        cases rest with
        | nil => rfl
        | cons parent below => exact h.root'

variable (hnested : ∀ r l, (∀ o, r.Holds o → c.shared o) →
    Follows (c.Sessions g g') excused c.Documents (nested r l) (nested' r l))
  (hthrough : ∀ path e, excused e → excused (ReadError.through path e))

include hnested hthrough

theorem follows_openInclude {name : QualifiedName} {closing : Closing} {location : Location}
    (h : c.Builders b b') :
    Follows (c.Sessions g g') excused c.Builders (b.openInclude nested name closing location)
      (b'.openInclude nested' name closing location) := by
  unfold Builder.openInclude
  rw [h.location, h.paired.reader]
  cases plainValue? closing.attributes "src" with
  | none => exact .fail _
  | some source =>
    have hread : ∀ reader : Reader, (∀ o, reader.Holds o → c.shared o) →
        ∀ own, Follows (c.Sessions g g') excused c.Builders
          (do
            let document ← (nested reader (Path.resolve source b.location)).mapError
              (ReadError.through (Path.resolve source b.location))
            return b.push ⟨name, location, .included document.root document.names own⟩)
          (do
            let document ← (nested' reader (Path.resolve source b.location)).mapError
              (ReadError.through (Path.resolve source b.location))
            return b'.push ⟨name, location, .included document.root document.names own⟩) := by
      intro reader held own
      refine .bind (.mapError (hthrough _) (hnested reader _ held)) fun d d' hd => ?_
      rw [hd.root', hd.names.2]
      refine .pure (h.push (e := ⟨name, location, .included d.root d.names own⟩) ?_ rfl)
      exact ⟨fun o ho => .inr (hd.root o ho), fun _ => hd.root,
        fun names hn => by cases hn; exact hd.names.1⟩
    cases plainValue? closing.attributes "resources" with
    | none =>
      simp only [pure_bind]
      exact hread b.reader h.held _
    | some baseName =>
      simp only [pure_bind]
      refine .bind (.lift_self _) fun bundle bundle' hbundle => ?_
      obtain ⟨hload, rfl⟩ := hbundle
      exact hread _ (fun o ho => h.held o (Reader.holds_withResources hload ho)) _

theorem follows_opened {name : QualifiedName} {attributes : List Attribute} {location : Location}
    (h : c.Builders b b') :
    Follows (c.Sessions g g') excused c.Builders (b.opened nested name attributes location)
      (b'.opened nested' name attributes location) := by
  unfold Builder.opened
  refine .bind (.lift_self _) fun taken taken' htaken => ?_
  obtain ⟨-, rfl⟩ := htaken
  obtain ⟨id, own⟩ := taken
  dsimp only
  split
  · split
    · exact follows_openInclude hnested hthrough h
    · split
      · exact follows_openScript h
      · exact .fail _
  · split
    · exact (follows_openObject h.paired).mono fun _ _ => h.of_restacked
    · exact (follows_openProperty h.paired (.inr rfl)).mono fun _ _ => h.of_restacked

/-- An event does the same to both documents in the making. -/
theorem follows_step (h : c.Builders b b') (e : Event) :
    Follows (c.Sessions g g') excused c.Builders (b.step nested e) (b'.step nested' e) := by
  cases e with
  | opened name attributes location => exact follows_opened hnested hthrough h
  | closed location => exact follows_closed_of_builders h
  | text content location => exact follows_text_of_builders h

theorem follows_deliver (signals : List Signal) (h : c.Builders b b') :
    Follows (c.Sessions g g') excused c.Builders
      (deliver (fun b e => Builder.step nested b e) Builder.finished
        (fun _ f => .fail (.markup f)) signals b)
      (deliver (fun b e => Builder.step nested' b e) Builder.finished
        (fun _ f => .fail (.markup f)) signals b') := by
  induction signals generalizing b b' with
  | nil => exact .pure h
  | cons signal rest ih =>
    cases signal with
    | event e => exact .bind (follows_step hnested hthrough h e) fun _ _ => ih
    | checkpoint =>
      have hfinished : b'.finished = b.finished := by
        rw [Builder.finished, Builder.finished, h.root', Option.isSome_map]
      simp only [deliver, hfinished]
      split
      · exact .pure h
      · exact ih h
    | fault f => exact .fail _

theorem follows_parse (held : ∀ o, r.Holds o → c.shared o) (source : List Char)
    (location : Option String) :
    Follows (c.Sessions g g') excused c.Documents (r.parse nested source location)
      (r.parse nested' source location) := by
  unfold Reader.parse
  refine .bind (follows_deliver hnested hthrough _ (.start held location)) fun b b' h =>
    .lift ?_
  have hstack : b'.stack = b.stack.map (Element.mapRefs c.rename) := by simp [h.paired.stack]
  unfold Builder.finish
  rw [hstack, h.root']
  cases b.stack with
  | cons e rest => exact .error _
  | nil =>
    cases hroot : b.root with
    | none => exact .error _
    | some root => exact .ok ⟨h.root root hroot, rfl, h.names, h.location⟩

theorem follows_parseBytes (held : ∀ o, r.Holds o → c.shared o) (bytes : Bytes)
    (location : Option String) :
    Follows (c.Sessions g g') excused c.Documents (r.parseBytes nested bytes location)
      (r.parseBytes nested' bytes location) := by
  unfold Reader.parseBytes
  refine .bind (.lift_self _) fun source source' hsource => ?_
  obtain ⟨-, rfl⟩ := hsource
  exact follows_parse hnested hthrough held source location

omit hnested hthrough

/-- The second guard refuses no document that the first lets in, or refusals are not counted. The
rooms do not run out before the guards refuse. -/
def Leeway (excused : ReadError → Prop) (room room' : Nat) (g g' : Guard) : Prop :=
  (room' = room ∧ g' = g) ∨
    ((∀ e, excused (.nesting e)) ∧ g'.depth ≤ g.depth ∧ (∀ l ∈ g'.active, l ∈ g.active) ∧
      Guard.maxDepth < room' + g'.depth)

theorem Leeway.enter {room room' : Nat} {inner : Guard} {location : Option String}
    (h : Leeway excused (room + 1) (room' + 1) g g') (he : g.enter location = .ok inner) :
    ∃ inner', g'.enter location = .ok inner' ∧ Leeway excused room room' inner inner' := by
  rcases h with ⟨hroom, rfl⟩ | ⟨hexcused, hdepth, hactive, hroom⟩
  · exact ⟨inner, he, .inl ⟨Nat.succ.inj hroom, rfl⟩⟩
  · unfold Guard.enter at he ⊢
    split at he
    · cases he
    · rename_i hlimit
      rw [if_neg (by omega)]
      cases location with
      | none =>
        cases he
        refine ⟨_, rfl, .inr ⟨hexcused, Nat.succ_le_succ hdepth, hactive, ?_⟩⟩
        change Guard.maxDepth < room' + (g'.depth + 1)
        omega
      | some l =>
        dsimp only at he ⊢
        split at he
        · cases he
        · rename_i hnew
          cases he
          rw [if_neg fun hm => hnew (hactive l hm)]
          refine ⟨_, rfl, .inr ⟨hexcused, Nat.succ_le_succ hdepth, ?_, ?_⟩⟩
          · intro m hm
            rcases List.mem_append.mp hm with hm | hm
            · exact List.mem_append_left _ (hactive m hm)
            · exact List.mem_append_right _ hm
          · change Guard.maxDepth < room' + (g'.depth + 1)
            omega

/-- Reads of one document go on in step. -/
theorem follows_readNested (hthrough : ∀ path e, excused e → excused (ReadError.through path e))
    {room room' : Nat} (hroom : Leeway excused room room' g g') (r : Reader) (l : String)
    (held : ∀ o, r.Holds o → c.shared o) :
    Follows (c.Sessions g g') excused c.Documents (r.readNested room l)
      (r.readNested room' l) := by
  induction room generalizing room' g g' r l with
  | zero =>
    rcases hroom with ⟨rfl, rfl⟩ | ⟨hexcused, -⟩
    · exact .fail _
    · exact .fail_excused (hexcused _)
  | succ room ih =>
    cases room' with
    | zero =>
      rcases hroom with ⟨h, -⟩ | ⟨hexcused, hdepth, -, hroom⟩
      · cases h
      · intro s t hst
        have hrefused : g.enter (some l) = .error (.tooDeep Guard.maxDepth) := by
          unfold Guard.enter
          rw [if_pos (by omega)]
        unfold Reader.readNested
        rw [Reading.perform_within, hst.guard, hrefused]
        exact .excused (hexcused _)
    | succ room' =>
      refine follows_within (fun e he => ?_) fun inner he => ?_
      · rcases hroom with ⟨-, rfl⟩ | ⟨hexcused, -⟩
        · exact .inr he
        · exact .inl (hexcused e)
      · obtain ⟨inner', he', hinner⟩ := hroom.enter he
        refine ⟨inner', he', ?_⟩
        refine .bind (.lift_self _) fun bytes bytes' hbytes => ?_
        obtain ⟨-, rfl⟩ := hbytes
        exact follows_parseBytes (fun r l => ih hinner r l) hthrough held bytes _

end Correspondence

end ObjectMarkup
