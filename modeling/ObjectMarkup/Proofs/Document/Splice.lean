import ObjectMarkup.Proofs.Document.Inclusion
import ObjectMarkup.Proofs.Document.Take

namespace ObjectMarkup

open Markup

def startsSingle (sigil : Char) (raw : String) : Bool :=
  match raw.toList with
  | first :: rest => first = sigil && rest.head? ≠ some sigil
  | [] => false

/-- Whether an attribute stands for no address and no named object of its document. -/
def Markup.Attribute.isIndependent (a : Attribute) : Bool :=
  !startsSingle '@' a.value && !startsSingle '$' a.value

/-- Whether neither the tag nor an attribute of the event directs the reading, and no attribute
depends on the document. -/
def Markup.Event.isIndependent : Event → Bool
  | .opened name attributes _ =>
    !name.isIn controlQualifier &&
      attributes.all fun a => !a.name.isIn controlQualifier && a.isIndependent
  | _ => true

theorem Markup.Attribute.sigil_of_isIndependent {a : Attribute} {sigil next : Char}
    {rest : List Char} (ha : a.isIndependent = true) (hraw : a.value.toList = sigil :: next :: rest)
    (hnext : next ≠ sigil) : sigil ≠ '@' ∧ sigil ≠ '$' := by
  constructor
  · rintro rfl
    simp [isIndependent, startsSingle, hraw, hnext] at ha
  · rintro rfl
    simp [isIndependent, startsSingle, hraw, hnext] at ha

/-- What is left of plain markup in an open element. -/
structure Element.Independent (e : Element) : Prop where
  unnamed : e.id? = none
  quiet : e.kind ≠ .script
  own : e.kind ≠ .inclusion
  pending : ∀ a ∈ e.pending, a.isIndependent = true

namespace Builder

variable {nested : Reader → String → Reading Document} {b b' : Builder} {s t : Session}
  {e : Event}

theorem joinObject_location {parent : Element} {v : Value} {l : Location} (l' : Location)
    (h : (joinObject parent v l).perform s = (.ok (), t)) :
    (joinObject parent v l').perform s = (.ok (), t) := by
  unfold joinObject at h ⊢
  cases hparent : parent.value.object? with
  | none =>
    rw [hparent] at h
    cases h
  | some o =>
    simp only [hparent, Reading.perform_bind, Reading.perform_heap] at h ⊢
    split at h
    · exact h
    · split at h
      · exact h
      · cases h
      · cases h

theorem join_location {v : Value} {l : Location} (l' : Location)
    (h : (b.join v l).perform s = (.ok b', t)) : (b.join v l').perform s = (.ok b', t) := by
  unfold join at h ⊢
  split at h
  · exact h
  · split at h
    · exact h
    · cases h
    · obtain ⟨_, u, hjoin, hret⟩ := Reading.bind_eq_ok.mp h
      exact Reading.bind_eq_ok.mpr ⟨(), u, joinObject_location l' hjoin, hret⟩

theorem Retouched.independent {stack stack' : List Element} (h : Retouched stack stack')
    (hstack : ∀ e ∈ stack, e.Independent) : ∀ e ∈ stack', e.Independent := by
  cases h with
  | same => exact hstack
  | @assignment e rest old new was =>
    refine List.forall_mem_cons.mpr ⟨⟨rfl, by rintro ⟨⟩, by rintro ⟨⟩, by rintro _ ⟨⟩⟩, ?_⟩
    exact fun e he => hstack e (List.mem_cons_of_mem _ he)
  | @script e rest old body was =>
    exact absurd (by simp [Element.kind, was]) (hstack e List.mem_cons_self).quiet

theorem Opens.independent {name : QualifiedName} {attributes : List Attribute} {place : Location}
    {content : Content} (h : b.Opens nested s t name ⟨none, attributes⟩ content)
    (hname : name.isIn controlQualifier = false)
    (hattributes : ∀ a ∈ attributes, a.isIndependent = true) :
    Element.Independent ⟨name, place, content⟩ := by
  cases h with
  | object o plain => exact ⟨rfl, by rintro ⟨⟩, by rintro ⟨⟩, hattributes⟩
  | composite o plain inside => exact ⟨rfl, by rintro ⟨⟩, by rintro ⟨⟩, hattributes⟩
  | assignment plain inside bare => exact ⟨rfl, by rintro ⟨⟩, by rintro ⟨⟩, by rintro _ ⟨⟩⟩
  | inclusion source reader document control =>
    rw [hname] at control
    cases control
  | script inline control =>
    rw [hname] at control
    cases control

end Builder

namespace Correspondence

open Reading (Follows)

def ofGuard (s : Session) (g : Guard) : Correspondence where
  left := { s with guard := g }
  right := s
  shared := fun o => o.index < s.heap.size
  bounded := fun _ ho => ⟨ho, ho⟩
  same := fun _ _ => rfl
  closed := fun _ _ p _ => ⟨Nat.lt_or_ge p.index s.heap.size, p.shift_self _⟩

variable {c : Correspondence} {g g' : Guard} {base b b' : Builder} {s t : Session} {e : Element}

theorem known_ofGuard (s : Session) (g : Guard) (o : ObjectId) : (ofGuard s g).Known o :=
  Nat.lt_or_ge o.index s.heap.size

/-- A document in the making that directs no reading, and the builder that takes its elements above
those that are open in `base`. -/
structure Spliced (c : Correspondence) (base b b' : Builder) : Prop where
  paired : c.Stacks base.stack b b'
  reader : b.reader = base.reader
  names : b.names = .empty
  names' : b'.names = base.names
  location' : b'.location = base.location
  root : b.root = none
  root' : b'.root = none
  independent : ∀ e ∈ b.stack, e.Independent

theorem Spliced.of_restacked {d d' : Builder} (h : c.Spliced base b b')
    (hr : c.Restacked base.stack b b' d d') (hd : ∀ e ∈ d.stack, e.Independent) :
    c.Spliced base d d' where
  paired := hr.paired
  reader := by
    rw [hr.left]
    exact h.reader
  names := by
    rw [hr.left]
    exact h.names
  names' := by
    rw [hr.right]
    exact h.names'
  location' := by
    rw [hr.right]
    exact h.location'
  root := by
    rw [hr.left]
    exact h.root
  root' := by
    rw [hr.right]
    exact h.root'
  independent := hd

/-- An attribute that is independent of its document stands for the same in both. No listener is
found in a document without names. -/
theorem Spliced.resolves {a : Attribute} (h : c.Spliced base b b')
    (hknown : ∀ o, c.Known o) (hrename : ∀ o, c.rename o = o) (ha : a.isIndependent = true) :
    c.Resolves g g' (fun _ => True) b.context b'.context a.value where
  value := by
    refine resolve_agree fun sigil next rest hraw hsigil hnext => ?_
    obtain ⟨haddress, hname⟩ := Attribute.sigil_of_isIndependent ha hraw hnext
    have hpercent : sigil = '%' := by
      simpa [isSigil, haddress, hname] using hsigil
    have hresources : b'.context.resources = b.context.resources :=
      congrArg Reader.resources h.paired.reader
    unfold Context.dereference
    rw [if_neg haddress, if_neg haddress, if_pos hpercent, if_pos hpercent, hresources]
    split
    · exact .error _
    · refine .ok ⟨fun o _ => hknown o, ?_⟩
      exact (Value.mapRefs_eq_self fun o _ => hrename o).symm
  listeners := by
    intro property list hlist
    change Follows _ _ _ (Builder.addListeners b.names property list _) _
    rw [h.names]
    cases Builder.listenerIds a.value with
    | nil => exact .pure trivial
    | cons id rest =>
      intro s t hst
      have hnone : Registry.empty.get? id = none := by
        unfold Registry.get?
        cases Text.segments '.' id with
        | nil => rfl
        | cons segment path => cases path <;> rfl
      have hfails : (Builder.addListeners .empty property list (id :: rest)).perform s =
          (.error (.unknownId id), s) := by
        simp only [Builder.addListeners, Builder.addListener, Reading.perform_bind,
          Reading.perform_heap, hnone, Reading.perform_fail]
      rw [hfails]
      exact .excused trivial

variable {nested nested' : Reader → String → Reading Document}

theorem follows_opened_spliced {name : QualifiedName} {attributes : List Attribute}
    {place : Location} (h : c.Spliced base b b')
    (he : (Event.opened name attributes place).isIndependent = true) :
    Follows (c.Sessions g g') (fun _ => True) (fun d d' => c.Spliced base d d' ∧ d.stack ≠ [])
      (b.opened nested name attributes place) (b'.opened nested' name attributes place) := by
  simp only [Event.isIndependent, Bool.and_eq_true, Bool.not_eq_true', List.all_eq_true] at he
  obtain ⟨hname, hattributes⟩ := he
  have htake := takeId_of_plain fun a ha => (hattributes a ha).1
  have hopen : Follows (c.Sessions g g') (fun _ => True) (c.Restacked base.stack b b')
      (b.opened nested name attributes place) (b'.opened nested' name attributes place) := by
    unfold Builder.opened
    refine .bind (.lift_self _) fun taken taken' htaken => ?_
    obtain ⟨htaken, rfl⟩ := htaken
    rw [htake] at htaken
    cases htaken
    simp only [hname, Bool.false_eq_true, if_false]
    split
    · exact follows_openObject h.paired
    · cases hstack : b.stack with
      | nil =>
        unfold Builder.openProperty
        simp only [hstack, List.head?_nil, Option.bind_none]
        exact .fail_excused trivial
      | cons e rest => exact follows_openProperty h.paired (.inl (by simp [hstack]))
  refine (hopen.also (P := fun d => ∃ e, d.stack = e :: b.stack ∧ e.Independent) ?_).mono ?_
  · intro s d t hd
    obtain ⟨id, own, content, names, htaken, hopens, -, rfl⟩ := Builder.opened_ok hd
    rw [htake] at htaken
    cases htaken
    exact ⟨_, rfl, hopens.independent hname fun a ha => (hattributes a ha).2⟩
  · intro d d' hd
    obtain ⟨hr, e, hstack, he⟩ := hd
    refine ⟨h.of_restacked hr ?_, by simp [hstack]⟩
    rw [hstack]
    exact List.forall_mem_cons.mpr ⟨he, h.independent⟩

theorem follows_text_spliced {content : String} (h : c.Spliced base b b') (hb : b.stack ≠ []) :
    Follows (c.Sessions g g') (fun _ => True) (fun d d' => c.Spliced base d d' ∧ d.stack ≠ [])
      (b.text content) (b'.text content) := by
  refine ((follows_text h.paired (.inl hb)).also
    (P := fun d => Builder.Retouched b.stack d.stack) ?_).mono ?_
  · intro s d t hd
    obtain ⟨stack, hr, rfl⟩ := Builder.text_ok hd
    exact hr
  · intro d d' hd
    obtain ⟨hrestacked, hr⟩ := hd
    refine ⟨h.of_restacked hrestacked (hr.independent h.independent), ?_⟩
    rw [Ne, ← List.isEmpty_iff, hr.isEmpty_eq, List.isEmpty_iff]
    exact hb

theorem unnamed_mapRefs (f : ObjectId → ObjectId) (e : Element) : (e.mapRefs f).id? = e.id? := by
  obtain ⟨name, location, content⟩ := e
  cases content <;> rfl

theorem follows_closed_spliced {place : Location} {rest : List Element} (h : c.Spliced base b b')
    (hknown : ∀ o, c.Known o) (hrename : ∀ o, c.rename o = o) (hstack : b.stack = e :: rest)
    (hrest : rest ≠ []) :
    Follows (c.Sessions g g') (fun _ => True) (fun d d' => c.Spliced base d d' ∧ d.stack ≠ [])
      (b.closed place) (b'.closed place) := by
  have he := h.independent e (by simp [hstack])
  have hclosed : Follows (c.Sessions g g') (fun _ => True) _ (b.closed place)
      (b'.closed place) :=
    follows_closed (N := fun names names' => names = .empty ∧ names' = base.names) h.paired
      hstack (.inl hrest) (fun a ha => h.resolves hknown hrename (he.pending a ha)) ?_ ?_
  · refine (hclosed.also (P := fun d => d.reader = b.reader ∧
      Builder.Retouched rest d.stack) ?_).mono ?_
    · intro s d t hd
      obtain ⟨e, rest', stack, names, hel, hr, -, rfl⟩ := Builder.closed_ok hd
      rw [hstack] at hel
      cases hel
      exact ⟨rfl, hr⟩
    · intro d d' hd
      obtain ⟨hd, hreader, hr⟩ := hd
      have hempty : rest.isEmpty = false := by simpa using hrest
      refine ⟨⟨hd.paired, hreader.trans h.reader, hd.names.1, hd.names.2,
        hd.location'.trans h.location', ?_, ?_, ?_⟩, ?_⟩
      · rw [hd.root]
        simp [hempty, h.root]
      · rw [hd.root']
        simp [hempty, h.root']
      · refine hr.independent fun el hel => h.independent el ?_
        rw [hstack]
        exact List.mem_cons_of_mem _ hel
      · rw [Ne, ← List.isEmpty_iff, hr.isEmpty_eq, List.isEmpty_iff]
        exact hrest
  · unfold Element.bind
    rw [unnamed_mapRefs, he.unnamed]
    exact ⟨h.names, h.names'⟩
  · intro script hscript
    have hquiet := he.quiet
    unfold Element.inline? at hscript
    unfold Element.kind at hquiet
    cases hc : e.content <;> simp_all

/-- The outermost element of the included document ends. Its value is handed on where the other
builder stands. -/
theorem closed_outermost {place : Location} {d : Builder} {t' t₂ : Session}
    (h : c.Spliced base b b') (hbase : base.root = none)
    (hknown : ∀ o, c.Known o) (hrename : ∀ o, c.rename o = o) (hst : c.Sessions g g' t t')
    (hstack : b.stack = [e]) (hclosed : (b.closed place).perform t = (.ok d, t₂)) :
    ∃ v l u', d.root = some v ∧ c.Sessions g g' t₂ u' ∧
      (b'.closed place).perform t' =
        ((do return (← base.join v l).rooted v) : Reading Builder).perform u' := by
  have he := h.independent e (by simp [hstack])
  have hin := h.paired.enclosed e [] (hstack ▸ List.suffix_rfl)
  have hknowne := h.paired.elements e (by simp [hstack])
  have hstack' := h.paired.cons hstack
  have hrest : { b' with stack := base.stack } = base := by
    have hreader := h.paired.reader.trans h.reader
    have hnames := h.names'
    have hlocation := h.location'
    have hroot := h.root'.trans hbase.symm
    obtain ⟨reader, location, names, stack, root⟩ := base
    obtain ⟨reader', location', names', stack', root'⟩ := b'
    cases hreader
    cases hnames
    cases hlocation
    cases hroot
    rfl
  obtain ⟨name, l, content⟩ := e
  cases content with
  | composite o closing => cases hin rfl
  | assignment v => cases hin rfl
  | included root names closing => exact absurd rfl he.own
  | script inline => exact absurd rfl he.quiet
  | created o closing =>
    obtain ⟨id, attributes⟩ := closing
    have hid : id = none := he.unnamed
    subst hid
    rw [Builder.closed_eq hstack rfl, Reading.bind_eq_ok] at hclosed
    obtain ⟨_, u, happly, hsettle⟩ := hclosed
    cases hsettle
    have hfollows : Follows (c.Sessions g g') (fun _ => True) _
        (({ b with stack := [] }).applyAttributes ⟨name, l, .created o ⟨none, attributes⟩⟩
          attributes)
        (({ b' with stack := base.stack }).applyAttributes
          (Element.mapRefs c.rename ⟨name, l, .created o ⟨none, attributes⟩⟩) attributes) :=
      follows_applyAttributes h.paired.reader (hknowne.holder rfl) fun a ha =>
        h.resolves hknown hrename (he.pending a ha)
    obtain ⟨_, u', happly', -, hsessions⟩ := hfollows.ok_of_ok hst happly
    refine ⟨.object o, l, u', rfl, hsessions, ?_⟩
    rw [Builder.closed_eq hstack' rfl]
    simp only [Element.mapRefs, Content.mapRefs, hrename, List.map_nil, List.nil_append]
      at happly' ⊢
    rw [Reading.perform_bind, happly', hrest]
    rfl

end Correspondence

namespace Builder

open Correspondence

variable {nested nested' : Reader → String → Reading Document} {base b b' : Builder}
  {s t u : Session} {g : Guard} {source : List Char} {location : Option String}
  {taken : List Delivery} {ahead : List Signal} {name : QualifiedName} {a : Attribute}
  {place place' : Location} {room : Nat}

/-- While an included document is read and its outermost element has not ended, another builder has
taken the events of that element: its open elements are those of the included document, above its
own. -/
structure Inside (nested : Reader → String → Reading Document) (base : Builder) (s : Session)
    (g : Guard) (events : List Event) (b : Builder) (t : Session) : Prop where
  root : b.root = none
  started : b.stack = [] ↔ fromRoot events = []
  alongside : ∃ b' t', (base.take nested (fromRoot events)).perform s = (.ok b', t') ∧
    (ofGuard s g).Spliced base b b' ∧ (ofGuard s g).Sessions g s.guard t t'

theorem Inside.start (hbase : base.root = none) :
    Inside nested base s g [] (.start base.reader location) { s with guard := g } where
  root := rfl
  started := ⟨fun _ => rfl, fun _ => rfl⟩
  alongside := by
    have hpaired : (ofGuard s g).Stacks base.stack (Builder.start base.reader location) base :=
      ⟨rfl, rfl, by rintro _ ⟨⟩, fun e rest h => by cases List.suffix_nil.mp h⟩
    refine ⟨base, s, rfl, ?_, .start (ofGuard s g)⟩
    exact ⟨hpaired, rfl, rfl, rfl, rfl, rfl, hbase, by rintro _ ⟨⟩⟩

theorem Inside.before_root {content : String} {place : Location} {events : List Event}
    (h : Inside nested' base s g events b t) (hstack : b.stack = [])
    (step : (b.step nested (.text content place)).perform t = (.ok b', u)) :
    Inside nested' base s g (events ++ [.text content place]) b' u := by
  have hevents := h.started.mp hstack
  have hnone : fromRoot (events ++ [.text content place]) = [] := by
    unfold fromRoot at hevents ⊢
    rw [List.dropWhile_append, hevents]
    rfl
  have hpure : b.text content = pure b := by
    unfold text
    rw [hstack]
  simp only [Builder.step, hpure, Reading.perform_pure, Prod.mk.injEq, Except.ok.injEq] at step
  obtain ⟨rfl, rfl⟩ := step
  refine ⟨h.root, by simp [hstack, hnone], ?_⟩
  rw [hnone, ← hevents]
  exact h.alongside

theorem Inside.event {events : List Event} {e : Event} (h : Inside nested' base s g events b t)
    (step : (b.step nested e).perform t = (.ok b', u))
    (hconcat : fromRoot events ≠ [] ∨ ∀ content place, e ≠ .text content place)
    (hfollows : ∀ c, (ofGuard s g).Spliced base b c →
      Reading.Follows ((ofGuard s g).Sessions g s.guard) (fun _ => True)
        (fun d d' => (ofGuard s g).Spliced base d d' ∧ d.stack ≠ [])
        (b.step nested e) (c.step nested' e)) :
    Inside nested' base s g (events ++ [e]) b' u := by
  obtain ⟨c, v, htake, hspliced, hsessions⟩ := h.alongside
  obtain ⟨c', v', hstep, ⟨hd, hne⟩, hsessions'⟩ := (hfollows c hspliced).ok_of_ok hsessions step
  refine ⟨hd.root, ?_, c', v', ?_, hd, hsessions'⟩
  · simp [fromRoot_concat hconcat, hne]
  · rw [fromRoot_concat hconcat, take_concat htake hspliced.root']
    exact hstep

/-- The outermost element ends, and its value goes to the element around it in the other builder. -/
theorem Inside.ended {events : List Event} {place : Location} {e : Element}
    (h : Inside nested' base s g events b t) (hbase : base.root = none) (hstack : b.stack = [e])
    (step : (b.step nested (.closed place)).perform t = (.ok b', u)) :
    ∃ v l, b'.root = some v ∧ u.guard = g ∧
      (base.take nested' (fromRoot (events ++ [.closed place]))).perform s =
        ((do return (← base.join v l).rooted v) : Reading Builder).perform
          { u with guard := s.guard } := by
  obtain ⟨c, w, htake, hspliced, hsessions⟩ := h.alongside
  obtain ⟨v, l, w', hroot, hw, hclosed⟩ := closed_outermost hspliced hbase (known_ofGuard s g)
    (rename_eq_self rfl) hsessions hstack step
  refine ⟨v, l, hroot, hw.guard, ?_⟩
  have hconcat : fromRoot (events ++ [.closed place]) = fromRoot events ++ [.closed place] :=
    fromRoot_concat (.inr (by rintro _ _ ⟨⟩))
  rw [hconcat, take_concat htake hspliced.root']
  rw [hw.eq_of_start rfl rfl] at hclosed
  exact hclosed

variable (nested') in
/-- Another builder takes the events of the outermost element of a document while the document is
read for an inclusion. When the element has ended, its value has gone to the element around it. -/
theorem Reached.spliced
    (h : Reached nested base.reader source location { s with guard := g } taken b t ahead)
    (hbase : base.root = none) (hplain : ∀ d ∈ taken, d.event.isIndependent = true) :
    Inside nested' base s g (taken.map Delivery.event) b t ∨
    ∃ v l, b.root = some v ∧ t.guard = g ∧
      (base.take nested' (fromRoot (taken.map Delivery.event))).perform s =
        ((do return (← base.join v l).rooted v) : Reading Builder).perform
          { t with guard := s.guard } := by
  induction h with
  | start => exact .inl (.start hbase)
  | @event taken b d u u₂ e ahead before step ih =>
    have he : e.isIndependent = true := hplain ⟨b, u, e⟩ (by simp)
    have hknown := known_ofGuard s g
    have hrename : ∀ o, (ofGuard s g).rename o = o := rename_eq_self rfl
    rcases ih fun d hd => hplain d (List.mem_append_left _ hd) with hinside | ⟨v, l, hroot, -⟩
    · rw [List.map_append, List.map_cons, List.map_nil]
      cases e with
      | opened name attributes place =>
        exact .inl (hinside.event step (.inr (by rintro _ _ ⟨⟩))
          fun c hc => follows_opened_spliced hc he)
      | text content place =>
        by_cases hstack : b.stack = []
        · exact .inl (hinside.before_root hstack step)
        · exact .inl (hinside.event step (.inl fun hnone => hstack (hinside.started.mpr hnone))
            fun c hc => follows_text_spliced hc hstack)
      | closed place =>
        cases hstack : b.stack with
        | nil =>
          simp only [Builder.step, closed, hstack, Reading.perform_fail, Prod.mk.injEq,
            reduceCtorEq, false_and] at step
        | cons el rest =>
          cases rest with
          | nil => exact .inr (hinside.ended hbase hstack step)
          | cons parent below =>
            exact .inl (hinside.event step (.inr (by rintro _ _ ⟨⟩)) fun c hc =>
              follows_closed_spliced hc hknown hrename hstack (by rintro ⟨⟩))
    · rw [before.root_eq_none] at hroot
      cases hroot
  | checkpoint before unfinished ih => exact ih hplain

/-- The element of an inclusion with nothing but a source opens with the document that is read there
and, when it ends, hands the root of the document on. -/
theorem take_inclusion (hb : b.root = none) (control : name.isIn controlQualifier = true)
    (tag : name.localName = "include") (source : a.isPlain "src" = true)
    (h : (b.take nested [.opened name [a] place, .closed place']).perform s = (.ok b', t)) :
    ∃ document u, (nested b.reader (Path.resolve a.value b.location)).perform s =
        (.ok document, u) ∧
      ((do return (← b.join document.root place).rooted document.root) : Reading Builder).perform u
        = (.ok b', t) := by
  have hsource : a.name.isIn controlQualifier = false ∧ a.isPlain "resources" = false := by
    simp only [Attribute.isPlain, Bool.and_eq_true, Option.isNone_iff_eq_none,
      decide_eq_true_eq] at source
    simp [QualifiedName.isIn, Attribute.isPlain, source]
  have htake : takeId [a] = .ok (none, [a]) := takeId_of_plain (by simpa using hsource.1)
  rw [take_cons hb] at h
  obtain ⟨d, u, hopen, hclose⟩ := Reading.bind_eq_ok.mp h
  obtain ⟨id, own, content, names, hid, hopens, hnames, rfl⟩ := opened_ok hopen
  rw [htake] at hid
  cases hid
  have hquiet : b.naming? (.opened name [a] place) = none := by
    simp only [naming?, htake, tag, String.reduceEq, and_false, if_false]
  rw [hquiet] at hnames
  cases hnames
  cases hopens with
  | object o plain => simp [control] at plain
  | composite o plain => simp [control] at plain
  | assignment plain => simp [control] at plain
  | script inline _ script => simp [tag] at script
  | inclusion source' reader document _ _ found same read =>
    have hfound : a.value = source' := by simpa [plainValue?, source] using found
    have hreader : reader = b.reader := same (by simp [plainValue?, hsource.2])
    refine ⟨document, u, ?_, ?_⟩
    · rw [hfound, ← hreader]
      exact read
    · rw [take_singleton (by exact hb), step, closed_eq rfl rfl] at hclose
      simpa [source, applyAttributes, settle, bindName] using hclose

/-- The elements of a document that is independent of its place do what its inclusion does. -/
theorem take_rootElement {text : List Char} (hb : b.root = none)
    (control : name.isIn controlQualifier = true) (tag : name.localName = "include")
    (source : a.isPlain "src" = true)
    (found : b.reader.textAt? (Path.resolve a.value b.location) = some text)
    (independent : ∀ e ∈ documentEvents (Text.dropMark text), e.isIndependent = true)
    (h : (b.take (Reader.readNested room) [.opened name [a] place, .closed place']).perform s =
      (.ok b', t)) :
    (b.take nested' (rootElement (Text.dropMark text))).perform s = (.ok b', t) := by
  obtain ⟨document, u, hread, hjoin⟩ := take_inclusion hb control tag source h
  cases room with
  | zero => cases hread
  | succ room =>
    obtain ⟨g, u, hguard, hbody, rfl⟩ := Reading.within_eq_ok.mp hread
    obtain ⟨bytes, _, hbytes, hrest⟩ := Reading.bind_eq_ok.mp hbody
    obtain ⟨hload, rfl⟩ := Reading.lift_eq_ok.mp hbytes
    obtain ⟨decoded, _, hdecoded, hparse⟩ := Reading.bind_eq_ok.mp hrest
    obtain ⟨hdecode, rfl⟩ := Reading.lift_eq_ok.mp hdecoded
    have htext : decoded = text := by
      simpa [Reader.textAt?, hload, hdecode, Except.toOption] using found
    subst htext
    obtain ⟨taken, d, ahead, hreached, -, hroot, -, -, hevents⟩ := parse_ok hparse
    rw [← hevents] at independent
    rcases hreached.spliced nested' hb (List.forall_mem_map.mp independent) with
      hinside | ⟨v, l, hv, hg, hspliced⟩
    · rw [hinside.root] at hroot
      cases hroot
    · rw [hroot] at hv
      cases hv
      have hleave : u.guard.leave (some (Path.resolve a.value b.location)) = s.guard := by
        rw [hg]
        exact Guard.leave_of_enter hguard
      rw [rootElement, ← hevents, hspliced]
      rw [hleave] at hjoin
      obtain ⟨c, w, hjoined, hret⟩ := Reading.bind_eq_ok.mp hjoin
      exact Reading.bind_eq_ok.mpr ⟨c, w, join_location l hjoined, hret⟩

end Builder

/-- An inclusion with nothing but a source may be replaced by the elements of the included document,
where these direct no reading and depend on no address and no name. The document that is read is the
same, and so are its objects and the attached properties that were set. -/
theorem inclusion_spliced (room : Nat) (r : Reader) (before after : List Event)
    (name : QualifiedName) (a : Attribute) (place place' ending : Location)
    (location : Option String) (text : List Char) (s t : Session) (d : Document)
    (control : name.isIn controlQualifier = true) (tag : name.localName = "include")
    (source : a.isPlain "src" = true)
    (found : r.textAt? (Path.resolve a.value location) = some text)
    (independent : ∀ e ∈ documentEvents (Text.dropMark text), e.isIndependent = true)
    (h : (r.readEvents (Reader.readNested room)
      (before ++ [.opened name [a] place, .closed place'] ++ after) location ending).perform s =
        (.ok d, t)) :
    (r.readEvents (Reader.readNested room)
      (before ++ rootElement (Text.dropMark text) ++ after) location ending).perform s =
        (.ok d, t) := by
  obtain ⟨b, u, htake, hfinish⟩ := Reading.bind_eq_ok.mp h
  refine Reading.bind_eq_ok.mpr ⟨b, u, ?_, hfinish⟩
  rw [Builder.take_append, Builder.take_append] at htake ⊢
  obtain ⟨b₂, s₂, htake₂, hafter⟩ := Reading.bind_eq_ok.mp htake
  obtain ⟨b₁, s₁, hbefore, hinclusion⟩ := Reading.bind_eq_ok.mp htake₂
  refine Reading.bind_eq_ok.mpr ⟨b₂, s₂, Reading.bind_eq_ok.mpr ⟨b₁, s₁, hbefore, ?_⟩, hafter⟩
  obtain ⟨hreader, hlocation⟩ := Builder.take_kept hbefore
  cases hroot : b₁.root with
  | some v =>
    -- The root was complete before the inclusion, which is not read in either case.
    have hfinished : b₁.finished = true := by simp [Builder.finished, hroot]
    rw [Builder.take_of_finished hfinished] at hinclusion ⊢
    exact hinclusion
  | none =>
    refine Builder.take_rootElement hroot control tag source ?_ independent hinclusion
    rw [hreader, hlocation]
    exact found

/-- A map that a list includes, and the map written into the list. -/
theorem inclusion_spliced_of_map :
    let text := "<HashMap xmlns='wtkx.collections' a='b'/>"
    let r := Reader.ofLibrary (Library.empty.addText "c" text)
    let source := "<ArrayList xmlns='wtkx.collections'><wtkx:include src='c'/></ArrayList>".toList
    let list : QualifiedName := ⟨none, "ArrayList", some "wtkx.collections"⟩
    ∃ d t, (r.parse (Reader.readNested 1) source none).perform .initial = (.ok d, t) ∧
      (r.readEvents (Reader.readNested 1) ([.opened list [] ⟨1, 1⟩] ++
        rootElement (Text.dropMark text.toList) ++ [.closed ⟨1, 60⟩]) none ⟨1, 72⟩).perform
          .initial = (.ok d, t) := by
  intro text r source list
  have hsome : ((r.parse (Reader.readNested 1) source none).perform .initial).1.toOption.isSome =
      true := by
    decide +kernel
  have hevents : documentEvents (Text.dropMark source) = [.opened list [] ⟨1, 1⟩] ++
      [.opened ⟨some "wtkx", "include", none⟩ [⟨⟨none, "src", none⟩, "c"⟩] ⟨1, 37⟩,
        .closed ⟨1, 37⟩] ++ [.closed ⟨1, 60⟩] := by
    decide +kernel
  have hfound : r.textAt? (Path.resolve "c" none) = some text.toList := by
    decide +kernel
  have hindependent : ∀ e ∈ documentEvents (Text.dropMark text.toList),
      e.isIndependent = true := by
    decide +kernel
  clear_value r source list text
  rcases hread : (r.parse (Reader.readNested 1) source none).perform .initial with ⟨e | d, t⟩
  · rw [hread] at hsome
    cases hsome
  · have hall := (Reader.parse_eq_ok_iff ⟨1, 72⟩).mp hread
    rw [hevents] at hall
    have hcontrol : (⟨some "wtkx", "include", none⟩ : QualifiedName).isIn controlQualifier = true :=
      by decide
    have hsource : (⟨⟨none, "src", none⟩, "c"⟩ : Attribute).isPlain "src" = true := by decide
    exact ⟨d, t, rfl, inclusion_spliced 1 r _ _ _ _ _ _ _ none _ _ t d hcontrol rfl hsource hfound
      hindependent hall⟩

end ObjectMarkup
