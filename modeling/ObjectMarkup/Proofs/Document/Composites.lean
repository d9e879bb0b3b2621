import ObjectMarkup.Demo.Objects
import ObjectMarkup.Proofs.Document.AttachedOwner
import ObjectMarkup.Proofs.Document.Parts
import ObjectMarkup.Proofs.Document.Trailing

namespace ObjectMarkup

open Markup

namespace Builder

variable {nested : Reader → String → Reading Document} {r : Reader} {source : List Char}
  {location : Option String} {s t u : Session} {taken : List Delivery} {b b' : Builder}
  {ahead : List Signal} {d : Document} {e : Element} {a : Attribute} {o : ObjectId}
  {name : QualifiedName} {attributes : List Attribute} {place : Location}

/-- An attribute that waits for the end of an open element names a composite of its object. -/
structure NamesComposite (b : Builder) (h : Heap) (e : Element) (a : Attribute) : Prop where
  element : e ∈ b.stack
  pending : a ∈ e.pending
  plain : a.isAttached = false
  composite : ∃ o, e.value = .object o ∧
    propertyKind? (h.object o) a.name.localName = some .composite

/-- A tag that is next would start the element of a property of `o` that is filled in place, inside
the element of that object. -/
structure StartsInPlace (b : Builder) (h : Heap) (o : ObjectId) (name : QualifiedName) : Prop where
  plain : name.isIn controlQualifier = false
  lower : Unicode.startsUppercase name.localName = false
  holder : b.stack.head?.bind Element.holder? = some o
  kind : ∃ kind, propertyKind? (h.object o) name.localName = some kind ∧ kind.isInPlace = true

/-- The element of a property that is filled in place stands for the object that the getter
yields. -/
theorem StartsInPlace.opened_ok (hs : b.StartsInPlace s.heap o name)
    (h : (b.opened nested name attributes place).perform s = (.ok b', t)) :
    ∃ closing part, (s.heap.object o).get? name.localName = some (.object part) ∧
      b' = b.push ⟨name, place, .composite part closing⟩ ∧ t = s := by
  obtain ⟨⟨id, own⟩, u, hlift, hopen⟩ := Reading.bind_eq_ok.mp h
  obtain ⟨-, rfl⟩ := Reading.lift_eq_ok.mp hlift
  dsimp only at hopen
  rw [if_neg (by simp [hs.plain]), if_neg (by simp [hs.lower])] at hopen
  unfold openProperty at hopen
  rw [hs.holder] at hopen
  obtain ⟨heap, u, hheap, hrest⟩ := Reading.bind_eq_ok.mp hopen
  cases hheap
  extract_lets object inPlace at hrest
  have hin : inPlace = true := by
    obtain ⟨kind, hkind, hplace⟩ := hs.kind
    simp only [inPlace, object, hkind]
    cases kind <;> first | rfl | cases hplace
  rw [if_pos hin] at hrest
  split at hrest
  · rename_i part hpart
    cases hrest
    obtain ⟨v, hv, hpart⟩ := Option.bind_eq_some_iff.mp hpart
    exact ⟨⟨id, own⟩, part, hv.trans (congrArg some (Value.eq_of_object? hpart)), rfl, rfl⟩
  · cases hrest

theorem applyProperty_ok_kind {c : Context} (h : (applyProperty c o a).perform s = (.ok (), t)) :
    propertyKind? (s.heap.object o) a.name.localName ≠ some .composite := by
  intro hkind
  unfold applyProperty at h
  obtain ⟨heap, u, hheap, hrest⟩ := Reading.bind_eq_ok.mp h
  cases hheap
  dsimp only at hrest
  cases haccess : (s.heap.object o).access? with
  | none => simp [propertyKind?, haccess] at hkind
  | some access =>
    have hkind : (access.descriptor? a.name.localName).map PropertyDescriptor.kind =
        some .composite := by
      simpa [propertyKind?, haccess] using hkind
    simp only [haccess, hkind] at hrest
    cases hrest

/-- The attributes of an element are all applied only if none names a composite. -/
theorem applyAll_ok_kind (h : (b.applyAll e o attributes).perform s = (.ok (), t))
    (ha : a ∈ attributes) (hplain : a.isAttached = false) :
    propertyKind? (s.heap.object o) a.name.localName ≠ some .composite := by
  induction attributes generalizing s with
  | nil => cases ha
  | cons first rest ih =>
    obtain ⟨⟨⟩, u, hfirst, hrest⟩ := Reading.bind_eq_ok.mp h
    rcases List.mem_cons.mp ha with rfl | ha
    · unfold applyAttribute at hfirst
      rw [if_neg (by simpa [Attribute.isAttached] using hplain)] at hfirst
      exact applyProperty_ok_kind hfirst
    · intro hkind
      have hedits : s.heap.Edits u.heap := (edits_applyAttribute o first).of_ok hfirst
      refine ih hrest ha ?_
      rw [(hedits.keeps.object o (Heap.lt_size_of_kind hkind)).kind_eq]
      exact hkind

/-- The end of an element is refused while an attribute of it names a composite. -/
theorem closed_ok_kind {rest : List Element} (hstack : b.stack = e :: rest)
    (h : (b.closed place).perform s = (.ok b', t)) (ha : a ∈ e.pending)
    (hplain : a.isAttached = false) (hvalue : e.value = .object o) :
    propertyKind? (s.heap.object o) a.name.localName ≠ some .composite := by
  cases hclosing : e.closing? with
  | none => simp [Element.pending, hclosing] at ha
  | some closing =>
    have ha : a ∈ closing.attributes := by simpa [Element.pending, hclosing] using ha
    rw [closed_eq hstack hclosing] at h
    obtain ⟨⟨⟩, u, happly, -⟩ := Reading.bind_eq_ok.mp h
    unfold applyAttributes at happly
    rw [if_neg (by simpa using List.ne_nil_of_mem ha), hvalue] at happly
    exact applyAll_ok_kind happly ha hplain

theorem Retouched.mem_of_mem {stack stack' : List Element} (h : Retouched stack stack')
    (he : e ∈ stack) (hclosing : e.closing?.isSome) : e ∈ stack' := by
  cases h with
  | same => exact he
  | assignment new was =>
    rcases List.mem_cons.mp he with rfl | he
    · simp [Element.closing?, was] at hclosing
    · exact List.mem_cons_of_mem _ he
  | script body was =>
    rcases List.mem_cons.mp he with rfl | he
    · simp [Element.closing?, was] at hclosing
    · exact List.mem_cons_of_mem _ he

namespace Reached

/-- From every moment of a read that succeeds the signals ahead lead to its end. -/
theorem deliver_ok (h : Reached nested r source location s taken b t ahead)
    (hparse : (r.parse nested source location).perform s = (.ok d, u)) :
    ∃ c, (Markup.deliver (fun b e => Builder.step nested b e) Builder.finished
        (fun _ f => .fail (.markup f)) ahead b : Reading Builder).perform t = (.ok c, u) ∧
      c.stack = [] := by
  unfold Reader.parse at hparse
  dsimp only at hparse
  obtain ⟨c, u', hdeliver, hfinish⟩ := Reading.bind_eq_ok.mp hparse
  obtain ⟨hfinished, rfl⟩ := Reading.lift_eq_ok.mp hfinish
  exact ⟨c, h.deliver_eq.symm.trans hdeliver, (finish_eq_ok.mp hfinished).1⟩

theorem step_ok {event : Event}
    (h : Reached nested r source location s taken b t (.event event :: ahead))
    (hparse : (r.parse nested source location).perform s = (.ok d, u)) :
    ∃ c v, (b.step nested event).perform t = (.ok c, v) := by
  obtain ⟨c, hdeliver, -⟩ := h.deliver_ok hparse
  obtain ⟨c, v, hstep, -⟩ := Reading.bind_eq_ok.mp hdeliver
  exact ⟨c, v, hstep⟩

/-- In a read that succeeds each open element ends. What steps keep is then still so. -/
theorem comes_to_end {P : Session → Prop}
    (hsteps : ∀ (b : Builder) event t c v, (b.step nested event).perform t = (.ok c, v) → P t → P v)
    (h : Reached nested r source location s taken b t ahead)
    (hparse : (r.parse nested source location).perform s = (.ok d, u)) (he : e ∈ b.stack)
    (hclosing : e.closing?.isSome) (ht : P t) :
    ∃ (b₁ : Builder) (v v' : Session) (place : Location) (rest : List Element) (c : Builder),
      b₁.stack = e :: rest ∧ (b₁.closed place).perform v = (.ok c, v') ∧ P v := by
  induction ahead generalizing taken b t with
  | nil =>
    obtain ⟨c, hdeliver, hend⟩ := h.deliver_ok hparse
    cases hdeliver
    rw [hend] at he
    cases he
  | cons signal rest ih =>
    cases signal with
    | event event =>
      obtain ⟨c, v, hstep⟩ := h.step_ok hparse
      have hv := hsteps _ _ _ _ _ hstep ht
      cases event with
      | opened name attributes place =>
        obtain ⟨id, own, content, names, -, -, -, rfl⟩ := Builder.opened_ok hstep
        exact ih (h.event hstep) (List.mem_cons_of_mem _ he) hv
      | text content place =>
        obtain ⟨stack, hr, rfl⟩ := text_ok hstep
        exact ih (h.event hstep) (hr.mem_of_mem he hclosing) hv
      | closed place =>
        obtain ⟨ended, below, stack, names, hstack, hr, -, hc⟩ := closed_ok hstep
        rw [hstack] at he
        rcases List.mem_cons.mp he with rfl | he
        · exact ⟨b, t, v, place, below, c, hstack, hstep, ht⟩
        · subst hc
          exact ih (h.event hstep) (hr.mem_of_mem he hclosing) hv
    | checkpoint =>
      have hunrooted : b.root = none := h.root_eq_none_of_open (List.ne_nil_of_mem he)
      exact ih (h.checkpoint (by rw [finished, hunrooted]; rfl)) he ht
    | fault f =>
      obtain ⟨c, hdeliver, -⟩ := h.deliver_ok hparse
      cases hdeliver

end Reached

end Builder

namespace Visit

open Builder (Reached)

variable {first v w : Visit} {outers : List Visit} {d : Document} {t u : Session} {e : Element}
  {a : Attribute} {o : ObjectId} {taken : List Delivery} {b : Builder} {ahead : List Signal}
  {name : QualifiedName} {attributes : List Attribute} {place : Location}

/-- No document that has been read has come to an attribute that names a composite. -/
theorem not_namesComposite_of_run
    (h : Reached Reader.read v.reader v.text v.location v.session taken b u ahead)
    (hrun : v.run = (.ok d, t)) : ¬b.NamesComposite u.heap e a := by
  rintro ⟨helement, hpending, hplain, o, hvalue, hkind⟩
  have hclosing : e.closing?.isSome := by
    cases hclosing : e.closing? with
    | none => simp [Element.pending, hclosing] at hpending
    | some closing => rfl
  -- The object is there, and its properties stay of their kinds until the element ends.
  have hsteps : ∀ (b : Builder) event t c v, (b.step Reader.read event).perform t = (.ok c, v) →
      Builder.propertyKind? (t.heap.object o) a.name.localName = some .composite →
      Builder.propertyKind? (v.heap.object o) a.name.localName = some .composite := by
    intro b event t c v hstep hkind
    have hkeeps : t.heap.Keeps v.heap := (Builder.keeps_step event).of_ok hstep
    rw [(hkeeps.object o (Heap.lt_size_of_kind hkind)).kind_eq]
    exact hkind
  obtain ⟨b₁, v₁, v₂, place, rest, c, hstack, hclosed, hkind⟩ :=
    h.comes_to_end hsteps hrun helement hclosing hkind
  exact Builder.closed_ok_kind hstack hclosed hpending hplain hvalue hkind

/-- In a document that has been read the getter yields an object wherever a property is filled in
place. -/
theorem get_of_startsInPlace
    (h : Reached Reader.read v.reader v.text v.location v.session taken b u
      (.event (.opened name attributes place) :: ahead))
    (hrun : v.run = (.ok d, t)) (hs : b.StartsInPlace u.heap o name) :
    ∃ part, (u.heap.object o).get? name.localName = some (.object part) := by
  obtain ⟨c, u', hstep⟩ := h.step_ok hrun
  obtain ⟨closing, part, hget, -⟩ := hs.opened_ok hstep
  exact ⟨part, hget⟩

/-- A document that has been read has read each document that it entered. -/
theorem Enters.run_ok (h : v.Enters w) (hrun : v.run = (.ok d, t)) :
    ∃ d' t', w.run = (.ok d', t') := by
  cases h with
  | @intro u i reader guard text asks entered found =>
    obtain ⟨taken, b, e, ahead, hi, hreached⟩ := asks.moment
    obtain ⟨c, u', hstep⟩ := hreached.step_ok hrun
    obtain ⟨reader', d', -, -, -, hasks, hread, -⟩ := inclusion_ok hi hreached hstep
    have hreader := hasks.reader
    rw [asks.reader, Except.ok.injEq] at hreader
    subst hreader
    rw [Reader.read_eq_readSource] at hread
    obtain ⟨guard', text', t', hguard, htext, hparse⟩ := Reader.readSource_ok hread
    rw [entered, Except.ok.injEq] at hguard
    have hfound := asks.textAt_of_sourceAt htext
    rw [found, Option.some.injEq] at hfound
    subst hguard hfound
    exact ⟨d', t', hparse⟩

theorem Trail.run_ok (h : Trail first outers v) (hrun : first.run = (.ok d, t)) :
    ∃ d' t', v.run = (.ok d', t') := by
  induction h with
  | first => exact ⟨d, t, hrun⟩
  | enters around enters ih =>
    obtain ⟨d', t', hv⟩ := ih
    exact enters.run_ok hv

end Visit

variable {r : Reader} {location : Option String} {source : Except ReadError (List Char)}
  {x : Reading Document} {s : Session}

/-- What a read makes of the objects is what the run of the first document makes of them. -/
theorem Reader.Entry.heap_eq {text : List Char} (h : r.Entry location (.ok text) x)
    (hs : s.guard = .idle) :
    (x.perform s).2.heap = (Visit.first r location text s).run.2.heap := by
  rw [h.perform_eq]
  unfold readSource
  rw [Reading.perform_within, enter_idle hs]
  rfl

/-- A read fails if a document that is open in it cannot have been read. -/
theorem Reader.Entry.fails_of_trail {text : List Char} (h : r.Entry location (.ok text) x)
    (hs : s.guard = .idle) {outers : List Visit} {v : Visit}
    (trail : Visit.Trail (.first r location text s) outers v)
    (hno : ∀ d t, v.run ≠ (.ok d, t)) : ∃ error t, x.perform s = (.error error, t) := by
  rcases hx : x.perform s with ⟨error | d, t⟩
  · exact ⟨error, t, rfl⟩
  · obtain ⟨text', u, htext, hrun⟩ := h.run_ok hs hx
    cases htext
    obtain ⟨d', t', hv⟩ := trail.run_ok hrun
    exact absurd hv (hno d' t')

theorem Reader.Entry.heap_of_error {error : ReadError} (h : r.Entry location (.error error) x)
    (hs : s.guard = .idle) : (x.perform s).2.heap = s.heap := by
  rw [h.perform_eq]
  unfold readSource
  rw [Reading.perform_within, enter_idle hs]
  rfl

/-- Composites and lists of listeners are filled in place, for every way to start reading when no
document is open. In every session of every document that is opened, and in every heap that changes
to its objects lead to, each object that the read has made was made at a start tag, and the getter
of a composite or a list of listeners yields what it did then. Where an attribute waits that names a
composite, the read fails. The element of a composite or a list of listeners stands for the object
that the getter yields, and where it yields none, the read fails. -/
theorem composites_kept (h : r.Entry location source x) (hs : s.guard = .idle) :
    (∀ error, source = .error error → (x.perform s).2.heap = s.heap) ∧
    ∀ text, source = .ok text →
      (x.perform s).2.heap = (Visit.first r location text s).run.2.heap ∧
      ∀ outers v, Visit.Trail (.first r location text s) outers v →
        (∀ u, v.Passes u → ∀ heap, u.heap.Edits heap →
          ∀ o, s.heap.size ≤ o.index → o.index < heap.size →
            ∃ new, (Visit.first r location text s).Made o new ∧ new.SameParts (heap.object o)) ∧
        ∀ taken b u ahead,
          Builder.Reached Reader.read v.reader v.text v.location v.session taken b u ahead →
          (∀ e a, b.NamesComposite u.heap e a → ∃ error t, x.perform s = (.error error, t)) ∧
          ∀ name attributes place rest o, ahead = .event (.opened name attributes place) :: rest →
            b.StartsInPlace u.heap o name →
            (∀ c t, (b.step Reader.read (.opened name attributes place)).perform u = (.ok c, t) →
              ∃ closing part, (u.heap.object o).get? name.localName = some (.object part) ∧
                c = b.push ⟨name, place, .composite part closing⟩ ∧ t = u) ∧
            ((∀ part, (u.heap.object o).get? name.localName ≠ some (.object part)) →
              ∃ error t, x.perform s = (.error error, t)) := by
  constructor
  · rintro error rfl
    exact h.heap_of_error hs
  rintro text rfl
  refine ⟨h.heap_eq hs, fun outers v trail => ⟨?_, fun taken b u ahead hreached => ⟨?_, ?_⟩⟩⟩
  · intro u hu heap hedits o hfirst ho
    obtain ⟨new, hmade, hkeeps⟩ := (trail.accounted hu).edits hedits o hfirst ho
    exact ⟨new, hmade, hkeeps.sameParts⟩
  · intro e a hnames
    exact h.fails_of_trail hs trail fun d t hrun =>
      Visit.not_namesComposite_of_run hreached hrun hnames
  · rintro name attributes place rest o rfl hstarts
    refine ⟨fun c t hstep => hstarts.opened_ok hstep, fun hmissing => ?_⟩
    refine h.fails_of_trail hs trail fun d t hrun => ?_
    obtain ⟨part, hpart⟩ := Visit.get_of_startsInPlace hreached hrun hstarts
    exact hmissing part hpart

/-- The moment after the first event, and what is so there. -/
theorem Builder.Reached.exists_first (nested : Reader → String → Reading Document) (r : Reader)
    (location : Option String) (s : Session) {source : List Char} {event : Event}
    {ahead : List Signal} (hsignals : signals (Text.dropMark source) = .event event :: ahead)
    (p : Builder → Session → Prop) [∀ b t, Decidable (p b t)]
    (hp : (match ((Builder.start r location).step nested event).perform s with
      | (.ok b, t) => decide (p b t)
      | (.error _, _) => false) = true) :
    ∃ taken b t, p b t ∧ Reached nested r source location s taken b t ahead := by
  have hstart : Reached nested r source location s [] (.start r location) s
      (.event event :: ahead) := hsignals ▸ .start
  rcases hstep : ((Builder.start r location).step nested event).perform s with ⟨error | b, t⟩
  · rw [hstep] at hp
    cases hp
  · rw [hstep] at hp
    exact ⟨_, b, t, of_decide_eq_true hp, hstart.event hstep⟩

/-- A style that is filled in place, one that an attribute names, and a skin that is not there. -/
theorem composites_kept_of_widgets :
    let r := { Reader.plain with environment.types := Demo.types }
    let filled := "<Foo xmlns='demo'><style color='red'/><listeners/></Foo>"
    let named := "<Foo xmlns='demo' style='x'/>"
    let missing := "<Hollow xmlns='demo'><skin/></Hollow>"
    (∃ d t new, (r.readText filled).perform .initial = (.ok d, t) ∧
      (Visit.first r none filled.toList .initial).Made ⟨0⟩ new ∧
      new.get? "style" = some (.object ⟨1⟩) ∧
      (t.heap.object ⟨0⟩).get? "style" = some (.object ⟨1⟩)) ∧
    (∃ taken b u ahead e a, Builder.Reached Reader.read r named.toList none
        (Visit.first r none named.toList .initial).session taken b u ahead ∧
      b.NamesComposite u.heap e a) ∧
    (∃ error t, (r.readText named).perform .initial = (.error error, t)) ∧
    (∃ taken b u name attributes place rest, Builder.Reached Reader.read r missing.toList none
        (Visit.first r none missing.toList .initial).session taken b u
        (.event (.opened name attributes place) :: rest) ∧
      b.StartsInPlace u.heap ⟨0⟩ name ∧ (u.heap.object ⟨0⟩).get? name.localName = some .null) ∧
    ∃ error t, (r.readText missing).perform .initial = (.error error, t) := by
  intro r filled named missing
  have hfilled : ((r.readText filled).perform .initial).1.toOption.isSome = true ∧
      0 < ((r.readText filled).perform .initial).2.heap.size ∧
      Builder.propertyKind? (((r.readText filled).perform .initial).2.heap.object ⟨0⟩) "style" =
        some .composite ∧
      (((r.readText filled).perform .initial).2.heap.object ⟨0⟩).get? "style" =
        some (.object ⟨1⟩) := by
    decide +kernel
  have hnamed : signals (Text.dropMark named.toList) =
      [.event (.opened ⟨none, "Foo", some "demo"⟩ [⟨⟨none, "style", none⟩, "x"⟩] ⟨1, 1⟩),
        .event (.closed ⟨1, 1⟩), .checkpoint] := by
    decide +kernel
  have hmissing : signals (Text.dropMark missing.toList) =
      [.event (.opened ⟨none, "Hollow", some "demo"⟩ [] ⟨1, 1⟩), .checkpoint,
        .event (.opened ⟨none, "skin", some "demo"⟩ [] ⟨1, 22⟩), .event (.closed ⟨1, 22⟩),
        .checkpoint, .event (.closed ⟨1, 29⟩), .checkpoint] := by
    decide +kernel
  obtain ⟨taken, b, u, ⟨hhead, hcomposite⟩, hreached⟩ :=
    Builder.Reached.exists_first Reader.read r none
      (Visit.first r none named.toList .initial).session hnamed
      (fun c u => c.stack.head?.any (fun e =>
          e.value = .object ⟨0⟩ ∧ ⟨⟨none, "style", none⟩, "x"⟩ ∈ e.pending) = true ∧
        Builder.propertyKind? (u.heap.object ⟨0⟩) "style" = some .composite)
      (by decide +kernel)
  obtain ⟨e, he, hwaits⟩ : ∃ e, b.stack.head? = some e ∧
      (e.value = .object ⟨0⟩ ∧ ⟨⟨none, "style", none⟩, "x"⟩ ∈ e.pending) := by
    cases he : b.stack.head? <;> simp_all
  have hnames : b.NamesComposite u.heap e ⟨⟨none, "style", none⟩, "x"⟩ :=
    ⟨List.mem_of_mem_head? he, hwaits.2, by decide, _, hwaits.1, hcomposite⟩
  obtain ⟨taken', b', u', ⟨hroot, hholder, hskin, hnull⟩, hreached'⟩ :=
    Builder.Reached.exists_first Reader.read r none
      (Visit.first r none missing.toList .initial).session hmissing
      (fun c u => c.finished = false ∧ c.stack.head?.bind Element.holder? = some ⟨0⟩ ∧
        Builder.propertyKind? (u.heap.object ⟨0⟩) "skin" = some .composite ∧
        (u.heap.object ⟨0⟩).get? "skin" = some .null)
      (by decide +kernel)
  have hstarts : b'.StartsInPlace u'.heap ⟨0⟩ ⟨none, "skin", some "demo"⟩ :=
    ⟨by decide, by decide, hholder, _, hskin, rfl⟩
  have hskin := hreached'.checkpoint hroot
  clear_value r
  obtain ⟨hok, hsize, hkind, hget⟩ := hfilled
  obtain ⟨hheap, hpasses⟩ := (composites_kept (s := .initial) (.text filled) rfl).2 _ rfl
  obtain ⟨-, hnamedRead⟩ := (composites_kept (s := .initial) (.text named) rfl).2 _ rfl
  obtain ⟨-, hmissingRead⟩ := (composites_kept (s := .initial) (.text missing) rfl).2 _ rfl
  refine ⟨?_, ⟨_, b, u, _, e, _, hreached, hnames⟩,
    ((hnamedRead [] _ .first).2 _ _ _ _ hreached).1 e _ hnames,
    ⟨_, b', u', _, _, _, _, hskin, hstarts, hnull⟩,
    (((hmissingRead [] _ .first).2 _ _ _ _ hskin).2 _ _ _ _ _ rfl hstarts).2 ?_⟩
  · rw [hheap] at hsize hkind hget
    obtain ⟨new, hmade, hsame⟩ :=
      (hpasses [] _ .first).1 _ .ending _ (refl _) ⟨0⟩ (Nat.zero_le _) hsize
    have hkept := hsame.get "style" _ ((hsame.kind "style").symm.trans hkind) rfl
    rcases hread : (r.readText filled).perform .initial with ⟨error | d, t⟩
    · rw [hread] at hok
      cases hok
    · rw [hread] at hheap
      refine ⟨d, t, new, rfl, hmade, hkept.symm.trans hget, ?_⟩
      rw [show t.heap = _ from hheap]
      exact hget
  · intro part hpart
    rw [hnull] at hpart
    cases hpart

end ObjectMarkup
