import ObjectMarkup.Proofs.Document.Assigned
import ObjectMarkup.Proofs.Document.Take

namespace ObjectMarkup

open Markup

def Naming.runAll (names : Registry) (changes : List Naming) : Except ScriptError Registry :=
  changes.foldlM Naming.run names

/-- The changes to the names that the events taken have brought, in order. -/
def namings (taken : List Delivery) : List Naming :=
  taken.filterMap fun d => d.builder.naming? d.event

def Delivery.ended? (d : Delivery) : Option Element :=
  match d.event with
  | .closed _ => d.builder.stack.head?
  | _ => none

/-- The elements that have ended, in order, each as it was when it ended. -/
def endedElements (taken : List Delivery) : List Element := taken.filterMap Delivery.ended?

theorem endedElements_append (taken : List Delivery) (d : Delivery) :
    endedElements (taken ++ [d]) = endedElements taken ++ d.ended?.toList := by
  rw [endedElements, List.filterMap_append]
  cases hd : d.ended? <;> simp [endedElements, hd]

def lastNamed? (id : String) (elements : List Element) : Option Element :=
  (elements.filter fun e => e.id? = some id).getLast?

namespace Markup.Event

def startsScript : Event → Bool
  | .opened name _ _ => name.isIn controlQualifier && name.localName = "script"
  | _ => false

def id? : Event → Option String
  | .opened _ attributes _ =>
    match takeId attributes with
    | .ok (id, _) => id
    | .error _ => none
  | _ => none

end Markup.Event

/-- The names after the end of an element that is no script. -/
def Element.bind (names : Registry) (e : Element) : Registry :=
  match e.id?, e.names? with
  | none, _ => names
  | some id, none => names.put id e.value
  | some id, some inner => names.bindInclude id e.value inner

namespace Builder

/-- What is left to do at the end of an element when its attributes have been applied. Its name is
bound first. -/
def settle (b : Builder) (e : Element) : Reading Builder :=
  match e.content with
  | .created object closing => do
    let b ← (b.bindName closing.id (.object object) none).join (.object object) e.location
    return b.rooted (.object object)
  | .included root names closing => do
    let b ← (b.bindName closing.id root (some names)).join root e.location
    return b.rooted root
  | .composite object closing =>
    return (b.bindName closing.id (.object object) none).rooted (.object object)
  | _ => return b

variable {nested : Reader → String → Reading Document} {r : Reader} {source : List Char}
  {location : Option String} {s t t' : Session} {taken : List Delivery} {b b' : Builder}
  {ahead : List Signal} {e : Event}

/-- The attributes of an element are applied while its own name is not bound yet. -/
theorem closed_eq {element : Element} {rest : List Element} {closing : Closing}
    (hstack : b.stack = element :: rest) (hclosing : element.closing? = some closing)
    (place : Location) :
    b.closed place = (do
      ({ b with stack := rest }).applyAttributes element closing.attributes
      ({ b with stack := rest }).settle element) := by
  unfold closed settle
  unfold Element.closing? at hclosing
  cases hc : element.content with
  | created o c =>
    simp only [hc, Option.some.injEq] at hclosing
    simp only [hstack, hc, hclosing]
  | included root names c =>
    simp only [hc, Option.some.injEq] at hclosing
    simp only [hstack, hc, hclosing]
  | composite o c =>
    simp only [hc, Option.some.injEq] at hclosing
    simp only [hstack, hc, hclosing]
  | assignment v => simp [hc] at hclosing
  | script inline => simp [hc] at hclosing

theorem settle_access {element : Element} (h : (b.settle element).perform s = (.ok b', t)) :
    s.heap.SameAccess t.heap := by
  unfold settle at h
  split at h
  · obtain ⟨c, u, hjoin, hret⟩ := Reading.bind_eq_ok.mp h
    cases hret
    exact join_access hjoin
  · obtain ⟨c, u, hjoin, hret⟩ := Reading.bind_eq_ok.mp h
    cases hret
    exact join_access hjoin
  · cases h
    exact .refl _
  · cases h
    exact .refl _

/-- When an element has ended, its object holds what its attributes stood for when it did. -/
theorem closed_assigns {element : Element} {rest : List Element} {closing : Closing}
    {place : Location} {o : ObjectId} {name : String} (hstack : b.stack = element :: rest)
    (hclosing : element.closing? = some closing) (ho : element.value.object? = some o)
    (hname : propertyKind? (s.heap.object o) name ≠ some .listenerList)
    (h : (b.closed place).perform s = (.ok b', t)) :
    ({ b with stack := rest }).context.Assigns (lastAssigning? name closing.attributes) name
      (s.heap.object o) (t.heap.object o) := by
  rw [closed_eq hstack hclosing] at h
  obtain ⟨⟨⟩, u, happly, hsettle⟩ := Reading.bind_eq_ok.mp h
  exact (applyAttributes_assigns happly ho hname).of_get? (Object.get?_of_access (settle_access hsettle o) name)

theorem Retouched.mem_of_closing {stack stack' : List Element} (h : Retouched stack stack')
    {e : Element} (he : e ∈ stack') (hclosing : e.closing?.isSome) : e ∈ stack := by
  cases h with
  | same => exact he
  | assignment new was =>
    rcases List.mem_cons.mp he with rfl | he
    · cases hclosing
    · exact List.mem_cons_of_mem _ he
  | script body was =>
    rcases List.mem_cons.mp he with rfl | he
    · cases hclosing
    · exact List.mem_cons_of_mem _ he

/-- An element that waits to apply attributes, or has done so, is as its start tag put it on the
stack. -/
theorem Reached.pushed (h : Reached nested r source location s taken b t ahead) :
    ∀ e : Element, e ∈ b.stack ∨ e ∈ endedElements taken → e.closing?.isSome →
      ∃ d ∈ taken, ∃ attributes c u, d.event = .opened e.name attributes e.location ∧
        (d.builder.step nested d.event).perform d.session = (.ok c, u) ∧
        c.stack = e :: d.builder.stack := by
  induction h with
  | start =>
    intro e he
    rcases he with he | he
    · cases he
    · cases he
  | @event taken b b' u u' event ahead before step ih =>
    intro e he hclosing
    -- what an earlier event has put there is still known of the longer history
    have earlier : e ∈ b.stack ∨ e ∈ endedElements taken →
        ∃ d ∈ taken ++ [⟨b, u, event⟩], ∃ attributes c u,
          d.event = .opened e.name attributes e.location ∧
          (d.builder.step nested d.event).perform d.session = (.ok c, u) ∧
          c.stack = e :: d.builder.stack := by
      intro he
      obtain ⟨d, hd, rest⟩ := ih e he hclosing
      exact ⟨d, List.mem_append_left _ hd, rest⟩
    rw [endedElements_append] at he
    cases event with
    | opened name attributes place =>
      obtain ⟨own, plain, content, names, htake, hopens, -, hb⟩ := opened_ok step
      simp only [Delivery.ended?, Option.toList_none, List.append_nil] at he
      rcases he with he | he
      · rw [hb] at he
        rcases List.mem_cons.mp he with rfl | he
        · exact ⟨⟨b, u, .opened name attributes place⟩, by simp, attributes, b', u', rfl, step,
            by rw [hb]⟩
        · exact earlier (.inl he)
      · exact earlier (.inr he)
    | text content place =>
      obtain ⟨stack, hr, rfl⟩ := text_ok step
      simp only [Delivery.ended?, Option.toList_none, List.append_nil] at he
      exact earlier (he.imp_left fun he => hr.mem_of_closing he hclosing)
    | closed place =>
      obtain ⟨el, rest, stack, names, hel, hr, -, rfl⟩ := closed_ok step
      simp only [Delivery.ended?, hel, List.head?_cons, Option.toList_some, List.mem_append,
        List.mem_singleton] at he
      rw [hel] at earlier
      rcases he with he | he | rfl
      · exact earlier (.inl (List.mem_cons_of_mem _ (hr.mem_of_closing he hclosing)))
      · exact earlier (.inr he)
      · exact earlier (.inl List.mem_cons_self)
  | checkpoint before unfinished ih => exact ih

theorem Retouched.countP_eq {stack stack' : List Element} (h : Retouched stack stack')
    (id : String) : (stack'.countP fun e => e.id? = some id) =
      stack.countP fun e => e.id? = some id := by
  rw [List.countP_eq_length_filter, List.countP_eq_length_filter, h.filter_eq]
  intro e he
  simp [of_decide_eq_true he]

theorem Opens.id_eq {name : QualifiedName} {closing : Closing} {place : Location}
    {content : Content} (h : b.Opens nested t t' name closing content) :
    (Element.id? ⟨name, place, content⟩) = closing.id := by
  cases h with
  | object => rfl
  | composite => rfl
  | assignment plain inside bare => simp [Element.id?, Element.closing?, bare]
  | inclusion => rfl
  | script inline control tag bare => simp [Element.id?, Element.closing?, bare]

theorem Retouched.no_script {stack stack' : List Element} (h : Retouched stack stack')
    (hno : ∀ e ∈ stack, e.kind ≠ .script) : ∀ e ∈ stack', e.kind ≠ .script := by
  cases h with
  | same => exact hno
  | @assignment e rest old new was =>
    intro el hel
    rcases List.mem_cons.mp hel with rfl | hel
    · intro h
      cases h
    · exact hno el (List.mem_cons_of_mem _ hel)
  | @script e rest old body was => exact absurd (by simp [Element.kind, was]) (hno e (by simp))

theorem closingNaming_bind {element : Element} {names : Registry} (hk : element.kind ≠ .script)
    (h : b.NamesAfter (b.closingNaming? element) names) : names = element.bind b.names := by
  unfold NamesAfter closingNaming? at h
  unfold Element.bind Element.id? Element.closing? Element.names? Element.value
  unfold Element.kind at hk
  cases hc : element.content with
  | created o c =>
    obtain ⟨_ | id, attributes⟩ := c <;> simp_all [Naming.run]
  | included root inner c =>
    obtain ⟨_ | id, attributes⟩ := c <;> simp_all [Naming.run]
  | composite o c =>
    obtain ⟨_ | id, attributes⟩ := c <;> simp_all [Naming.run]
  | assignment v => simp_all
  | script inline => simp [hc] at hk

namespace Reached

/-- At every moment the names are those that the changes so far have made. -/
theorem runAll_namings (h : Reached nested r source location s taken b t ahead) :
    Naming.runAll .empty (namings taken) = .ok b.names := by
  induction h with
  | start => rfl
  | @event taken b b' u u' e ahead before step ih =>
    have hafter := (step_names step).2.2
    unfold namings Naming.runAll at ih ⊢
    rw [List.filterMap_append, List.foldlM_append, ih]
    unfold NamesAfter at hafter
    cases hn : b.naming? e with
    | none =>
      rw [hn] at hafter
      simp [hn, hafter]
    | some n =>
      rw [hn] at hafter
      simp only [List.filterMap_cons, hn, List.filterMap_nil, List.foldlM_cons, List.foldlM_nil]
      change (n.run b.names >>= fun m => pure m) = _
      rw [hafter]
      rfl
  | checkpoint before unfinished ih => exact ih

/-- Without scripts the names are bound by the ends of elements alone, and no script is open. -/
theorem names_of_no_script (h : Reached nested r source location s taken b t ahead)
    (hno : ∀ d ∈ taken, d.event.startsScript = false) :
    (∀ e ∈ b.stack, e.kind ≠ .script) ∧
      b.names = (endedElements taken).foldl Element.bind .empty := by
  induction h with
  | start => exact ⟨by rintro _ ⟨⟩, rfl⟩
  | @event taken b b' u u' e ahead before step ih =>
    obtain ⟨hstack, hnames⟩ := ih fun d hd => hno d (List.mem_append_left _ hd)
    have hscript : e.startsScript = false := hno ⟨b, u, e⟩ (by simp)
    rw [endedElements_append, List.foldl_append, ← hnames]
    cases e with
    | opened name attributes place =>
      obtain ⟨id, own, content, names, htake, hopens, hafter, rfl⟩ := opened_ok step
      have hplain : ¬(name.isIn controlQualifier = true ∧ name.localName = "script") := by
        simpa [Event.startsScript] using hscript
      simp only [naming?, htake, if_neg hplain, NamesAfter] at hafter
      refine ⟨?_, by simpa [Delivery.ended?] using hafter⟩
      intro el hel
      rcases List.mem_cons.mp hel with rfl | hel
      · cases hopens with
        | script inline control tag bare => exact absurd ⟨control, tag⟩ hplain
        | _ =>
          intro h
          cases h
      · exact hstack el hel
    | text content place =>
      obtain ⟨stack, hr, rfl⟩ := text_ok step
      exact ⟨hr.no_script hstack, by simp [Delivery.ended?]⟩
    | closed place =>
      obtain ⟨el, rest, stack, names, hel, hr, hafter, rfl⟩ := closed_ok step
      rw [hel] at hstack
      refine ⟨hr.no_script fun e he => hstack e (List.mem_cons_of_mem _ he), ?_⟩
      have hbind := closingNaming_bind (hstack el (by simp)) hafter
      simpa [Delivery.ended?, hel] using hbind
  | checkpoint before unfinished ih => exact ih hno

/-- Each element with an id that has started is open or has ended. -/
theorem countP_started (h : Reached nested r source location s taken b t ahead) (id : String) :
    (taken.countP fun d => d.event.id? = some id) =
      (b.stack.countP fun e => e.id? = some id) +
        (endedElements taken).countP fun e => e.id? = some id := by
  induction h with
  | start => rfl
  | @event taken b b' u u' e ahead before step ih =>
    rw [endedElements_append, List.countP_append, List.countP_append, ih]
    cases e with
    | opened name attributes place =>
      obtain ⟨own, plain, content, names, htake, hopens, -, rfl⟩ := opened_ok step
      have hid : (Element.id? ⟨name, place, content⟩) = own := hopens.id_eq
      simp only [List.countP_cons, Event.id?, htake, hid, List.countP_nil, Delivery.ended?,
        Option.toList_none]
      omega
    | text content place =>
      obtain ⟨stack, hr, rfl⟩ := text_ok step
      simp [Event.id?, Delivery.ended?, hr.countP_eq]
    | closed place =>
      obtain ⟨el, rest, stack, names, hel, hr, -, rfl⟩ := closed_ok step
      simp only [hel, hr.countP_eq, List.countP_cons, List.countP_nil, Event.id?,
        Delivery.ended?, List.head?_cons, Option.toList_some]
      simp
      omega
  | checkpoint before unfinished ih => exact ih

end Reached

end Builder

/-- A sigil gives the rest of a text its meaning, where text is no literal. -/
theorem Context.resolve_sigil (c : Context) {raw rest : String} {sigil : Char}
    {target : Option ValueType} (hraw : raw.toList = sigil :: rest.toList)
    (hsigil : isSigil sigil = true) (hne : rest ≠ "") (hsingle : rest.toList.head? ≠ some sigil)
    (htarget : ∀ type, target = some type → type.isPrimitive = false) :
    c.resolve raw target = c.dereference sigil rest := by
  have hreference : c.resolve raw target = c.resolveReference raw := by
    cases target with
    | none => rfl
    | some type => simp [resolve, htarget type rfl]
  obtain ⟨next, cs, hcs⟩ : ∃ next cs, rest.toList = next :: cs := by
    apply List.exists_cons_of_ne_nil
    intro hnil
    exact hne (String.toList_eq_nil_iff.mp hnil)
  have hnext : next ≠ sigil := by simpa [hcs] using hsingle
  have hback : String.ofList (next :: cs) = rest := by rw [← hcs, String.ofList_toList]
  rw [hreference, resolveReference, hraw, hcs]
  simp only [hsigil, if_true, if_neg hnext, hback]

/-- A name without dots stands for a reference to it, where text is no literal. -/
theorem Context.resolve_name (c : Context) {id : String} {target : Option ValueType}
    (hne : id ≠ "") (hdot : '.' ∉ id.toList) (hsigil : id.toList.head? ≠ some '$')
    (htarget : ∀ type, target = some type → type.isPrimitive = false) :
    c.resolve ("$" ++ id) target = .ok ((c.names.values.get? id).getD .null) := by
  rw [c.resolve_sigil (String.toList_append ..) rfl hne hsigil htarget]
  simp [dereference, Registry.get?_of_plain _ hdot]

/-- What a name is bound to after elements have ended one after another. -/
theorem get?_foldl_bind (names : Registry) (elements : List Element) (id : String) :
    (elements.foldl Element.bind names).values.get? id =
      ((lastNamed? id elements).map Element.value).or (names.values.get? id) := by
  induction elements generalizing names with
  | nil => rfl
  | cons e rest ih =>
    rw [List.foldl_cons, ih]
    have hbind : (e.bind names).values.get? id =
        if e.id? = some id then some e.value else names.values.get? id := by
      unfold Element.bind
      cases hid : e.id? with
      | none => simp
      | some own =>
        cases e.names? <;> simp [Registry.put, Registry.bindInclude, OrderedMap.get?_insert]
    rw [hbind]
    unfold lastNamed?
    by_cases hid : e.id? = some id
    · cases hlast : (rest.filter fun e => e.id? = some id).getLast? <;>
        simp [List.getLast?_cons, hid, hlast]
    · simp [hid]

/-- At every moment the names are those that the ends of elements and the scripts so far have bound,
one after another; reading an included document binds none of its names. The attributes of an
element are applied before its own name is bound, and when it has ended, its object holds what they
stood for then. So without scripts a reference to a name stands for the element that bears it and was
the last to end, and for null while all that bear it are open or still to come. -/
theorem names_follow_ends {nested : Reader → String → Reading Document} {r : Reader}
    {source : List Char} {location : Option String} {s t : Session} {taken : List Delivery}
    {b : Builder} {ahead : List Signal}
    (h : Builder.Reached nested r source location s taken b t ahead) :
    Naming.runAll .empty (namings taken) = .ok b.names ∧
    (∀ name attributes place b' t', name.isIn controlQualifier = true →
      name.localName = "include" →
      (b.step nested (.opened name attributes place)).perform t = (.ok b', t') →
      b'.names = b.names) ∧
    (∀ element rest place b' t', b.stack = element :: rest → element.kind = .inclusion →
      (b.step nested (.closed place)).perform t = (.ok b', t') →
      b'.names.values = match element.id? with
        | none => b.names.values
        | some id => b.names.values.insert id element.value) ∧
    (∀ element rest closing place, b.stack = element :: rest → element.closing? = some closing →
      b.closed place = do
        ({ b with stack := rest }).applyAttributes element closing.attributes
        ({ b with stack := rest }).settle element) ∧
    (∀ element rest closing place b' t' o name, b.stack = element :: rest →
      element.closing? = some closing → element.value.object? = some o →
      Builder.propertyKind? (t.heap.object o) name ≠ some .listenerList →
      (b.step nested (.closed place)).perform t = (.ok b', t') →
      ({ b with stack := rest }).context.Assigns (lastAssigning? name closing.attributes) name
        (t.heap.object o) (t'.heap.object o)) ∧
    ((∀ d ∈ taken, d.event.startsScript = false) →
      ∀ element rest, b.stack = element :: rest → ∀ a ∈ element.pending, ∀ id target,
      a.value = "$" ++ id → id ≠ "" → '.' ∉ id.toList → id.toList.head? ≠ some '$' →
      (∀ type, target = some type → type.isPrimitive = false) →
      ({ b with stack := rest }).context.resolve a.value target =
        .ok (((lastNamed? id (endedElements taken)).map Element.value).getD .null) ∧
      ((taken.countP fun d => d.event.id? = some id) =
          (b.stack.countP fun e => e.id? = some id) →
        ({ b with stack := rest }).context.resolve a.value target = .ok .null)) := by
  refine ⟨h.runAll_namings, ?_, ?_, ?_, ?_, ?_⟩
  · intro name attributes place b' t' control tag hstep
    obtain ⟨id, own, content, names, htake, -, hafter, rfl⟩ := Builder.opened_ok hstep
    have hplain : ¬(name.isIn controlQualifier = true ∧ name.localName = "script") := by
      rintro ⟨-, hscript⟩
      rw [tag] at hscript
      revert hscript
      decide
    simpa only [Builder.naming?, htake, if_neg hplain, Builder.NamesAfter] using hafter
  · intro element rest place b' t' hstack hkind hstep
    obtain ⟨el, below, stack, names, hel, -, hafter, rfl⟩ := Builder.closed_ok hstep
    rw [hstack] at hel
    cases hel
    have hk : element.kind ≠ .script := by
      rw [hkind]
      decide
    have hnames := Builder.closingNaming_bind hk hafter
    subst hnames
    unfold Element.bind
    cases element.id? with
    | none => rfl
    | some id => cases element.names? <;> rfl
  · intro element rest closing place hstack hclosing
    exact Builder.closed_eq hstack hclosing place
  · intro element rest closing place b' t' o name hstack hclosing ho hname hstep
    exact Builder.closed_assigns hstack hclosing ho hname hstep
  · intro hno element rest hstack a ha id target hvalue hne hdot hsigil htarget
    obtain ⟨-, hnames⟩ := h.names_of_no_script hno
    have hresolve : ({ b with stack := rest }).context.resolve a.value target =
        .ok (((lastNamed? id (endedElements taken)).map Element.value).getD .null) := by
      rw [hvalue, Context.resolve_name _ hne hdot hsigil htarget]
      have hget := get?_foldl_bind .empty (endedElements taken) id
      rw [← hnames] at hget
      change Except.ok ((b.names.values.get? id).getD .null) = _
      rw [hget]
      simp [Registry.empty]
    refine ⟨hresolve, ?_⟩
    intro hopen
    have hcount := h.countP_started id
    have hnone : (endedElements taken).filter (fun e => e.id? = some id) = [] := by
      apply List.length_eq_zero_iff.mp
      rw [← List.countP_eq_length_filter]
      omega
    rw [hresolve, lastNamed?, hnone]
    rfl

/-- A reference to an element that has ended, and one from an element to itself. -/
theorem names_follow_ends_of_two :
    let list := "<ArrayList xmlns='wtkx.collections'><HashMap wtkx:id='a'/>"
    let source := (list ++ "<HashMap wtkx:id='b' k='$a' l='$b'/></ArrayList>").toList
    ∃ taken b t place ahead element rest b' t',
      Builder.Reached (Reader.readNested 1) .plain source none .initial taken b t
        (.event (.closed place) :: ahead) ∧
      Naming.runAll .empty (namings taken) = .ok b.names ∧ b.names.ids = ["a"] ∧
      b.stack = element :: rest ∧ element.value = .object ⟨2⟩ ∧
      (b.step (Reader.readNested 1) (.closed place)).perform t = (.ok b', t') ∧
      (t'.heap.object ⟨2⟩).get? "k" = (lastNamed? "a" (endedElements taken)).map Element.value ∧
      (t'.heap.object ⟨2⟩).get? "k" = some (.object ⟨1⟩) ∧
      (t'.heap.object ⟨2⟩).get? "l" = some .null := by
  intro list source
  let k : Attribute := ⟨⟨none, "k", none⟩, "$a"⟩
  let l : Attribute := ⟨⟨none, "l", none⟩, "$b"⟩
  let named (value : String) : Attribute := ⟨⟨some "wtkx", "id", none⟩, value⟩
  let map : QualifiedName := ⟨none, "HashMap", some "wtkx.collections"⟩
  let front : List Event := [.opened ⟨none, "ArrayList", some "wtkx.collections"⟩ [] ⟨1, 1⟩,
    .opened map [named "a"] ⟨1, 37⟩, .closed ⟨1, 37⟩, .opened map [named "b", k, l] ⟨1, 59⟩]
  have hread : ((Reader.plain.parse (Reader.readNested 1) source none).perform
      .initial).1.toOption.isSome = true := by
    decide +kernel
  have hevents : documentEvents (Text.dropMark source) =
      front ++ .closed ⟨1, 59⟩ :: [.closed ⟨1, 95⟩] := by
    decide +kernel
  let moment := ((Builder.start .plain none).take (Reader.readNested 1) front).perform .initial
  have hmoment : (moment.1.toOption.any fun b => b.names.ids = ["a"] ∧
      b.stack.head?.map Element.value = some (.object ⟨2⟩) ∧
      b.stack.head?.map Element.pending = some [k, l] ∧
      (b.context.resolve "$a" none).toOption = some (.object ⟨1⟩) ∧
      (b.context.resolve "$b" none).toOption = some .null) = true := by
    decide +kernel
  have hdictionary : (moment.2.heap.object ⟨2⟩).dictionary.isSome = true := by
    decide +kernel
  have hno : ∀ e ∈ front, e.startsScript = false := by decide +kernel
  have hlast : lastAssigning? "k" [k, l] = some k ∧ lastAssigning? "l" [k, l] = some l := by
    decide +kernel
  clear_value source
  rcases hrun : (Reader.plain.parse (Reader.readNested 1) source none).perform .initial with
    ⟨e | d, u⟩
  · rw [hrun] at hread
    cases hread
  obtain ⟨taken, b, t, ahead, b', t', htaken, hreached, htake, hstep⟩ :=
    Builder.exists_before hrun hevents
  have htaken' : moment = (.ok b, t) := htake
  rw [htaken'] at hmoment hdictionary
  obtain ⟨hids, hvalue, hpending, hknown, hopen⟩ := of_decide_eq_true hmoment
  obtain ⟨element, rest, hstack⟩ : ∃ element rest, b.stack = element :: rest := by
    cases hstack : b.stack with
    | nil => simp [hstack] at hvalue
    | cons element rest => exact ⟨element, rest, rfl⟩
  simp only [hstack, List.head?_cons, Option.map_some, Option.some.injEq] at hvalue hpending
  obtain ⟨closing, hclosing, hattributes⟩ := element.exists_closing hpending
  obtain ⟨hnamings, -, -, -, hassigns, hresolve⟩ := names_follow_ends hreached
  have hstored : ∀ a v, lastAssigning? a.name.localName [k, l] = some a →
      (b.context.resolve a.value none).toOption = some v →
      (t'.heap.object ⟨2⟩).get? a.name.localName = some v := by
    intro a v ha hv
    have hleaves := hassigns element rest closing _ b' t' ⟨2⟩ a.name.localName hstack hclosing
      (by rw [hvalue]; rfl) (by simp [Object.propertyKind?_of_dictionary hdictionary]) hstep
    exact hleaves.get?_of_dictionary (hattributes ▸ ha) hdictionary (eq_ok_of_toOption hv)
  have hfound := (hresolve (fun d hd => hno d.event (htaken ▸ List.mem_map_of_mem hd)) element rest
    hstack k (by rw [hpending]; simp) "a" none rfl (by decide) (by decide) (by decide) (by simp)).1
  have hended : (lastNamed? "a" (endedElements taken)).map Element.value = some (.object ⟨1⟩) := by
    have hget := Except.ok.inj (hfound.symm.trans (eq_ok_of_toOption hknown))
    exact (Option.getD_eq_iff.mp hget).resolve_right (by simp)
  have hk := hstored k _ hlast.1 hknown
  exact ⟨taken, b, t, _, ahead, element, rest, b', t', hreached, hnamings, hids, hstack, hvalue,
    hstep, hk.trans hended.symm, hk, hstored l _ hlast.2 hopen⟩

end ObjectMarkup
