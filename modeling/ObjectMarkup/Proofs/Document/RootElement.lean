import ObjectMarkup.Demo.Scripts
import ObjectMarkup.Proofs.Document.OpenElements
import ObjectMarkup.Proofs.Document.Take
import ObjectMarkup.Proofs.Document.Visit

namespace ObjectMarkup

open Markup

/-- What an open element keeps while text and the elements inside it are read. -/
structure Element.Same (old e : Element) : Prop where
  name : old.name = e.name
  location : old.location = e.location
  kind : old.kind = e.kind
  value : e.kind ≠ .assignment → old.value = e.value

theorem Element.Same.refl (e : Element) : e.Same e := ⟨rfl, rfl, rfl, fun _ => rfl⟩

theorem Element.Same.trans {e₁ e₂ e₃ : Element} (h : e₁.Same e₂) (h' : e₂.Same e₃) : e₁.Same e₃ :=
  ⟨h.name.trans h'.name, h.location.trans h'.location, h.kind.trans h'.kind,
    fun hk => (h.value (h'.kind ▸ hk)).trans (h'.value hk)⟩

theorem Element.Same.value_eq {old e : Element} (h : old.Same e) (hk : old.kind ≠ .assignment) :
    old.value = e.value := h.value (h.kind ▸ hk)

namespace Builder

variable {nested : Reader → String → Reading Document} {r : Reader} {source : List Char}
  {location : Option String} {s t t' : Session} {taken : List Delivery} {b b' : Builder}
  {ahead : List Signal} {e : Element}

theorem Retouched.outermost {stack stack' : List Element} (h : Retouched stack stack')
    (he : stack'.getLast? = some e) : ∃ old, stack.getLast? = some old ∧ old.Same e := by
  cases h with
  | same => exact ⟨e, he, .refl e⟩
  | @assignment old rest v new was =>
    cases rest with
    | nil =>
      cases he
      exact ⟨old, rfl, rfl, rfl, by simp [Element.kind, was], fun hk => absurd rfl hk⟩
    | cons parent below => exact ⟨e, by simpa using he, .refl e⟩
  | @script old rest v body was =>
    cases rest with
    | nil =>
      cases he
      exact ⟨old, rfl, rfl, rfl, by simp [Element.kind, was], fun _ => by simp [Element.value, was]⟩
    | cons parent below => exact ⟨e, by simpa using he, .refl e⟩

namespace Reached

/-- Before the first start tag there is nothing but text. -/
theorem fromRoot_eq_nil (h : Reached nested r source location s taken b t ahead)
    (hstack : b.stack = []) (hroot : b.root = none) : fromRoot (taken.map Delivery.event) = [] := by
  induction h with
  | start => rfl
  | @event taken b b' u u' event ahead before step ih =>
    cases event with
    | opened name attributes place =>
      obtain ⟨id, own, content, names, -, -, -, rfl⟩ := opened_ok step
      cases hstack
    | closed place =>
      obtain ⟨e, rest, stack, names, -, hr, -, rfl⟩ := closed_ok step
      have hempty : rest.isEmpty = true := by
        rw [← hr.isEmpty_eq]
        exact List.isEmpty_iff.mpr hstack
      simp [hempty] at hroot
    | text content place =>
      obtain ⟨stack, hr, rfl⟩ := text_ok step
      have hempty : b.stack = [] := by
        rw [← List.isEmpty_iff, ← hr.isEmpty_eq]
        exact List.isEmpty_iff.mpr hstack
      have hnone := ih hempty hroot
      unfold fromRoot at hnone ⊢
      rw [List.map_append, List.dropWhile_append, hnone]
      rfl
  | checkpoint before unfinished ih => exact ih hstack hroot

/-- The element at the bottom of the stack was put there by the first start tag. -/
theorem first_opened (h : Reached nested r source location s taken b t ahead)
    (he : b.stack.getLast? = some e) :
    ∃ before b₀ u attributes after c u' old,
      (fromRoot (taken.map Delivery.event)).head? = some (.opened e.name attributes e.location) ∧
      Reached nested r source location s before b₀ u
        (.event (.opened e.name attributes e.location) :: after) ∧
      (b₀.step nested (.opened e.name attributes e.location)).perform u = (.ok c, u') ∧
      c.stack = [old] ∧ old.Same e := by
  induction h generalizing e with
  | start => cases he
  | @event taken b b' u u' event ahead before step ih =>
    -- The first start tag stays the first one when more events are taken.
    have earlier : ∀ e₁ : Element, b.stack.getLast? = some e₁ → e₁.Same e →
        ∃ before b₀ v attributes after c v' old,
          (fromRoot (List.map Delivery.event (taken ++ [⟨b, u, event⟩]))).head? =
            some (.opened e.name attributes e.location) ∧
          Reached nested r source location s before b₀ v
            (.event (.opened e.name attributes e.location) :: after) ∧
          (b₀.step nested (.opened e.name attributes e.location)).perform v = (.ok c, v') ∧
          c.stack = [old] ∧ old.Same e := by
      intro e₁ he₁ hsame
      obtain ⟨before, b₀, v, attributes, after, c, v', old, hhead, hreached, hstep, hc, hold⟩ :=
        ih he₁
      rw [hsame.name, hsame.location] at hhead hreached hstep
      have hlast : old.Same e := hold.trans hsame
      refine ⟨before, b₀, v, attributes, after, c, v', old, ?_, hreached, hstep, hc, hlast⟩
      have hne : fromRoot (taken.map Delivery.event) ≠ [] := by
        intro hnil
        rw [hnil] at hhead
        cases hhead
      rw [List.map_append, List.map_cons, List.map_nil, fromRoot_concat (.inl hne),
        List.head?_append, hhead]
      rfl
    cases event with
    | opened name attributes place =>
      obtain ⟨id, own, content, names, -, -, -, hb⟩ := opened_ok step
      have hstack : b'.stack = ⟨name, place, content⟩ :: b.stack := by rw [hb]
      rw [hstack] at he
      cases hbelow : b.stack with
      | cons parent below =>
        refine earlier e ?_ (.refl e)
        rw [← he, hbelow]
        simp
      | nil =>
        rw [hbelow] at he hstack
        cases he
        have hnil : fromRoot (taken.map Delivery.event) = [] :=
          before.fromRoot_eq_nil hbelow before.root_eq_none
        refine ⟨taken, b, u, attributes, ahead, b', u', _, ?_, before, step, hstack, .refl _⟩
        rw [List.map_append, List.map_cons, List.map_nil,
          fromRoot_concat (.inr (by rintro _ _ ⟨⟩)), hnil]
        rfl
    | text content place =>
      obtain ⟨stack, hr, rfl⟩ := text_ok step
      obtain ⟨old, hold, hsame⟩ := hr.outermost he
      exact earlier old hold hsame
    | closed place =>
      obtain ⟨inner, rest, stack, names, hstack, hr, -, rfl⟩ := closed_ok step
      obtain ⟨old, hold, hsame⟩ := hr.outermost he
      refine earlier old ?_ hsame
      rw [hstack, List.getLast?_cons, hold]
      rfl
  | checkpoint before unfinished ih => exact ih he

end Reached

/-- A document that has been read ends with the element that the first start tag has put on the
stack, and has its value for the root. -/
theorem parse_outermost {d : Document}
    (h : (r.parse nested source location).perform s = (.ok d, t)) :
    ∃ taken b u place ahead e,
      Reached nested r source location s taken b u (.event (.closed place) :: ahead) ∧
      b.stack = [e] ∧ d.root = e.value ∧
      documentEvents (Text.dropMark source) = taken.map Delivery.event ++ [.closed place] := by
  obtain ⟨taken, b, ahead, hreached, hstack, hroot, -, -, hevents⟩ := parse_ok h
  rcases List.eq_nil_or_concat taken with rfl | ⟨front, last, rfl⟩
  · rw [hreached.of_nil.1] at hroot
    cases hroot
  · rw [List.concat_eq_append] at hreached hevents
    obtain ⟨after, hbefore⟩ :=
      hreached.before_taken (show front ++ [last] = front ++ last :: [] from rfl)
    have hlast := hreached.after_last
    obtain ⟨c, u, event⟩ := last
    rw [List.map_append] at hevents
    -- Only the end of the outermost element gives a root.
    cases event with
    | opened name attributes place =>
      obtain ⟨id, own, content, names, -, -, -, rfl⟩ := opened_ok hlast
      cases hstack
    | text content place =>
      obtain ⟨stack, -, rfl⟩ := text_ok hlast
      rw [hbefore.root_eq_none] at hroot
      cases hroot
    | closed place =>
      obtain ⟨e, rest, stack, names, hc, hr, -, rfl⟩ := closed_ok hlast
      have hrest : rest = [] := by
        rw [← List.isEmpty_iff, ← hr.isEmpty_eq]
        exact List.isEmpty_iff.mpr hstack
      subst hrest
      exact ⟨front, c, u, place, after, e, hbefore, hc, (Option.some.inj hroot).symm,
        hevents.symm⟩

end Builder

namespace Visit

variable {v w : Visit} {e : Element} {d : Document} {t : Session}

/-- The element is the outermost one of the document, as it is when it is about to end: the first
start tag, `start`, has opened it, and nothing else is open. -/
structure Outermost (v : Visit) (start : Event) (e : Element) : Prop where
  opening : (rootElement (Text.dropMark v.text)).head? = some start
  tag : ∃ attributes, start = .opened e.name attributes e.location
  ending : ∃ taken b u place ahead,
    Builder.Reached Reader.read v.reader v.text v.location v.session taken b u
      (.event (.closed place) :: ahead) ∧ b.stack = [e]

/-- The element is the outermost one of the document, or of the last of documents that each stand in
the outermost element of the one before: it includes no further document. -/
inductive RootedIn : Visit → Element → Prop
  | own {v : Visit} {start : Event} {e : Element} (outermost : v.Outermost start e)
      (plain : start.inclusion? = none) : RootedIn v e
  | included {v w : Visit} {start : Event} {i : Inclusion} {e inner : Element} {d : Document}
      {t : Session} (outermost : v.Outermost start e) (inclusion : start.inclusion? = some i)
      (enters : v.Enters w) (place : w.location = some (i.path v.location))
      (read : w.run = (.ok d, t)) (handed : e.value = d.root) (rooted : RootedIn w inner) :
      RootedIn v inner

theorem Outermost.unique {start start' : Event} {e e' : Element} (h : v.Outermost start e)
    (h' : v.Outermost start' e') : e' = e := by
  obtain ⟨taken, b, u, place, ahead, hreached, hstack⟩ := h.ending
  obtain ⟨taken', b', u', place', ahead', hreached', hstack'⟩ := h'.ending
  have hevents : ∀ {taken b u place ahead e},
      Builder.Reached Reader.read v.reader v.text v.location v.session taken b u
        (.event (.closed place) :: ahead) → b.stack = [e] →
      documentEvents (Text.dropMark v.text) = taken.map Delivery.event ++ [.closed place] := by
    intro taken b u place ahead e hreached hstack
    rcases hreached.balance with ⟨-, -, hevents⟩ | ⟨-, hnil, -, -⟩
    · rw [hevents, hstack]
      rfl
    · rw [hstack] at hnil
      cases hnil
  have hsame := (hevents hreached hstack).symm.trans (hevents hreached' hstack')
  have htake := hreached.take
  rw [(List.append_inj' hsame rfl).1, hreached'.take] at htake
  cases htake
  exact (List.cons.inj (hstack'.symm.trans hstack)).1

/-- What the outermost element of a document that has been read stands for: an object that was made
for it, nothing if it is a script, or the root of the document that it includes. -/
theorem outermost_of_run (h : v.run = (.ok d, t)) :
    ∃ start e, v.Outermost start e ∧ d.root = e.value ∧
      ((start.inclusion? = none ∧
        ((e.name.isIn controlQualifier = false ∧ ∃ o, e.value = .object o) ∨
          (e.name.isIn controlQualifier = true ∧ e.name.localName = "script" ∧ e.value = .null))) ∨
      ∃ i w d' t', start.inclusion? = some i ∧ v.Enters w ∧
        w.location = some (i.path v.location) ∧ w.run = (.ok d', t') ∧ e.value = d'.root) := by
  obtain ⟨taken, b, u, place, ahead, e, hreached, hstack, hroot, hevents⟩ :=
    Builder.parse_outermost h
  obtain ⟨before, b₀, u₀, attributes, after, c, u₁, old, hhead, hbefore, hstep, hc, hsame⟩ :=
    hreached.first_opened (show b.stack.getLast? = some e by rw [hstack]; rfl)
  refine ⟨.opened e.name attributes e.location, e,
    ⟨?_, ⟨attributes, rfl⟩, taken, b, u, place, ahead, hreached, hstack⟩, hroot, ?_⟩
  · rw [rootElement, hevents, fromRoot_concat (.inr (by rintro _ _ ⟨⟩)), List.head?_append, hhead]
    rfl
  obtain ⟨id, own, content, names, htake, hopens, -, rfl⟩ := Builder.opened_ok hstep
  have hempty : b₀.stack = [] := by simpa using (List.cons.inj hc).2
  cases (List.cons.inj hc).1
  cases hopens with
  | object o plain =>
    left
    refine ⟨?_, .inl ⟨plain, o, ?_⟩⟩
    · simp [Event.inclusion?, plain]
    · exact (hsame.value_eq (by rintro ⟨⟩)).symm
  | composite o plain inside => simp [hempty] at inside
  | assignment plain inside bare => simp [hempty] at inside
  | script inline control tag bare =>
    left
    refine ⟨?_, .inr ⟨control, tag, ?_⟩⟩
    · simp [Event.inclusion?, tag]
    · exact (hsame.value_eq (by rintro ⟨⟩)).symm
  | inclusion source reader document control tag found same read =>
    right
    have hi : (Event.opened e.name attributes e.location).inclusion? =
        some ⟨source, plainValue? own "resources"⟩ := by
      simp [Event.inclusion?, control, tag, htake, inclusionOf?, found, Except.toOption]
    obtain ⟨reader', d', _, _, _, hasks, hread, hpush⟩ := inclusion_ok hi hbefore hstep
    obtain ⟨w, t', henters, hlocation, -, hrun⟩ := hasks.enters_of_read hread
    refine ⟨_, w, d', t', hi, henters, hlocation, hrun, ?_⟩
    have hvalue : document.root = e.value := hsame.value_eq (by rintro ⟨⟩)
    have hroots : document.root = d'.root :=
      congrArg Element.value (List.cons.inj (congrArg Builder.stack hpush)).1
    exact hvalue.symm.trans hroots

/-- The root of a document that has been read is the value of the element it is rooted in. -/
theorem rootedIn_of_run (h : v.run = (.ok d, t)) :
    ∃ e, v.RootedIn e ∧ d.root = e.value ∧
      ((e.name.isIn controlQualifier = false ∧ ∃ o, d.root = .object o) ∨
        (e.name.isIn controlQualifier = true ∧ e.name.localName = "script" ∧ d.root = .null)) := by
  -- The guard lets in only so many documents inside one another.
  generalize hroom : Guard.maxDepth - v.session.guard.depth = room
  induction room using Nat.strongRecOn generalizing v d t with
  | ind room ih =>
    obtain ⟨start, e, houtermost, hroot, ⟨hplain, hkind⟩ |
      ⟨i, w, d', t', hinclusion, henters, hlocation, hrun, hvalue⟩⟩ := outermost_of_run h
    · exact ⟨e, .own houtermost hplain, hroot, hroot ▸ hkind⟩
    · obtain ⟨hdepth, -, hguard⟩ := Guard.enter_ok henters.guard_eq
      have hless : Guard.maxDepth - w.session.guard.depth < room := by
        rw [hguard]
        dsimp only
        omega
      obtain ⟨inner, hrooted, hinner, hkind⟩ := ih _ hless hrun rfl
      have hd : d.root = d'.root := hroot.trans hvalue
      rw [← hd] at hinner hkind
      exact ⟨inner, .included houtermost hinclusion henters hlocation hrun hvalue hrooted, hinner,
        hkind⟩

end Visit

variable {r : Reader} {location : Option String} {source : Except ReadError (List Char)}
  {x : Reading Document} {s t : Session} {d : Document}

theorem Reading.exists_of_root {v : Value}
    (h : (x.perform s).1.toOption.map Document.root = some v) :
    ∃ d t, x.perform s = (.ok d, t) ∧ d.root = v := by
  rcases hread : x.perform s with ⟨error | d, t⟩
  · rw [hread] at h
    cases h
  · rw [hread] at h
    exact ⟨d, t, rfl, Option.some.inj h⟩

/-- What the root of a document is, for every way to start reading when no document is open. The
document has one outermost element, and its value is the root. Through outermost elements that
include other documents the root comes from an element that includes none. Where that has no control
tag, the root is the object made for it; else it is a script, and there is no root object. -/
theorem root_of_outermost (h : r.Entry location source x) (hs : s.guard = .idle)
    (hx : x.perform s = (.ok d, t)) :
    ∃ text, source = .ok text ∧
      (∃ start e, (Visit.first r location text s).Outermost start e ∧ d.root = e.value ∧
        ∀ start' e', (Visit.first r location text s).Outermost start' e' → e' = e) ∧
      ∃ e, (Visit.first r location text s).RootedIn e ∧ d.root = e.value ∧
        ((e.name.isIn controlQualifier = false ∧ ∃ o, d.root = .object o) ∨
          (e.name.isIn controlQualifier = true ∧ e.name.localName = "script" ∧
            d.root = .null)) := by
  obtain ⟨text, u, htext, hrun⟩ := h.run_ok hs hx
  obtain ⟨start, e, houtermost, hroot, -⟩ := Visit.outermost_of_run hrun
  exact ⟨text, htext, ⟨start, e, houtermost, hroot, fun _ _ h' => houtermost.unique h'⟩,
    Visit.rootedIn_of_run hrun⟩

/-- A map in a document that another one includes in its outermost element. -/
theorem root_of_outermost_of_included :
    let r := Reader.ofLibrary ((Library.empty.addText "a" "<wtkx:include src='b'/>").addText "b"
      "<HashMap xmlns='wtkx.collections'/>")
    ∃ d t text e, (r.read "a").perform .initial = (.ok d, t) ∧ r.sourceAt "a" = .ok text ∧
      (Visit.first r (some "a") text .initial).RootedIn e ∧ d.root = e.value ∧
      d.root = .object ⟨0⟩ := by
  intro r
  have hroot : ((r.read "a").perform .initial).1.toOption.map Document.root =
      some (.object ⟨0⟩) := by
    decide +kernel
  clear_value r
  obtain ⟨d, t, hread, hroot⟩ := Reading.exists_of_root hroot
  obtain ⟨text, htext, -, e, hrooted, hvalue, -⟩ := root_of_outermost (.located "a") rfl hread
  exact ⟨d, t, text, e, hread, htext, hrooted, hvalue, hroot⟩

/-- A script is read as a document, and so is one that is included in the outermost element, but there
is no root object. A document without any element is refused. -/
theorem script_roots_nothing :
    let r := { Reader.ofLibrary (Library.empty.addText "c" "<wtkx:script language='ops'/>") with
      environment.engines := Demo.engines }
    (∃ d t, (r.readText "<wtkx:script language='ops'/>").perform .initial = (.ok d, t) ∧
      d.root = .null) ∧
    (∃ d t, (r.readText "<wtkx:include src='c'/>").perform .initial = (.ok d, t) ∧ d.root = .null) ∧
    ∃ t, (r.readText "").perform .initial = (.error (.malformed .noRoot ⟨1, 1⟩), t) := by
  intro r
  exact ⟨Reading.exists_of_root (by decide +kernel), Reading.exists_of_root (by decide +kernel),
    Reading.exists_of_fails (by decide +kernel)⟩

end ObjectMarkup
