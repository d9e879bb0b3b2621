import ObjectMarkup.Proofs.Document.NameTimeline
import ObjectMarkup.Proofs.Renaming.Object

namespace ObjectMarkup

open Markup

/-- Objects after one of them has collected a value: as an item if it is a sequence, and else as a
listener. -/
inductive Heap.Collects (h : Heap) (o : ObjectId) : Value → Heap → Prop
  | item {s : Sequence} (v : Value) (sequence : (h.object o).sequence = some s) :
      Collects h o v (h.update o { h.object o with
        sequence := some { s with items := s.items ++ [v] } })
  | listener {ls : List ObjectId} (p : ObjectId) (plain : (h.object o).sequence = none)
      (listeners : (h.object o).listeners = some ls) :
      Collects h o (.object p) (h.update o { h.object o with listeners := some (ls ++ [p]) })

namespace Heap.Collects

variable {h h' : Heap} {o p : ObjectId} {v : Value}

theorem of_addItem? {added : Except PropertyError Heap} (hadd : h.addItem? o v = some added)
    (hok : added = .ok h') : h.Collects o v h' := by
  subst hok
  obtain ⟨q, hq, hadd⟩ := Option.map_eq_some_iff.mp hadd
  cases hnew : q.add (h.object o).typeName (h.labelDuring o v) v with
  | error e =>
    rw [hnew] at hadd
    cases hadd
  | ok new =>
    rw [hnew, Sequence.add_ok hnew] at hadd
    cases hadd
    exact .item v hq

theorem of_addListener? (plain : (h.object o).sequence = none)
    (hadd : h.addListener? o p = some h') : h.Collects o (.object p) h' := by
  obtain ⟨ls, hls, rfl⟩ := Option.map_eq_some_iff.mp hadd
  exact .listener p plain hls

end Heap.Collects

namespace Element

/-- The value that an object or an inclusion gives to the element around it when it ends. -/
def gift? (e : Element) : Option Value :=
  match e.content with
  | .created o _ => some (.object o)
  | .included root _ _ => some root
  | _ => none

/-- A property element with the value that it is given, if it is given one. -/
def receive (e : Element) (given : Option Value) : Element :=
  match e.content, given with
  | .assignment _, some v => { e with content := .assignment v }
  | _, _ => e

/-- What giving a value to an element makes of it and of the session. A property element keeps the
value; the object of any other element collects it. -/
inductive Takes (e : Element) (v : Value) (s : Session) : Element → Session → Prop
  | property {old : Value} (waiting : e.content = .assignment old) :
      Takes e v s { e with content := .assignment v } s
  | container {o : ObjectId} {h : Heap} (holder : e.holder? = some o)
      (collected : s.heap.Collects o v h) : Takes e v s e { s with heap := h }

theorem receive_of_kind {e : Element} (h : e.kind ≠ .assignment) (given : Option Value) :
    e.receive given = e := by
  unfold receive
  split
  · rename_i old v hcontent
    exact absurd (by simp [kind, hcontent]) h
  · rfl

end Element

theorem Element.with_content {e : Element} {content : Content} (h : e.content = content) :
    { e with content } = e := by
  rw [← h]

theorem Element.receive_content {e : Element} {given : Option Value} {v : Value}
    (h : (e.receive given).content = .assignment v) :
    ∃ old, e = { e.receive given with content := .assignment old } ∧ v = given.getD old := by
  obtain ⟨name, location, content⟩ := e
  cases content with
  | assignment old =>
    refine ⟨old, ?_, ?_⟩
    · cases given <;> rfl
    · cases given <;> cases h <;> rfl
  | _ => cases h

/-- The open elements when one inside them has ended, and given its value. -/
def handed : List Element → Option Value → List Element
  | [], _ => []
  | parent :: rest, given => parent.receive given :: rest

theorem handed_none (stack : List Element) : handed stack none = stack := by
  cases stack with
  | nil => rfl
  | cons parent rest => simp [handed, Element.receive]

/-- The value that an event gives to the property element that is innermost at a height of the
stack: text that is not blank, or the value of an element in it that ends. -/
def Delivery.gives? (height : Nat) (d : Delivery) : Option Value :=
  match d.event, d.builder.stack with
  | .text content _, stack =>
    if stack.length = height ∧ Text.isBlank content.toList = false then some (.string content)
    else none
  | .closed _, e :: rest => if rest.length = height then e.gift? else none
  | _, _ => none

/-- The last value given to the property element at a height of the stack, null if there is none. -/
def lastGiven (height : Nat) (inside : List Delivery) : Value :=
  ((inside.filterMap (Delivery.gives? height)).getLast?).getD .null

theorem lastGiven_concat (height : Nat) (inside : List Delivery) (d : Delivery) :
    lastGiven height (inside ++ [d]) = (d.gives? height).getD (lastGiven height inside) := by
  unfold lastGiven
  rw [List.filterMap_append]
  cases hd : d.gives? height <;> simp [hd]

namespace Builder

variable {nested : Reader → String → Reading Document} {r : Reader} {source : List Char}
  {location : Option String} {s t t' : Session} {taken : List Delivery} {b b' : Builder}
  {ahead : List Signal} {e parent : Element} {rest : List Element} {v : Value} {place : Location}

theorem joinObject_ok {u : Unit} (h : (joinObject parent v place).perform s = (.ok u, t)) :
    ∃ o h', parent.value = .object o ∧ s.heap.Collects o v h' ∧ t = { s with heap := h' } := by
  unfold joinObject at h
  cases hparent : parent.value.object? with
  | none =>
    rw [hparent] at h
    cases h
  | some o =>
    refine ⟨o, t.heap, Value.eq_of_object? hparent, ?_⟩
    simp only [hparent] at h
    obtain ⟨heap, w, hheap, hadded⟩ := Reading.bind_eq_ok.mp h
    cases hheap
    cases hadd : s.heap.addItem? o v with
    | some added =>
      simp only [hadd] at hadded
      obtain ⟨heap, w, hlift, hset⟩ := Reading.bind_eq_ok.mp hadded
      obtain ⟨hok, rfl⟩ := Reading.lift_eq_ok.mp hlift
      cases hset
      exact ⟨.of_addItem? hadd hok, rfl⟩
    | none =>
      simp only [hadd] at hadded
      cases hlisteners : (s.heap.object o).listeners with
      | none =>
        rw [hlisteners] at hadded
        cases hadded
      | some ls =>
        cases v with
        | object p =>
          obtain ⟨h', hlistener⟩ : ∃ h', s.heap.addListener? o p = some h' :=
            ⟨_, Option.map_eq_some_iff.mpr ⟨ls, hlisteners, rfl⟩⟩
          simp only [hlisteners, hlistener, Option.getD_some] at hadded
          cases hadded
          exact ⟨.of_addListener? (Option.map_eq_none_iff.mp hadd) hlistener, rfl⟩
        | _ =>
          simp only [hlisteners] at hadded
          cases hadded

/-- A value that is handed on is taken by the element around it, which is no script. -/
theorem join_gives (h : (b.join v place).perform s = (.ok b', t)) :
    b' = { b with stack := handed b.stack (some v) } ∧
      ∀ parent rest, b.stack = parent :: rest → parent.Takes v s (parent.receive (some v)) t := by
  unfold join at h
  cases hstack : b.stack with
  | nil =>
    rw [hstack] at h
    cases h
    refine ⟨by rw [handed, ← hstack], ?_⟩
    intro parent rest hcons
    cases hcons
  | cons parent rest =>
    simp only [hstack] at h
    have collected : ∀ {d : Builder}, parent.holdsProperties = true → (do
          joinObject parent v place
          return b : Reading Builder).perform s = (.ok d, t) →
        d = { b with stack := handed (parent :: rest) (some v) } ∧
          parent.Takes v s (parent.receive (some v)) t := by
      intro d hholds hd
      obtain ⟨u, w, hjoin, hret⟩ := Reading.bind_eq_ok.mp hd
      cases hret
      obtain ⟨o, h', hvalue, hcollects, rfl⟩ := joinObject_ok hjoin
      have hkind : parent.kind ≠ .assignment := by
        unfold Element.holdsProperties at hholds
        unfold Element.kind
        split at hholds <;> simp_all
      have hholder : parent.holder? = some o := by
        rw [Element.holder?, if_pos hholds, hvalue]
        rfl
      rw [handed, Element.receive_of_kind hkind, ← hstack]
      exact ⟨rfl, .container hholder hcollects⟩
    have main : b' = { b with stack := handed (parent :: rest) (some v) } ∧
        parent.Takes v s (parent.receive (some v)) t := by
      cases hcontent : parent.content with
      | assignment old =>
        rw [hcontent] at h
        cases h
        have hreceive : parent.receive (some v) = { parent with content := .assignment v } := by
          simp only [Element.receive, hcontent]
        rw [handed, hreceive]
        exact ⟨rfl, .property hcontent⟩
      | script inline =>
        rw [hcontent] at h
        cases h
      | created o closing =>
        rw [hcontent] at h
        exact collected (by rw [Element.holdsProperties, hcontent]) h
      | included root names closing =>
        rw [hcontent] at h
        exact collected (by rw [Element.holdsProperties, hcontent]) h
      | composite o closing =>
        rw [hcontent] at h
        exact collected (by rw [Element.holdsProperties, hcontent]) h
    refine ⟨main.1, ?_⟩
    intro parent' rest' hcons
    cases hcons
    exact main.2

theorem settle_gives (hgift : e.gift? = some v) (h : (b.settle e).perform s = (.ok b', t)) :
    b'.stack = handed b.stack (some v) ∧
      ∀ parent rest, b.stack = parent :: rest → parent.Takes v s (parent.receive (some v)) t := by
  have joined : ∀ {id : Option String} {names : Option Registry},
      (do return (← (b.bindName id v names).join v e.location).rooted v :
        Reading Builder).perform s = (.ok b', t) →
      b'.stack = handed b.stack (some v) ∧
        ∀ parent rest, b.stack = parent :: rest → parent.Takes v s (parent.receive (some v)) t := by
    intro id names h
    obtain ⟨c, u, hjoin, hret⟩ := Reading.bind_eq_ok.mp h
    obtain ⟨rfl, htakes⟩ := join_gives hjoin
    cases hret
    rw [bindName_eq] at htakes ⊢
    rw [rooted_eq]
    exact ⟨rfl, htakes⟩
  unfold settle at h
  unfold Element.gift? at hgift
  split at h
  · rename_i o closing hcontent
    simp only [hcontent, Option.some.injEq] at hgift
    exact joined (hgift ▸ h)
  · rename_i root names closing hcontent
    simp only [hcontent, Option.some.injEq] at hgift
    exact joined (hgift ▸ h)
  · rename_i o closing hcontent
    simp [hcontent] at hgift
  · rename_i hno₁ hno₂ hno₃
    split at hgift
    · rename_i o closing hcontent
      exact absurd hcontent (hno₁ o closing)
    · rename_i root names closing hcontent
      exact absurd hcontent (hno₂ root names closing)
    · cases hgift

/-- The end of an object or an inclusion applies its attributes and then gives its value to the
element around it. -/
theorem closed_gives (hstack : b.stack = e :: rest) (hgift : e.gift? = some v)
    (h : (b.closed place).perform s = (.ok b', t)) :
    ∃ u, (({ b with stack := rest }).applyAttributes e e.pending).perform s = (.ok (), u) ∧
      b'.stack = handed rest (some v) ∧
      ∀ parent below, rest = parent :: below → parent.Takes v u (parent.receive (some v)) t := by
  obtain ⟨closing, hclosing⟩ : ∃ closing, e.closing? = some closing := by
    unfold Element.gift? at hgift
    unfold Element.closing?
    split at hgift <;> simp_all
  rw [closed_eq hstack hclosing] at h
  obtain ⟨u, w, happlied, hsettle⟩ := Reading.bind_eq_ok.mp h
  have hpending : e.pending = closing.attributes := by
    rw [Element.pending, hclosing]
    rfl
  exact ⟨w, hpending ▸ happlied, settle_gives hgift hsettle⟩

/-- The end of an element leaves the elements around it, the innermost of which has received its
value. -/
theorem closed_stack (hstack : b.stack = e :: rest)
    (h : (b.closed place).perform s = (.ok b', t)) : b'.stack = handed rest e.gift? := by
  cases hgift : e.gift? with
  | some v =>
    obtain ⟨u, -, hb, -⟩ := closed_gives hstack hgift h
    exact hb
  | none =>
    rw [handed_none]
    unfold Element.gift? at hgift
    unfold closed at h
    simp only [hstack] at h
    cases hcontent : e.content with
    | created o closing => simp [hcontent] at hgift
    | included root names closing => simp [hcontent] at hgift
    | composite o closing =>
      rw [hcontent] at h
      obtain ⟨u, w, -, hret⟩ := Reading.bind_eq_ok.mp h
      cases hret
      rw [rooted_eq, bindName_eq]
    | assignment value =>
      rw [hcontent] at h
      rw [(closeAssignment_ok h).1]
    | script inline =>
      rw [hcontent] at h
      cases inline with
      | none =>
        cases h
        rw [rooted_eq]
      | some script =>
        obtain ⟨c, u, hrun, hret⟩ := Reading.bind_eq_ok.mp h
        obtain ⟨names, -, rfl⟩ := runScript_ok hrun
        cases hret
        rw [rooted_eq]

/-- Text gives itself to a property element, unless it is blank, and leaves the others what they
are. -/
theorem text_gives {content : String} (hstack : b.stack = e :: rest)
    (h : (b.text content).perform s = (.ok b', t)) :
    (e.kind = .assignment ∧ b'.stack = e.receive (if Text.isBlank content.toList then none
      else some (.string content)) :: rest) ∨
    ∃ e' : Element, e.kind ≠ .assignment ∧ e'.kind ≠ .assignment ∧ b'.stack = e' :: rest := by
  cases hcontent : e.content with
  | assignment old =>
    left
    refine ⟨by simp [Element.kind, hcontent], ?_⟩
    unfold text at h
    simp only [hstack, hcontent] at h
    by_cases hblank : Text.isBlank content.toList = true
    · simp only [hblank, if_true] at h ⊢
      cases h
      simp [Element.receive, hstack]
    · simp only [hblank] at h ⊢
      cases h
      simp [Element.receive, hcontent]
  | _ =>
    right
    have hkind : e.kind ≠ .assignment := by simp [Element.kind, hcontent]
    obtain ⟨stack, hr, rfl⟩ := text_ok h
    rw [hstack] at hr
    cases hr with
    | same => exact ⟨e, hkind, hkind, rfl⟩
    | assignment new was => exact absurd (by simp [Element.kind, was]) hkind
    | script body was => exact ⟨_, hkind, by simp [Element.kind], rfl⟩

/-- The end of a property element puts its value, where it is text as a literal of the type of the
property. -/
theorem closeAssignment_puts (h : (b.closeAssignment e v).perform s = (.ok b', t)) :
    ∃ parent below o kept h', b.stack = parent :: below ∧ parent.value = .object o ∧
      s.heap.put o e.name.localName kept = .ok h' ∧ t = { s with heap := h' } ∧
      (kept = v ∨ ∃ text type, v = .string text ∧ kept = coerce text type) := by
  have stored : ∀ {o : ObjectId} {kept : Value},
      (do
        Reading.put o e.name.localName kept
        return b : Reading Builder).perform s = (.ok b', t) →
      ∃ h', s.heap.put o e.name.localName kept = .ok h' ∧ t = { s with heap := h' } := by
    intro o kept h
    obtain ⟨u, w, hput, hret⟩ := Reading.bind_eq_ok.mp h
    cases hret
    obtain ⟨heap, x, hheap, hput⟩ := Reading.bind_eq_ok.mp hput
    cases hheap
    obtain ⟨new, y, hnew, hset⟩ := Reading.bind_eq_ok.mp hput
    obtain ⟨hnew, rfl⟩ := Reading.lift_eq_ok.mp hnew
    cases hset
    exact ⟨new, hnew, rfl⟩
  unfold closeAssignment at h
  split at h
  · cases h
  · rename_i o ho
    obtain ⟨parent, below, hstack, hvalue⟩ : ∃ parent below, b.stack = parent :: below ∧
        parent.value = .object o := by
      cases hb : b.stack with
      | nil => simp [hb] at ho
      | cons parent below =>
        rw [hb] at ho
        exact ⟨parent, below, rfl, Value.eq_of_object? ho⟩
    obtain ⟨heap, u, hheap, hrest⟩ := Reading.bind_eq_ok.mp h
    cases hheap
    dsimp only at hrest
    split at hrest
    · cases hrest
    · split at hrest
      · obtain ⟨h', hput, ht⟩ := stored hrest
        exact ⟨parent, below, o, v, h', hstack, hvalue, hput, ht, .inl rfl⟩
      · split at hrest
        · cases hrest
        · obtain ⟨h', hput, ht⟩ := stored hrest
          refine ⟨parent, below, o, _, h', hstack, hvalue, hput, ht, ?_⟩
          split
          · exact .inr ⟨_, _, rfl, rfl⟩
          · exact .inl rfl

/-- A property element that is open after an element inside has ended was open before, with another
value if it is the innermost one and is given one. -/
theorem handed_split {stack above : List Element} {given : Option Value}
    (h : handed stack given = above ++ e :: rest) (hcontent : e.content = .assignment v) :
    ∃ above' old, stack = above' ++ { e with content := .assignment old } :: rest ∧
      v = (if stack.length = rest.length + 1 then given else none).getD old := by
  cases stack with
  | nil => simp [handed] at h
  | cons parent below =>
    cases above with
    | nil =>
      obtain ⟨hreceived, rfl⟩ := List.cons.inj h
      subst hreceived
      obtain ⟨old, hparent, hv⟩ := Element.receive_content hcontent
      refine ⟨[], old, by rw [← hparent]; rfl, ?_⟩
      rw [if_pos List.length_cons]
      exact hv
    | cons head above =>
      have hbelow : below = above ++ e :: rest := (List.cons.inj h).2
      refine ⟨parent :: above, v, by rw [Element.with_content hcontent, hbelow]; rfl, ?_⟩
      rw [if_neg]
      · rfl
      · rw [hbelow, List.length_cons, List.length_append, List.length_cons]
        omega

/-- An open property element has just been opened, or was open before the event and may have been
given a value by it. -/
theorem step_gives {event : Event} {above : List Element}
    (h : (b.step nested event).perform s = (.ok b', t)) (hstack : b'.stack = above ++ e :: rest)
    (hcontent : e.content = .assignment v) :
    ((∃ attributes, event = .opened e.name attributes e.location) ∧ b.stack = rest ∧ v = .null) ∨
    ∃ above' old, b.stack = above' ++ { e with content := .assignment old } :: rest ∧
      v = (Delivery.gives? (rest.length + 1) ⟨b, s, event⟩).getD old := by
  cases event with
  | opened name attributes place =>
    obtain ⟨id, own, content, names, -, hopens, -, rfl⟩ := opened_ok h
    cases above with
    | nil =>
      left
      obtain ⟨rfl, rfl⟩ := List.cons.inj hstack
      refine ⟨⟨attributes, rfl⟩, rfl, ?_⟩
      cases hcontent
      cases hopens
      rfl
    | cons top above =>
      right
      have hb : b.stack = above ++ e :: rest := (List.cons.inj hstack).2
      exact ⟨above, v, by rw [Element.with_content hcontent, hb], rfl⟩
  | text content place =>
    right
    cases hb : b.stack with
    | nil =>
      obtain ⟨stack, hr, rfl⟩ := text_ok h
      have hnil : stack.length = 0 := by rw [hr.length_eq, hb, List.length_nil]
      simp [List.length_eq_zero_iff.mp hnil] at hstack
    | cons top below =>
      rcases text_gives hb h with ⟨-, hb'⟩ | ⟨e', -, hkind, hb'⟩
      · have hgiven : handed (top :: below) (if Text.isBlank content.toList then none
            else some (.string content)) = above ++ e :: rest := hb'.symm.trans hstack
        obtain ⟨above', old, hold, hv⟩ := handed_split hgiven hcontent
        refine ⟨above', old, hold, hv.trans ?_⟩
        simp only [Delivery.gives?, hb]
        cases Text.isBlank content.toList <;> simp
      · rw [hb'] at hstack
        cases above with
        | nil =>
          obtain ⟨rfl, -⟩ := List.cons.inj hstack
          exact absurd (by simp [Element.kind, hcontent]) hkind
        | cons head above =>
          have hbelow : below = above ++ e :: rest := (List.cons.inj hstack).2
          refine ⟨top :: above, v, by rw [Element.with_content hcontent, hbelow]; rfl, ?_⟩
          have hne : below.length ≠ rest.length := by
            rw [hbelow, List.length_append, List.length_cons]
            omega
          simp [Delivery.gives?, hb, hne]
  | closed place =>
    right
    cases hb : b.stack with
    | nil =>
      obtain ⟨el, below, -, -, hcons, -⟩ := closed_ok h
      simp [hb] at hcons
    | cons top below =>
      rw [closed_stack hb h] at hstack
      obtain ⟨above', old, hold, hv⟩ := handed_split hstack hcontent
      refine ⟨top :: above', old, by rw [hold]; rfl, hv.trans ?_⟩
      simp only [Delivery.gives?, hb]

/-- An open property element holds the last value that it was given since its start tag. -/
theorem Reached.lastGiven (h : Reached nested r source location s taken b t ahead) :
    ∀ above e rest v, b.stack = above ++ e :: rest → e.content = .assignment v →
      ∃ before opener inside attributes, taken = before ++ opener :: inside ∧
        opener.event = .opened e.name attributes e.location ∧ opener.builder.stack = rest ∧
        (∀ d ∈ inside, rest.length < d.builder.stack.length) ∧
        v = ObjectMarkup.lastGiven (rest.length + 1) inside := by
  induction h with
  | start =>
    intro above e rest v hstack
    simp [Builder.start] at hstack
  | @event taken b b' u u' event ahead before step ih =>
    intro above e rest v hstack hcontent
    rcases step_gives step hstack hcontent with ⟨⟨attributes, hevent⟩, hbelow, hv⟩ |
      ⟨above', old, hold, hv⟩
    · exact ⟨taken, ⟨b, u, event⟩, [], attributes, rfl, hevent, hbelow, by simp, hv⟩
    · obtain ⟨front, opener, inside, attributes, htaken, hopener, hbelow, hinside, hgiven⟩ :=
        ih above' { e with content := .assignment old } rest old hold rfl
      refine ⟨front, opener, inside ++ [⟨b, u, event⟩], attributes, by simp [htaken], hopener,
        hbelow, ?_, ?_⟩
      · intro d hd
        rcases List.mem_append.mp hd with hd | hd
        · exact hinside d hd
        · cases List.mem_singleton.mp hd
          rw [hold, List.length_append, List.length_cons]
          omega
      · rw [lastGiven_concat, ← hgiven, hv]
  | checkpoint before unfinished ih => exact ih

end Builder

/-- A read that succeeds has taken exactly the events of its document, and in it every object and
every inclusion inside another element has given its value to that element, once its own attributes
were applied: a property element keeps the value as the one it is to assign, and the object of any
other element has collected it. Whatever an element cannot take makes the read fail. At its end a
property element is assigned the last value that it was given since its start tag, so that the value
of a child is the one assigned unless another child or text that is not blank comes after it. -/
theorem children_kept {nested : Reader → String → Reading Document} {r : Reader}
    {source : List Char} {location : Option String} {s t : Session} {document : Document}
    (h : (r.parse nested source location).perform s = (.ok document, t)) :
    ∃ taken b ahead, Builder.Reached nested r source location s taken b t ahead ∧
      b.root = some document.root ∧
      taken.map Delivery.event = documentEvents (Text.dropMark source) ∧
      (∀ d ∈ taken, ∀ place child parent below v, d.event = .closed place →
        d.builder.stack = child :: parent :: below → child.gift? = some v →
        ∃ u b' t',
          (({ d.builder with stack := parent :: below }).applyAttributes child
            child.pending).perform d.session = (.ok (), u) ∧
          (d.builder.step nested d.event).perform d.session = (.ok b', t') ∧
          b'.stack = parent.receive (some v) :: below ∧
          parent.Takes v u (parent.receive (some v)) t') ∧
      (∀ front d back place property rest v, taken = front ++ d :: back →
        d.event = .closed place → d.builder.stack = property :: rest →
        property.content = .assignment v →
        ∃ before opener inside attributes parent below o kept heap b',
          front = before ++ opener :: inside ∧
          opener.event = .opened property.name attributes property.location ∧
          opener.builder.stack = rest ∧
          (∀ x ∈ inside, rest.length < x.builder.stack.length) ∧
          v = lastGiven (rest.length + 1) inside ∧
          rest = parent :: below ∧ parent.value = .object o ∧
          (kept = v ∨ ∃ text type, v = .string text ∧ kept = coerce text type) ∧
          d.session.heap.put o property.name.localName kept = .ok heap ∧
          (d.builder.step nested d.event).perform d.session =
            (.ok b', { d.session with heap })) := by
  obtain ⟨taken, b, ahead, hreached, -, hroot, -, -, hevents⟩ := Builder.parse_ok h
  refine ⟨taken, b, ahead, hreached, hroot, hevents, ?_, ?_⟩
  · intro d hd place child parent below v hevent hstack hgift
    obtain ⟨b', t', hstep⟩ := hreached.step_taken hd
    have hclosed : (d.builder.closed place).perform d.session = (.ok b', t') := by
      rwa [hevent] at hstep
    obtain ⟨u, happlied, hb', htakes⟩ := Builder.closed_gives hstack hgift hclosed
    exact ⟨u, b', t', happlied, hstep, hb', htakes parent below rfl⟩
  · intro front d back place property rest v htaken hevent hstack hcontent
    obtain ⟨b', t', hstep⟩ := hreached.step_taken (d := d) (by simp [htaken])
    have hclosed : (({ d.builder with stack := rest }).closeAssignment property v).perform
        d.session = (.ok b', t') := by
      rw [hevent] at hstep
      simpa only [Builder.step, Builder.closed, hstack, hcontent] using hstep
    obtain ⟨parent, below, o, kept, heap, hrest, hvalue, hput, rfl, hkept⟩ :=
      Builder.closeAssignment_puts hclosed
    obtain ⟨after, hbefore⟩ := hreached.before_taken htaken
    obtain ⟨before, opener, inside, attributes, hfront, hopener, hbelow, hinside, hgiven⟩ :=
      hbefore.lastGiven [] property rest v hstack hcontent
    exact ⟨before, opener, inside, attributes, parent, below, o, kept, heap, b', hfront, hopener,
      hbelow, hinside, hgiven, hrest, hvalue, hkept, hput, hstep⟩

/-- A list in a property of a map. -/
theorem children_kept_of_list :
    ∃ (document : Document) (t : Session) (taken : List Delivery) (b : Builder)
      (ahead : List Signal), Builder.Reached (Reader.readNested 1) .plain
      "<HashMap xmlns='wtkx.collections'><k><ArrayList/></k></HashMap>".toList none .initial
      taken b t ahead ∧ b.root = some document.root ∧
      (t.heap.object ⟨0⟩).properties = [("k", some (.object ⟨1⟩))] := by
  have hread : ((Reader.plain.parse (Reader.readNested 1)
      "<HashMap xmlns='wtkx.collections'><k><ArrayList/></k></HashMap>".toList
      none).perform .initial).1.toOption.isSome ∧
      (((Reader.plain.parse (Reader.readNested 1)
      "<HashMap xmlns='wtkx.collections'><k><ArrayList/></k></HashMap>".toList
      none).perform .initial).2.heap.object ⟨0⟩).properties = [("k", some (.object ⟨1⟩))] := by
    decide +kernel
  rcases hperform : (Reader.plain.parse (Reader.readNested 1)
      "<HashMap xmlns='wtkx.collections'><k><ArrayList/></k></HashMap>".toList
      none).perform .initial with ⟨e | document, t⟩
  · rw [hperform] at hread
    cases hread.1
  · rw [hperform] at hread
    obtain ⟨taken, b, ahead, hreached, hroot, -⟩ := children_kept hperform
    exact ⟨document, t, taken, b, ahead, hreached, hroot, hread.2⟩

/-- A child of a property element is lost when text or another child comes after it: the read
succeeds, the property has the later value, and nothing refers to the earlier child. -/
theorem property_child_lost :
    let textAfter := "<HashMap xmlns='wtkx.collections'><k><ArrayList/>text</k></HashMap>".toList
    let childAfter :=
      "<HashMap xmlns='wtkx.collections'><k><ArrayList/><HashMap/></k></HashMap>".toList
    let read := fun source => (Reader.plain.parse (Reader.readNested 1) source none).perform .initial
    let lost := fun source => (List.range 3).all fun o =>
      decide (⟨1⟩ ∉ ((read source).2.heap.object ⟨o⟩).refs)
    ((read textAfter).1.toOption.map Document.root = some (.object ⟨0⟩) ∧
      ((read textAfter).2.heap.object ⟨0⟩).properties = [("k", some (.string "text"))] ∧
      ((read textAfter).2.heap.object ⟨1⟩).typeName = "ArrayList" ∧ lost textAfter = true) ∧
    (read childAfter).1.toOption.map Document.root = some (.object ⟨0⟩) ∧
      ((read childAfter).2.heap.object ⟨0⟩).properties = [("k", some (.object ⟨2⟩))] ∧
      ((read childAfter).2.heap.object ⟨1⟩).typeName = "ArrayList" ∧ lost childAfter = true := by
  decide +kernel

end ObjectMarkup
