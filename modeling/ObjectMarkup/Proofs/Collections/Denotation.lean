import ObjectMarkup.Proofs.Collections.Building
import ObjectMarkup.Proofs.Document.Take
import ObjectMarkup.Proofs.Document.Visit

namespace ObjectMarkup

open Markup

namespace Collections

variable {nested : Reader → String → Reading Document}

/-- An open element that values are handed to: the builder, and the first objects made since `base`,
when it has got some values. -/
structure Receiver where
  base : Session
  builder : List Value → Builder
  own : List Value → List Object
  owned : Nat
  length_own : ∀ vs, (own vs).length = owned
  types : ∀ vs, (builder vs).reader.environment.types.HasCollections
  unrooted : ∀ vs, (builder vs).root = none
  inside : ∀ vs, (builder vs).stack ≠ []
  blank : ∀ vs content, Text.isBlank content.toList = true →
    (builder vs).text content = pure (builder vs)
  text : ∀ vs os content, Text.isBlank content.toList = false →
    ((builder vs).text content).perform (base.extend (own vs ++ os)) =
      (.ok (builder (vs ++ [.string content])), base.extend (own (vs ++ [.string content]) ++ os))
  join : ∀ vs os v place,
    ((builder vs).join v place).perform (base.extend (own vs ++ os)) =
      (.ok (builder (vs ++ [v])), base.extend (own (vs ++ [v]) ++ os))

namespace Receiver

variable {b : Builder} {s : Session} {name : QualifiedName} {place : Location} {closing : Closing}
  {rest : List Element}

def ofList (hstack : b.stack = ⟨name, place, .created ⟨s.heap.size⟩ closing⟩ :: rest)
    (hroot : b.root = none) (htypes : b.reader.environment.types.HasCollections) : Receiver where
  base := s
  builder := fun _ => b
  own := fun vs => [listOf vs]
  owned := 1
  length_own := fun _ => rfl
  types := fun _ => htypes
  unrooted := fun _ => hroot
  inside := by simp [hstack]
  blank := by
    intro vs content hcontent
    simp only [Builder.text, hstack, hcontent, if_true]
  text := fun vs os content hcontent => text_list hstack hcontent
  join := fun vs os v place' => join_list hstack place'

def ofKey (b : Builder) (s : Session) (name : QualifiedName) (place : Location)
    (hroot : b.root = none) (htypes : b.reader.environment.types.HasCollections) : Receiver where
  base := s
  builder := fun vs => b.push ⟨name, place, .assignment (lastValue vs)⟩
  own := fun _ => []
  owned := 0
  length_own := fun _ => rfl
  types := fun _ => htypes
  unrooted := fun _ => hroot
  inside := by simp [Builder.push]
  blank := by
    intro vs content hcontent
    simp only [Builder.text, Builder.push, hcontent, if_true]
  text := by
    intro vs os content hcontent
    simp only [Builder.text, Builder.push, hcontent, Bool.false_eq_true, if_false, lastValue,
      List.getLast?_concat, Option.getD_some]
    rfl
  join := by
    intro vs os v place'
    simp only [Builder.join, Builder.push, lastValue, List.getLast?_concat, Option.getD_some]
    rfl

variable (r : Receiver) (vs : List Value) (os : List Object)

/-- The session when it has got some values and other objects were made. -/
def session : Session := r.base.extend (r.own vs ++ os)

def next : Nat := r.base.heap.size + r.owned + os.length

theorem size_session : (r.session vs os).heap.size = r.next os := by
  simp [session, next, r.length_own, Nat.add_assoc]

theorem take_text {content : String} {events : List Event} (h : TextTold content events) :
    ((r.builder vs).take nested events).perform (r.session vs os) =
      (.ok (r.builder (vs ++ textValues content)), r.session (vs ++ textValues content) os) := by
  cases h with
  | none =>
    have hnone : textValues "" = [] := by decide
    rw [hnone, List.append_nil]
    rfl
  | some nonempty location =>
    rw [Builder.take_singleton (r.unrooted vs)]
    unfold textValues
    cases hcontent : Text.isBlank content.toList with
    | true =>
      simp only [Builder.step, r.blank vs content hcontent, if_true, List.append_nil]
      rfl
    | false => exact r.text vs os content hcontent

end Receiver

/-- What there is to taking the events of an item: the object is made with all objects inside it,
and then handed to the element around it. -/
def Item.Taken (nested : Reader → String → Reading Document) (item : Item)
    (events : List Event) : Prop :=
  ∃ place, ∀ (b : Builder) (s : Session), b.root = none →
    b.reader.environment.types.HasCollections →
    (b.take nested events).perform s =
      ((do
        let b ← b.join (.object ⟨s.heap.size⟩) place
        return b.rooted (.object ⟨s.heap.size⟩)) : Reading Builder).perform
          (s.extend (item.objects s.heap.size))

def Items.Taken (nested : Reader → String → Reading Document) (items : Items)
    (events : List Event) : Prop :=
  ∀ (r : Receiver) (vs : List Value) (os : List Object),
    ((r.builder vs).take nested events).perform (r.session vs os) =
      (.ok (r.builder (vs ++ items.values (r.next os))),
        r.session (vs ++ items.values (r.next os)) (os ++ items.objects (r.next os)))

/-- The innermost element is that of the first object made since `s`. -/
structure Inside (b : Builder) (s : Session) : Prop where
  innermost : ∃ name place closing rest,
    b.stack = ⟨name, place, .created ⟨s.heap.size⟩ closing⟩ :: rest
  unrooted : b.root = none
  types : b.reader.environment.types.HasCollections

def Members.Taken (nested : Reader → String → Reading Document) (members : Members)
    (events : List Event) : Prop :=
  ∀ (b : Builder) (s : Session), Inside b s → ∀ (es : List (String × Value)) (os : List Object),
    (b.take nested events).perform (s.extend (mapOf es :: os)) =
      (.ok b, s.extend (mapOf (es ++ members.entries (s.heap.size + 1 + os.length)) ::
        (os ++ members.objects (s.heap.size + 1 + os.length))))

/-- An element that makes an object: its start tag makes it, what is inside changes it, and its
attributes change it once more before it joins the object around it. -/
theorem take_element {b : Builder} {s t u v : Session} {name : QualifiedName}
    {attributes : List Attribute} {o : ObjectId} {events : List Event} {start : Location}
    (hroot : b.root = none)
    (hopen : (b.step nested (.opened name attributes start)).perform s =
      (.ok (b.push ⟨name, start, .created o ⟨none, attributes⟩⟩), t))
    (hinside : ((b.push ⟨name, start, .created o ⟨none, attributes⟩⟩).take nested events).perform t =
      (.ok (b.push ⟨name, start, .created o ⟨none, attributes⟩⟩), u))
    (happly : (b.applyAttributes ⟨name, start, .created o ⟨none, attributes⟩⟩ attributes).perform u =
      (.ok (), v)) (ending : Location) :
    (b.take nested (.opened name attributes start :: (events ++ [.closed ending]))).perform s =
      ((do
        let b ← b.join (.object o) start
        return b.rooted (.object o)) : Reading Builder).perform v := by
  rw [Builder.take_cons hroot, Reading.perform_bind_of_ok hopen, Builder.take_append_of_ok hinside,
    Builder.take_singleton (by exact hroot), closed_created rfl]
  exact Reading.perform_bind_of_ok happly _

theorem Item.Taken.list {items : Items} {events : List Event} (h : items.Taken nested events)
    (q : Qualifier) (start ending : Location) :
    (Item.list q items).Taken nested
      (.opened (typed q "ArrayList") [] start :: (events ++ [.closed ending])) := by
  refine ⟨start, fun b s hroot htypes => ?_⟩
  let e : Element := ⟨typed q "ArrayList", start, .created ⟨s.heap.size⟩ ⟨none, []⟩⟩
  have hstack : (b.push e).stack = e :: b.stack := rfl
  have hinside : ((b.push e).take nested events).perform (s.extend [listOf []]) =
      (.ok (b.push e), s.extend ((Item.list q items).objects s.heap.size)) := by
    rw [Item.objects]
    exact h (.ofList hstack hroot htypes) [] []
  exact take_element hroot (opened_list htypes q) hinside rfl ending

theorem Item.Taken.map {members : Members} {events : List Event} (h : members.Taken nested events)
    (q : Qualifier) (attributes : List Entry) (start ending : Location) :
    (Item.map q attributes members).Taken nested
      (.opened (typed q "HashMap") (attributes.map Entry.attribute) start ::
        (events ++ [.closed ending])) := by
  refine ⟨start, fun b s hroot htypes => ?_⟩
  let e : Element := ⟨typed q "HashMap", start,
    .created ⟨s.heap.size⟩ ⟨none, attributes.map Entry.attribute⟩⟩
  have hstack : (b.push e).stack = e :: b.stack := rfl
  have hinside := h (b.push e) s ⟨⟨_, _, _, _, hstack⟩, hroot, htypes⟩ [] []
  have hvalue : e.value = .object ⟨s.heap.size⟩ := rfl
  rw [Item.objects]
  exact take_element hroot (opened_map htypes q attributes) hinside
    (applyAttributes_map hvalue attributes) ending

theorem Items.Taken.text {content : String} {events : List Event} (h : TextTold content events) :
    (Items.text content).Taken nested events := by
  intro r vs os
  rw [Items.values, Items.objects, List.append_nil]
  exact r.take_text vs os h

theorem Receiver.take_item (r : Receiver) (vs : List Value) (os : List Object) {item : Item}
    {events : List Event} (h : item.Taken nested events) :
    ((r.builder vs).take nested events).perform (r.session vs os) =
      (.ok (r.builder (vs ++ [.object ⟨r.next os⟩])),
        r.session (vs ++ [.object ⟨r.next os⟩]) (os ++ item.objects (r.next os))) := by
  obtain ⟨place, h⟩ := h
  have hextend : (r.session vs os).extend (item.objects (r.next os)) =
      r.base.extend (r.own vs ++ (os ++ item.objects (r.next os))) := by
    simp [Receiver.session]
  have hrooted : ∀ vs v, (r.builder vs).rooted v = r.builder vs := by
    intro vs v
    simp [Builder.rooted, r.inside vs]
  rw [h _ _ (r.unrooted vs) (r.types vs), r.size_session, hextend, Reading.perform_bind, r.join]
  simp only [hrooted, Reading.perform_pure, Receiver.session]

theorem Items.Taken.item {before : String} {child : Item} {after : Items}
    {texts element rest : List Event} (text : TextTold before texts)
    (inside : child.Taken nested element) (follows : after.Taken nested rest) :
    (Items.item before child after).Taken nested (texts ++ (element ++ rest)) := by
  intro r vs os
  have hnext : r.next (os ++ child.objects (r.next os)) = r.next os + child.count := by
    simp only [Receiver.next, List.length_append, child.length_objects, Nat.add_assoc]
  rw [Builder.take_append_of_ok (r.take_text vs os text),
    Builder.take_append_of_ok (r.take_item _ os inside), follows, hnext, Items.values,
    Items.objects]
  simp only [List.append_assoc, List.cons_append, List.nil_append]

theorem Inside.take_text {b : Builder} {s : Session} (h : Inside b s) {content : String}
    {events : List Event} (text : TextTold content events) (es : List (String × Value))
    (os : List Object) :
    (b.take nested events).perform (s.extend (mapOf es :: os)) =
      (.ok b, s.extend (mapOf es :: os)) := by
  cases text with
  | none => rfl
  | some nonempty location =>
    obtain ⟨name, place, closing, rest, hstack⟩ := h.innermost
    rw [Builder.take_singleton h.unrooted]
    exact text_map hstack

theorem Members.Taken.text {content : String} {events : List Event} (h : TextTold content events) :
    (Members.text content).Taken nested events := by
  intro b s inside es os
  rw [Members.entries, Members.objects, List.append_nil, List.append_nil]
  exact inside.take_text h es os

theorem Items.Taken.ofKey {items : Items} {events : List Event} (h : items.Taken nested events)
    {b : Builder} {s : Session} (inside : Inside b s) (name : QualifiedName) (place : Location)
    (es : List (String × Value)) (os : List Object) :
    ((b.push ⟨name, place, .assignment .null⟩).take nested events).perform
        (s.extend (mapOf es :: os)) =
      (.ok (b.push ⟨name, place,
          .assignment (lastValue (items.values (s.heap.size + 1 + os.length)))⟩),
        s.extend (mapOf es :: (os ++ items.objects (s.heap.size + 1 + os.length)))) := by
  let r : Receiver :=
    .ofKey b (s.extend (mapOf es :: os)) name place inside.unrooted inside.types
  have hnext : r.next [] = s.heap.size + 1 + os.length := by
    simp [r, Receiver.next, Receiver.ofKey, Nat.add_assoc, Nat.add_comm 1]
  have hall := h r [] []
  rw [hnext] at hall
  simpa [r, Receiver.session, Receiver.ofKey, lastValue] using hall

theorem Members.Taken.property {before : String} {value : Items} {after : Members}
    {texts events rest : List Event} (text : TextTold before texts)
    (within : value.Taken nested events) (follows : after.Taken nested rest) (key : Key)
    (space : Option String) (start ending : Location) :
    (Members.property before key space value after).Taken nested
      (texts ++ .opened ⟨none, key, space⟩ [] start :: (events ++ .closed ending :: rest)) := by
  intro b s inside es os
  obtain ⟨name, place, closing, below, hstack⟩ := inside.innermost
  have hroot : ∀ d, (b.push d).root = none := fun _ => inside.unrooted
  rw [Builder.take_append_of_ok (inside.take_text text es os),
    Builder.take_cons inside.unrooted,
    Reading.perform_bind_of_ok (opened_key hstack key space start),
    Builder.take_append_of_ok (within.ofKey inside _ start es os),
    Builder.take_cons (hroot _),
    Reading.perform_bind_of_ok (closed_key hstack key space start ending), follows b s inside,
    List.length_append, value.length_objects, ← Nat.add_assoc, Members.entries, Members.objects]
  simp only [List.append_assoc, List.cons_append, List.nil_append]

mutual

theorem Item.taken (item : Item) {before : String} {after : Body} {events : List Event}
    (told : (item.body before after).Told events) :
    ∃ texts element rest, events = texts ++ (element ++ rest) ∧ TextTold before texts ∧
      item.Taken nested element ∧ after.Told rest := by
  -- The events of an item stand between those of the text before it and of what follows it.
  cases item with
  | list q items =>
    rw [Item.body] at told
    cases told with
    | element text inside follows start ending =>
      have htaken := Item.Taken.list (items.taken inside) q start ending
      exact ⟨_, _, _, by simp, text, htaken, follows⟩
  | map q attributes members =>
    rw [Item.body] at told
    cases told with
    | element text inside follows start ending =>
      have htaken := Item.Taken.map (members.taken inside) q attributes start ending
      exact ⟨_, _, _, by simp, text, htaken, follows⟩

theorem Items.taken (items : Items) {events : List Event} (told : items.body.Told events) :
    items.Taken nested events := by
  cases items with
  | text content =>
    rw [Items.body] at told
    cases told with
    | text told => exact .text told
  | item before child after =>
    rw [Items.body] at told
    obtain ⟨texts, element, rest, rfl, text, inside, follows⟩ := child.taken told
    exact .item text inside (after.taken follows)

theorem Members.taken (members : Members) {events : List Event} (told : members.body.Told events) :
    members.Taken nested events := by
  cases members with
  | text content =>
    rw [Members.body] at told
    cases told with
    | text told => exact .text told
  | property before key space value after =>
    rw [Members.body] at told
    cases told with
    | element text inside follows start ending =>
      exact .property text (value.taken inside) (after.taken follows) key space start ending

end

variable {r : Reader} {s : Session} {location : Option String} {source : List Char} {lead : String}
  {item : Item}

theorem Item.told_of_begins (h : (item.body lead (.text "")).Begins source) :
    (item.body lead (.text "")).Told (documentEvents source) := by
  cases item with
  | list q items =>
    rw [Item.body] at h ⊢
    exact h.told
  | map q attributes members =>
    rw [Item.body] at h ⊢
    exact h.told

theorem take_text_start {events : List Event} (h : TextTold lead events) :
    ((Builder.start r location).take nested events).perform s =
      (.ok (.start r location), s) := by
  cases h with
  | none => rfl
  | some nonempty place => rfl

theorem parse_item (htypes : r.environment.types.HasCollections)
    (hbegins : (item.body lead (.text "")).Begins (Text.dropMark source)) :
    (r.parse nested source location).perform s =
      (.ok ⟨.object ⟨s.heap.size⟩, .empty, location⟩, s.extend (item.objects s.heap.size)) := by
  have htold := Item.told_of_begins hbegins
  refine (Reader.parse_eq_ok_iff ⟨1, 1⟩).mpr ?_
  generalize documentEvents (Text.dropMark source) = events at htold ⊢
  obtain ⟨texts, element, rest, rfl, text, ⟨place, htaken⟩, follows⟩ :=
    @Item.taken nested item _ _ _ htold
  have hnone : rest = [] := by
    cases follows with
    | text told =>
      cases told with
      | none => rfl
      | some nonempty location => exact absurd rfl nonempty
  have helement := htaken (.start r location) s rfl htypes
  unfold Reader.readEvents
  rw [hnone, List.append_nil, Reading.perform_bind,
    Builder.take_append_of_ok (take_text_start text), helement]
  rfl

end Collections

/-- A document whose outermost element is a list or a map of texts, lists and maps is read. Its
objects are those of the element, made in the order of their start tags, and the root is the first
of them; whatever else exists stays as it is. -/
theorem collections_denoted (r : Reader) (item : Collections.Item) (lead : String)
    (source : List Char) (location : Option String) (x : Reading Document) (s : Session)
    (entry : r.Entry location (.ok source) x) (idle : s.guard = .idle)
    (types : r.environment.types.HasCollections)
    (begins : (item.body lead (.text "")).Begins (Text.dropMark source)) :
    x.perform s =
      (.ok ⟨.object ⟨s.heap.size⟩, .empty, location⟩, s.extend (item.objects s.heap.size)) := by
  have henter : s.guard.enter location = .ok ⟨location.toList, 1⟩ := Reader.Entry.enter_idle idle
  have hparse : (r.parse Reader.read source location).perform
      { s with guard := ⟨location.toList, 1⟩ } = _ :=
    Collections.parse_item types begins
  rw [entry.perform_eq]
  refine Reading.within_eq_ok.mpr ⟨_, _, henter, hparse, ?_⟩
  rw [Session.guard_extend, Guard.leave_of_enter henter]
  rfl

/-- An attribute is stored after the elements of keys, here under the same key. -/
theorem collections_denoted_of_map :
    (Reader.plain.readText
      "<HashMap xmlns='wtkx.collections' k='v'><k>a<ArrayList/></k></HashMap>").perform .initial =
      (.ok ⟨.object ⟨0⟩, .empty, none⟩, Session.initial.extend
        [Collections.mapOf [("k", .string "v")], Collections.listOf []]) := by
  let list : Collections.Item := .list ⟨none, by decide⟩ (.text "")
  let map : Collections.Item := .map ⟨none, by decide⟩ [⟨⟨"k", by decide⟩, "v", by decide⟩]
    (.property "" ⟨"k", by decide⟩ (some collectionsSpace) (.item "a" list (.text "")) (.text ""))
  let tag := "HashMap xmlns='wtkx.collections' k='v'".toList
  let scope : Scope := [⟨none, collectionsSpace⟩]
  have hmap : Scope.startTag? [] tag =
      some (scope, ⟨none, "HashMap", some collectionsSpace⟩, [⟨⟨none, "k", none⟩, "v"⟩]) := by
    decide +kernel
  have hkey : scope.startTag? ['k'] = some ([], ⟨none, "k", some collectionsSpace⟩, []) := by
    decide +kernel
  have hlist : scope.startTag? "ArrayList".toList =
      some ([], ⟨none, "ArrayList", some collectionsSpace⟩, []) := by
    decide +kernel
  have htext : Pieces "a".toList [⟨.text ['a'], 43⟩] := by
    rw [show "a".toList = ['a'] ++ [] by decide]
    exact .cons rfl .nil
  have hspelled : (map.body "" (.text "")).Spelled []
      ([] ++ ⟨.openTag tag, 0⟩ :: (([] ++ ⟨.openTag ['k'], 40⟩ ::
        (([⟨.text ['a'], 43⟩] ++ ⟨.emptyTag "ArrayList".toList, 44⟩ :: []) ++
          ⟨.closeTag (tagName ['k']), 56⟩ :: [])) ++ ⟨.closeTag (tagName tag), 60⟩ :: [])) :=
    .element .nil hmap (.element .nil hkey (.empty htext hlist (.text .nil)) (.text .nil))
      (.text .nil)
  have hbegins : (map.body "" (.text "")).Begins (Text.dropMark
      "<HashMap xmlns='wtkx.collections' k='v'><k>a<ArrayList/></k></HashMap>".toList) := by
    refine ⟨_, [], ?_, hspelled⟩
    decide +kernel
  have h := collections_denoted .plain map "" _ none _ .initial (.text _) rfl
    TypeRegistry.hasCollections_collections hbegins
  exact h

end ObjectMarkup
