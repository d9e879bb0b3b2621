import Mathlib.Logic.Relation
import ObjectMarkup.Proofs.Document.Visit

namespace ObjectMarkup

open Markup

open Reading (Follows Same)

/-- No location is open twice, there are no more locations than open documents, and no more documents
than may be open. -/
structure Guard.Sound (g : Guard) : Prop where
  distinct : g.active.Nodup
  counted : g.active.length ≤ g.depth
  bounded : g.depth ≤ maxDepth

/-- A step that leaves the open documents as it found them, whether it succeeds or fails. -/
def Reading.Balanced {α : Type} (x : Reading α) : Prop := ∀ s, (x.perform s).2.guard = s.guard

/-- A read that is begun: what it reads with, where the document is, its text or why it has none, and
the session that it finds. -/
structure Call where
  reader : Reader
  location : Option String
  source : Except ReadError (List Char)
  session : Session

namespace Call

def body (c : Call) : Reading Document := do
  let text ← .lift id c.source
  c.reader.parse Reader.read text c.location

def outcome (c : Call) : Except ReadError Document × Session :=
  (Reading.within c.location c.body).perform c.session

/-- While its document is open, the read comes to an inclusion and begins another. -/
inductive Calls (c : Call) : Call → Prop
  | intro {guard : Guard} {text : List Char} {taken : List Delivery} {b : Builder} {t : Session}
      {e : Event} {ahead : List Signal} {i : Inclusion} {reader : Reader}
      (opened : c.session.guard.enter c.location = .ok guard) (source : c.source = .ok text)
      (moment : Builder.Reached Reader.read c.reader text c.location { c.session with guard } taken
        b t (.event e :: ahead))
      (inclusion : e.inclusion? = some i) (own : c.reader.forInclusion i = .ok reader) :
      Calls c ⟨reader, some (i.path c.location), reader.sourceAt (i.path c.location), t⟩

/-- A session of the read itself while its document is open: when the document has been opened,
between two events, and when it is about to be closed. -/
inductive During (c : Call) (guard : Guard) : Session → Prop
  | opened : During c guard { c.session with guard }
  | moment {text : List Char} {taken : List Delivery} {b : Builder} {t : Session}
      {ahead : List Signal} (source : c.source = .ok text)
      (moment : Builder.Reached Reader.read c.reader text c.location { c.session with guard } taken
        b t ahead) : During c guard t
  | closing : During c guard (c.body.perform { c.session with guard }).2

/-- A session of the read itself: before and after its document is open, and meanwhile. -/
inductive Sees (c : Call) : Session → Prop
  | begun : Sees c c.session
  | during {guard : Guard} {t : Session} (opened : c.session.guard.enter c.location = .ok guard)
      (inside : c.During guard t) : Sees c t
  | returned : Sees c c.outcome.2

end Call

namespace Guard

theorem sound_idle : idle.Sound := ⟨List.nodup_nil, Nat.le_refl 0, Nat.zero_le _⟩

/-- Opening a document leaves the guard sound, and there is one to close then. -/
theorem Sound.enter {g inner : Guard} {location : Option String} (h : g.Sound)
    (henter : g.enter location = .ok inner) : inner.Sound ∧ 0 < inner.depth := by
  obtain ⟨hdepth, hnew, rfl⟩ := enter_ok henter
  refine ⟨⟨?_, ?_, hdepth⟩, Nat.succ_pos _⟩
  · refine List.nodup_append.mpr ⟨h.distinct, by cases location <;> simp, ?_⟩
    rintro l hl _ hlocation rfl
    exact hnew l (Option.mem_toList.mp hlocation) hl
  · have hcounted := h.counted
    have hlength : location.toList.length ≤ 1 := by cases location <;> simp
    simp only [List.length_append]
    omega

end Guard

namespace Reading.Balanced

variable {α : Type} {x : Reading α}

theorem of_follows (h : ∀ g, Follows (Same (· = g)) (fun _ => False) (· = ·) x x) : x.Balanced :=
  fun s => ((h s.guard).perform_eq rfl).2

theorem follows (h : x.Balanced) (g : Guard) :
    Follows (Same (· = g)) (fun _ => False) (· = ·) x x :=
  .of_kept fun s hs => (h s).trans hs

/-- A document is closed after what is done while it is open, whatever comes of that. -/
theorem within (h : x.Balanced) (location : Option String) : (Reading.within location x).Balanced :=
  of_follows fun _ => follows_within fun inner _ => h.follows inner

theorem lift_bind {ε : Type} {wrap : ε → ReadError} {y : Except ε α} {β : Type} {f : α → Reading β}
    (h : ∀ a, (f a).Balanced) : (Reading.lift wrap y >>= f).Balanced := by
  intro s
  cases y with
  | error e => rfl
  | ok a => exact h a s

end Reading.Balanced

namespace Reader

variable {nested : Reader → String → Reading Document} (hnested : ∀ r l, (nested r l).Balanced)
  (r : Reader)

include hnested

theorem balanced_parse (text : List Char) (location : Option String) :
    (r.parse nested text location).Balanced :=
  .of_follows fun g => follows_parse (.refl r) fun _ _ _ _ =>
    follows_readIncluded fun r l => (hnested r l).follows g

theorem balanced_parseBytes (bytes : Bytes) (location : Option String) :
    (r.parseBytes nested bytes location).Balanced :=
  .lift_bind fun text => balanced_parse hnested r text location

omit hnested

/-- Each document is closed, however little room there is for those inside it. -/
theorem balanced_readNested (room : Nat) (r : Reader) (l : String) :
    (readNested room r l).Balanced := by
  induction room generalizing r l with
  | zero => exact fun s => rfl
  | succ room ih =>
    exact (Reading.Balanced.lift_bind fun bytes => balanced_parseBytes ih r bytes (some l)).within _

theorem balanced_readBytes (bytes : Bytes) (location : Option String) :
    (r.readBytes bytes location).Balanced :=
  (balanced_parseBytes (balanced_readNested _) r bytes location).within _

theorem balanced_readText (source : String) : (r.readText source).Balanced :=
  (balanced_parse (balanced_readNested _) r source.toList none).within _

end Reader

namespace Call

variable {c c' first : Call} {guard : Guard} {t : Session}

theorem balanced_body (c : Call) : c.body.Balanced :=
  .lift_bind fun text => Reader.balanced_parse (Reader.balanced_readNested _) c.reader text c.location

theorem guard_outcome (c : Call) : c.outcome.2.guard = c.session.guard :=
  c.balanced_body.within c.location c.session

/-- While the document is open, the guard is as it was when the document was opened. -/
theorem During.guard_eq (h : c.During guard t) : t.guard = guard := by
  cases h with
  | opened => rfl
  | moment source moment => exact moment.guard_eq
  | closing => exact c.balanced_body _

/-- What an inclusion does is to begin a read, unless there is no bundle for it. -/
theorem inclusion_calls {text : List Char} {taken : List Delivery} {b : Builder} {e : Event}
    {ahead : List Signal} {i : Inclusion} (hopened : c.session.guard.enter c.location = .ok guard)
    (hsource : c.source = .ok text)
    (hmoment : Builder.Reached Reader.read c.reader text c.location { c.session with guard } taken b t
      (.event e :: ahead)) (hi : e.inclusion? = some i) :
    (∃ error, c.reader.forInclusion i = .error error ∧
      (b.step Reader.read e).perform t = (.error error, t)) ∨
    ∃ c', c.Calls c' ∧ c'.location = some (i.path c.location) ∧ c'.session = t ∧
      ((b.step Reader.read e).perform t).2 = c'.outcome.2 := by
  obtain ⟨name, attributes, place, closing, -, -, -, hstep⟩ := Builder.step_inclusion hi
  rw [hstep, hmoment.reader_eq, hmoment.location_eq, Reader.readIncluded]
  cases hown : c.reader.forInclusion i with
  | error error => exact .inl ⟨error, rfl, rfl⟩
  | ok reader =>
    right
    refine ⟨_, .intro hopened hsource hmoment hi hown, rfl, rfl, ?_⟩
    change ((do
      let d ← Reading.mapError (ReadError.through (i.path c.location))
        (reader.read (i.path c.location))
      return b.push (d.asElement name closing place) : Reading Builder).perform t).2 =
        ((reader.readSource (some (i.path c.location))
          (reader.sourceAt (i.path c.location))).perform t).2
    rw [Reading.perform_bind, Reading.perform_mapError, Reader.read_eq_readSource]
    generalize Reading.perform _ t = result
    obtain ⟨error | d, u⟩ := result
    · rfl
    · rfl

/-- A call is begun with the guard with which the document around it was opened. -/
theorem Calls.enter_eq (h : c.Calls c') :
    c.session.guard.enter c.location = .ok c'.session.guard := by
  cases h with
  | intro opened source moment inclusion own =>
    rw [moment.guard_eq]
    exact opened

/-- Calls find a sound guard when the first one does. -/
theorem sound_of_calls (hfirst : first.session.guard.Sound)
    (h : Relation.ReflTransGen Calls first c) : c.session.guard.Sound := by
  induction h with
  | refl => exact hfirst
  | tail _ calls ih => exact (ih.enter calls.enter_eq).1

theorem Sees.sound (hsound : c.session.guard.Sound) (h : c.Sees t) : t.guard.Sound := by
  cases h with
  | begun => exact hsound
  | during opened inside =>
    rw [inside.guard_eq]
    exact (hsound.enter opened).1
  | returned =>
    rw [c.guard_outcome]
    exact hsound

end Call

/-- Reading a document, at whatever location, leaves the guard as it was, whatever it finds open and
whatever comes of it. When reading starts with no document open, this goes for all the reads that it
begins at inclusions as well, and there are no others. In every session of any of them no location is
open twice, there are no more locations than open documents, and no more than 64 of those. While a
document is open, its read has the guard with which it was opened, and closing it, which has one
document to take off the count, gives the guard from before. -/
theorem reads_close_what_they_open (r : Reader) :
    (∀ room l s, ((Reader.readNested room r l).perform s).2.guard = s.guard) ∧
    (∀ bytes location s, ((r.readBytes bytes location).perform s).2.guard = s.guard) ∧
    (∀ source s, ((r.readText source).perform s).2.guard = s.guard) ∧
    ∀ location source x s, r.Entry location source x → s.guard = .idle →
      x.perform s = Call.outcome ⟨r, location, source, s⟩ ∧
      ∀ c, Relation.ReflTransGen Call.Calls ⟨r, location, source, s⟩ c →
        c.outcome.2.guard = c.session.guard ∧
        (∀ t, c.Sees t → t.guard.active.Nodup ∧ t.guard.active.length ≤ t.guard.depth ∧
          t.guard.depth ≤ 64) ∧
        ∀ guard, c.session.guard.enter c.location = .ok guard →
          (guard.leave c.location).depth + 1 = guard.depth ∧
          guard.leave c.location = c.session.guard ∧
          (∀ t, c.During guard t → t.guard = guard) ∧
          ∀ text taken b t e ahead i, c.source = .ok text →
            Builder.Reached Reader.read c.reader text c.location { c.session with guard } taken b t
              (.event e :: ahead) →
            e.inclusion? = some i →
            (∃ error, c.reader.forInclusion i = .error error ∧
              (b.step Reader.read e).perform t = (.error error, t)) ∨
            ∃ c', c.Calls c' ∧ c'.location = some (i.path c.location) ∧ c'.session = t ∧
              ((b.step Reader.read e).perform t).2 = c'.outcome.2 := by
  refine ⟨fun room => Reader.balanced_readNested room r, r.balanced_readBytes, r.balanced_readText,
    ?_⟩
  intro location source x s hx hs
  refine ⟨hx.perform_eq s, fun c hcalls => ?_⟩
  have hsound : c.session.guard.Sound := Call.sound_of_calls (hs ▸ Guard.sound_idle) hcalls
  refine ⟨c.guard_outcome, fun t ht => ?_, fun guard henter => ⟨?_, Guard.leave_of_enter henter,
    fun t ht => ht.guard_eq, fun text taken b t e ahead i => Call.inclusion_calls henter⟩⟩
  · have hseen := ht.sound hsound
    exact ⟨hseen.distinct, hseen.counted, hseen.bounded⟩
  · exact Nat.sub_add_cancel (hsound.enter henter).2

/-- A document that includes itself through another one: the inner read is refused, and both are
closed again. -/
theorem reads_close_what_they_open_of_cycle :
    let library := (Library.empty.addText "a" "<wtkx:include src='b'/>").addText "b"
      "<wtkx:include src='a'/>"
    let r := Reader.ofLibrary library
    let first : Call := ⟨r, some "a", r.sourceAt "a", .initial⟩
    ∃ t c, (r.read "a").perform .initial = (.error (.nesting (.cyclic ["a", "b", "a"])), t) ∧
      t.guard = .idle ∧ first.Calls c ∧ c.location = some "b" ∧ c.session.guard = ⟨["a"], 1⟩ ∧
      c.outcome.2.guard = ⟨["a"], 1⟩ ∧ c.Sees c.outcome.2 ∧ c.outcome.2.guard.active.Nodup ∧
      c.session.guard.enter (some "b") = .ok ⟨["a", "b"], 2⟩ ∧
      (Guard.mk ["a", "b"] 2).leave (some "b") = ⟨["a"], 1⟩ := by
  intro library r first
  have htext : (r.sourceAt "a").toOption = some "<wtkx:include src='b'/>".toList := by
    decide +kernel
  have hinclusion : ((signals (Text.dropMark "<wtkx:include src='b'/>".toList)).head?.bind
      Signal.event?).bind Event.inclusion? = some ⟨"b", none⟩ := by
    decide +kernel
  have hcycle : (match ((r.read "a").perform .initial).1 with
      | .ok _ => false
      | .error e => e = .nesting (.cyclic ["a", "b", "a"])) = true := by
    decide +kernel
  obtain ⟨-, -, -, hentered⟩ := reads_close_what_they_open r
  obtain ⟨hperform, hcalls⟩ := hentered _ _ _ .initial (.located "a") rfl
  obtain ⟨hkept, -, hopen⟩ := hcalls first .refl
  obtain ⟨-, -, -, hinclusions⟩ := hopen ⟨["a"], 1⟩ rfl
  clear_value r
  -- the first event of the outer document is the inclusion
  rcases hsource : r.sourceAt "a" with error | text
  · rw [hsource] at htext
    cases htext
  rw [hsource] at htext
  cases htext
  rcases hahead : signals (Text.dropMark "<wtkx:include src='b'/>".toList) with _ | ⟨signal, ahead⟩
  · rw [hahead] at hinclusion
    cases hinclusion
  rw [hahead] at hinclusion
  cases signal with
  | fault f => cases hinclusion
  | checkpoint => cases hinclusion
  | event e =>
    have hstart : Builder.Reached Reader.read r "<wtkx:include src='b'/>".toList (some "a")
        { Session.initial with guard := ⟨["a"], 1⟩ } [] (.start r (some "a"))
        { Session.initial with guard := ⟨["a"], 1⟩ } (.event e :: ahead) := hahead ▸ .start
    rcases hinclusions _ _ _ _ e ahead ⟨"b", none⟩ hsource hstart hinclusion with
      ⟨error, herror, -⟩ | ⟨c, hc, hlocation, hsession, -⟩
    · cases herror
    have hpath : (Inclusion.mk "b" none).path (some "a") = "b" := by decide +kernel
    have hguard : c.session.guard = ⟨["a"], 1⟩ := by rw [hsession]
    have hb : c.location = some "b" := by rw [hlocation]; exact congrArg some hpath
    obtain ⟨hkept', hsound, hopen'⟩ := hcalls c (.single hc)
    have henter : c.session.guard.enter (some "b") = .ok ⟨["a", "b"], 2⟩ := by rw [hguard]; rfl
    have hleave := (hopen' _ (hb ▸ henter)).2.1
    rw [hb, hguard] at hleave
    rw [hguard] at hkept'
    rcases hresult : (r.read "a").perform .initial with ⟨error | d, t⟩
    · rw [hresult] at hcycle hperform
      obtain rfl : error = .nesting (.cyclic ["a", "b", "a"]) := of_decide_eq_true hcycle
      rw [← hperform] at hkept
      exact ⟨t, c, rfl, hkept, hc, hb, hguard, hkept', .returned, (hsound _ .returned).1, henter,
        hleave⟩
    · rw [hresult] at hcycle
      cases hcycle

end ObjectMarkup
