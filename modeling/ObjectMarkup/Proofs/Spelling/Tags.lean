import ObjectMarkup.Proofs.Markup.AttributeList
import ObjectMarkup.Proofs.Spelling.Qualifiers

namespace ObjectMarkup.Markup

open Unicode

variable {σ : List Char → List Char}

/-- What a text begins with before a given end of it. -/
def upTo (cs rest : List Char) : List Char := cs.take (cs.length - rest.length)

/-- An attribute as it stands in a tag: what is before its key, the key, and what is after it. -/
structure Part where
  before : List Char
  key : List Char
  after : List Char
  deriving DecidableEq, Repr

/-- The attributes in the text after the name of a tag, as far as they can be read, and the text
that cannot; `fuel` bounds their number. -/
def attributeParts : Nat → List Char → List Part × List Char
  | 0, cs => ([], cs)
  | fuel + 1, cs =>
    let list := skipSpace cs
    match splitKey list with
    | .error _ => ([], cs)
    | .ok (key, valued) =>
      let after := list.drop key.length
      match splitValue valued with
      | .error _ => ([⟨upTo cs list, key, after⟩], [])
      | .ok (_, rest) =>
        let (parts, last) := attributeParts fuel rest
        (⟨upTo cs list, key, upTo after rest⟩ :: parts, last)

def Part.respell (σ : List Char → List Char) (p : Part) : List Char :=
  p.before ++ respellKey σ p.key ++ p.after

/-- The text after the name of a tag with its keys respelled. -/
def respellAttributes (σ : List Char → List Char) (fuel : Nat) (cs : List Char) : List Char :=
  (attributeParts fuel cs).1.flatMap (Part.respell σ) ++ (attributeParts fuel cs).2

def respellTag (σ : List Char → List Char) (tag : List Char) : List Char :=
  respellName σ (tagName tag) ++ respellAttributes σ (tag.length + 1) (tagRest tag)

/-- What stands between the brackets of a tag, with its qualifiers renamed. -/
def respellContent (σ : List Char → List Char) (content : List Char) : List Char :=
  match content with
  | '/' :: name => '/' :: respellName σ name
  | _ =>
    if content.getLast? = some '/' then respellTag σ content.dropLast ++ ['/']
    else respellTag σ content

theorem upTo_append (front rest : List Char) : upTo (front ++ rest) rest = front := by
  simp [upTo]

section Parts

variable {cs lead key gap front rest valued raw : List Char}

theorem respellAttributes_unread {f : MarkupFault} (h : splitKey (skipSpace cs) = .error f)
    (fuel : Nat) : respellAttributes σ (fuel + 1) cs = cs := by
  simp only [respellAttributes, attributeParts, h]
  rfl

theorem attributeParts_valueless {f : MarkupFault} (h : KeyLaid lead key gap)
    (hvalue : splitValue valued = .error f) (fuel : Nat) :
    attributeParts (fuel + 1) (lead ++ (key ++ (gap ++ '=' :: valued))) =
      ([⟨lead, key, gap ++ '=' :: valued⟩], []) := by
  simp only [attributeParts, h.skipSpace_eq, h.splitKey_eq, hvalue, upTo_append, List.drop_left]

theorem attributeParts_item (h : KeyLaid lead key gap)
    (hvalue : splitValue (front ++ rest) = .ok (raw, rest)) (fuel : Nat) :
    attributeParts (fuel + 1) (lead ++ (key ++ (gap ++ '=' :: (front ++ rest)))) =
      (⟨lead, key, gap ++ '=' :: front⟩ :: (attributeParts fuel rest).1,
        (attributeParts fuel rest).2) := by
  have hafter : gap ++ '=' :: (front ++ rest) = gap ++ '=' :: front ++ rest := by simp
  simp only [attributeParts, h.skipSpace_eq, h.splitKey_eq, hvalue, upTo_append, List.drop_left]
  rw [hafter, upTo_append]

theorem respellAttributes_valueless {f : MarkupFault} (h : KeyLaid lead key gap)
    (hvalue : splitValue valued = .error f) (fuel : Nat) :
    respellAttributes σ (fuel + 1) (lead ++ (key ++ (gap ++ '=' :: valued))) =
      lead ++ (respellKey σ key ++ (gap ++ '=' :: valued)) := by
  simp [respellAttributes, attributeParts_valueless h hvalue, Part.respell]

theorem respellAttributes_item (h : KeyLaid lead key gap)
    (hvalue : splitValue (front ++ rest) = .ok (raw, rest)) (fuel : Nat) :
    respellAttributes σ (fuel + 1) (lead ++ (key ++ (gap ++ '=' :: (front ++ rest)))) =
      lead ++ (respellKey σ key ++ (gap ++ '=' :: (front ++ respellAttributes σ fuel rest))) := by
  simp [respellAttributes, attributeParts_item h hvalue, Part.respell]

end Parts

/-- A respelled name has what the moved qualifiers have, and the rest of the name. -/
theorem respellName_cases (h : Renaming σ) (name : List Char) : respellName σ name = name ∨
    ∃ x l, name = x ++ ':' :: l ∧ respellName σ name = σ x ++ ':' :: l ∧ isPrefix x = true ∧
      isPrefix (σ x) = true := by
  unfold respellName
  cases hcut : Text.cutFirst ':' name with
  | none => exact .inl rfl
  | some p =>
    obtain ⟨x, l⟩ := p
    have hname := (Text.cutFirst_eq_some hcut).1
    by_cases hx : σ x = x
    · left
      rw [hname]
      simp [hx]
    · exact .inr ⟨x, l, hname, rfl, h.moved x hx⟩

theorem respellKey_cases (h : Renaming σ) (key : List Char) : respellKey σ key = key ∨
    ∃ front x back, key = front ++ (x ++ back) ∧ respellKey σ key = front ++ (σ x ++ back) ∧
      isPrefix x = true ∧ isPrefix (σ x) = true := by
  unfold respellKey
  split
  · rename_i hkey
    obtain ⟨x, rfl⟩ := List.isPrefixOf_iff_prefix.mp hkey
    by_cases hx : σ x = x
    · left
      exact congrArg _ hx
    · exact .inr ⟨"xmlns:".toList, x, [], by simp, by simp, h.moved x hx⟩
  · rcases respellName_cases h key with hname | ⟨x, l, hkey, hname, hx⟩
    · exact .inl hname
    · exact .inr ⟨[], x, ':' :: l, hkey, hname, hx⟩

theorem isPrefix_cons {x : List Char} (hx : isPrefix x = true) :
    ∃ c y, x = c :: y ∧ c ≠ '/' ∧ c ≠ '!' ∧ c ≠ '?' := by
  cases x with
  | nil => cases hx
  | cons c y =>
    simp only [isPrefix, Bool.and_eq_true, List.head?_cons, Option.any_some, decide_eq_true_eq,
      and_assoc] at hx
    exact ⟨c, y, rfl, hx.2⟩

theorem isKeyChar_of_isPrefixChar {c : Char} (hc : isPrefixChar c = true) : isKeyChar c = true := by
  simp only [isPrefixChar, Bool.and_eq_true] at hc
  exact hc.1.1.1.1

theorem isMarkupSpace_of_isKeyChar {c : Char} (hc : isKeyChar c = true) :
    isMarkupSpace c = false := by
  simp only [isKeyChar, Bool.and_eq_true, Bool.not_eq_true'] at hc
  exact hc.2

theorem forall_mem_tail_replace {P : Char → Prop} {front x y back : List Char} (hx : x ≠ [])
    (hy : ∀ c ∈ y, P c) (h : ∀ c ∈ (front ++ (x ++ back)).tail, P c) :
    ∀ c ∈ (front ++ (y ++ back)).tail, P c := by
  obtain ⟨d, x, rfl⟩ := List.exists_cons_of_ne_nil hx
  intro c hc
  cases front with
  | nil =>
    rw [List.nil_append] at hc h
    rcases List.mem_append.mp (List.mem_of_mem_tail hc) with hcy | hcb
    · exact hy c hcy
    · exact h c (by simp [hcb])
  | cons e front =>
    rcases List.mem_append.mp hc with hcf | hcyb
    · exact h c (by simp [hcf])
    · rcases List.mem_append.mp hcyb with hcy | hcb
      · exact hy c hcy
      · exact h c (by simp [hcb])

theorem KeyLaid.respell {lead key gap : List Char} (h : KeyLaid lead key gap) (hσ : Renaming σ) :
    KeyLaid lead (respellKey σ key) gap := by
  rcases respellKey_cases hσ key with hkey | ⟨front, x, back, rfl, hkey, hx, hy⟩
  · rwa [hkey]
  · obtain ⟨c, y, hcy, -⟩ := isPrefix_cons hy
    obtain ⟨d, z, hdz, -⟩ := isPrefix_cons hx
    have hkeychars : ∀ c ∈ σ x, isKeyChar c = true :=
      fun c hc => isKeyChar_of_isPrefixChar (isPrefixChar_of_mem hy c hc)
    rw [hkey]
    refine ⟨h.lead, by simp [hcy], ?_, forall_mem_tail_replace (by simp [hdz]) hkeychars h.tail,
      h.gap⟩
    cases front with
    | nil =>
      rw [List.nil_append, hcy]
      rintro _ ⟨⟩
      exact isMarkupSpace_of_isKeyChar (hkeychars c (by simp [hcy]))
    | cons e front =>
      rintro _ ⟨⟩
      exact h.head e rfl

/-- Whether nothing or a quote is open. -/
def isQuote (quote : Option Char) : Bool := quote.all fun q => q = '"' || q = '\''

theorem tagState_append (quote : Option Char) (a b : List Char) :
    tagState quote (a ++ b) = (tagState quote a).bind fun quote => tagState quote b := by
  induction a generalizing quote with
  | nil => rfl
  | cons c a ih =>
    cases quote with
    | none =>
      rw [List.cons_append, tagState, tagState]
      split
      · rfl
      · exact ih _
    | some q => exact ih _

theorem isQuote_tagState {quote after : Option Char} {cs : List Char} (hquote : isQuote quote = true)
    (h : tagState quote cs = some after) : isQuote after = true := by
  induction cs generalizing quote with
  | nil =>
    cases quote <;> cases h <;> exact hquote
  | cons c cs ih =>
    cases quote with
    | none =>
      rw [tagState] at h
      split at h
      · cases h
      · refine ih ?_ h
        split
        · simpa [isQuote] using ‹c = '"' ∨ c = '\''›
        · rfl
    | some q =>
      rw [tagState] at h
      refine ih ?_ h
      split
      · rfl
      · exact hquote

/-- A prefix neither opens nor closes a quote, and ends no tag. -/
theorem tagState_prefix {quote : Option Char} {x : List Char} (hquote : isQuote quote = true)
    (hx : ∀ c ∈ x, isPrefixChar c = true) : tagState quote x = some quote := by
  induction x with
  | nil => cases quote <;> rfl
  | cons c x ih =>
    have hrest := ih fun d hd => hx d (List.mem_cons_of_mem _ hd)
    have hc := hx c List.mem_cons_self
    simp only [isPrefixChar, Bool.and_eq_true, decide_eq_true_eq] at hc
    obtain ⟨⟨⟨-, hend⟩, hdouble⟩, hsingle⟩ := hc
    cases quote with
    | none => rw [tagState, if_neg hend, if_neg (by simp [hdouble, hsingle]), hrest]
    | some q =>
      have hq : q = '"' ∨ q = '\'' := by simpa [isQuote] using hquote
      have hne : c ≠ q := by
        rcases hq with rfl | rfl
        · exact hdouble
        · exact hsingle
      rw [tagState, if_neg hne, hrest]

variable {quote : Option Char}

theorem tagState_replace (hquote : isQuote quote = true) {x y : List Char} (hx : isPrefix x = true)
    (hy : isPrefix y = true) (front back : List Char) :
    tagState quote (front ++ (y ++ back)) = tagState quote (front ++ (x ++ back)) := by
  rw [tagState_append, tagState_append]
  cases hfront : tagState quote front with
  | none => rfl
  | some after =>
    have hafter := isQuote_tagState hquote hfront
    simp only [Option.bind_some, tagState_append, tagState_prefix hafter (isPrefixChar_of_mem hx),
      tagState_prefix hafter (isPrefixChar_of_mem hy)]

theorem tagState_respellName (hσ : Renaming σ) (hquote : isQuote quote = true)
    (name : List Char) : tagState quote (respellName σ name) = tagState quote name := by
  rcases respellName_cases hσ name with hname | ⟨x, l, rfl, hname, hx, hy⟩
  · rw [hname]
  · rw [hname]
    exact tagState_replace hquote hx hy [] (':' :: l)

theorem tagState_respellKey (hσ : Renaming σ) (hquote : isQuote quote = true) (key : List Char) :
    tagState quote (respellKey σ key) = tagState quote key := by
  rcases respellKey_cases hσ key with hkey | ⟨front, x, back, rfl, hkey, hx, hy⟩
  · rw [hkey]
  · rw [hkey]
    exact tagState_replace hquote hx hy front back

/-- Texts that leave the same quotes open may stand for one another in a tag. -/
theorem tagState_congr (hquote : isQuote quote = true) (front : List Char) {a b : List Char}
    (h : ∀ quote, isQuote quote = true → tagState quote a = tagState quote b) :
    tagState quote (front ++ a) = tagState quote (front ++ b) := by
  rw [tagState_append, tagState_append]
  cases hfront : tagState quote front with
  | none => rfl
  | some after => exact h after (isQuote_tagState hquote hfront)

theorem tagState_respellAttributes (hσ : Renaming σ) {cs : List Char} {fuel : Nat}
    (hfuel : cs.length < fuel) (hquote : isQuote quote = true) :
    tagState quote (respellAttributes σ fuel cs) = tagState quote cs := by
  obtain ⟨fuel, rfl⟩ : ∃ n, fuel = n + 1 := ⟨fuel - 1, by omega⟩
  have hkey : ∀ key after quote, isQuote quote = true →
      tagState quote (respellKey σ key ++ after) = tagState quote (key ++ after) := by
    intro key after quote hquote
    rw [tagState_append, tagState_append, tagState_respellKey hσ hquote]
  have hlist := listed cs
  induction hlist generalizing fuel quote with
  | unread key => rw [respellAttributes_unread key]
  | valueless laid value =>
    rw [respellAttributes_valueless laid value]
    exact tagState_congr hquote _ (hkey _ _)
  | @item lead key gap front raw rest laid value nonempty more ih =>
    rw [respellAttributes_item laid (value rest)]
    refine tagState_congr hquote lead fun quote hquote => ?_
    rw [hkey _ _ quote hquote]
    refine tagState_congr hquote key fun quote hquote => ?_
    have hfront : ∀ rest, gap ++ '=' :: (front ++ rest) = (gap ++ '=' :: front) ++ rest := by simp
    rw [hfront, hfront]
    refine tagState_congr hquote _ fun quote hquote => ?_
    simp only [List.length_append, List.length_cons] at hfuel
    obtain ⟨fuel, rfl⟩ : ∃ n, fuel = n + 1 := ⟨fuel - 1, by omega⟩
    exact ih hquote fuel (by omega)

theorem getLast?_respellName (hσ : Renaming σ) (name : List Char) :
    (respellName σ name).getLast? = name.getLast? := by
  rcases respellName_cases hσ name with hname | ⟨x, l, rfl, hname, -, -⟩
  · rw [hname]
  · rw [hname, List.getLast?_append_of_ne_nil _ (by simp),
      List.getLast?_append_of_ne_nil _ (by simp)]

/-- The last character of an attribute list comes after the last of its keys. -/
theorem getLast?_respellAttributes {cs : List Char} {fuel : Nat} (hfuel : cs.length < fuel) :
    (respellAttributes σ fuel cs).getLast? = cs.getLast? := by
  obtain ⟨fuel, rfl⟩ : ∃ n, fuel = n + 1 := ⟨fuel - 1, by omega⟩
  have hlast : ∀ (lead key gap after : List Char),
      (lead ++ (key ++ (gap ++ '=' :: after))).getLast? = ('=' :: after).getLast? := by
    intro lead key gap after
    rw [← List.append_assoc, ← List.append_assoc, List.getLast?_append_of_ne_nil _ (by simp)]
  have hlist := listed cs
  induction hlist generalizing fuel with
  | unread key => rw [respellAttributes_unread key]
  | valueless laid value => rw [respellAttributes_valueless laid value, hlast, hlast]
  | @item lead key gap front raw rest laid value nonempty more ih =>
    simp only [List.length_append, List.length_cons] at hfuel
    obtain ⟨fuel, rfl⟩ : ∃ n, fuel = n + 1 := ⟨fuel - 1, by omega⟩
    rw [respellAttributes_item laid (value rest), hlast, hlast, ← List.cons_append,
      ← List.cons_append, List.getLast?_append, List.getLast?_append, ih fuel (by omega)]

/-- An attribute list that begins with white space, or is empty, still does. -/
theorem head?_respellAttributes {cs : List Char}
    (hcs : ∀ c, cs.head? = some c → isMarkupSpace c = true) (fuel : Nat) :
    (respellAttributes σ (fuel + 1) cs).head? = cs.head? := by
  have hlead : ∀ {lead key gap after : List Char}, KeyLaid lead key gap →
      (∀ c, (lead ++ (key ++ after)).head? = some c → isMarkupSpace c = true) → lead ≠ [] := by
    rintro lead key gap after laid hhead rfl
    obtain ⟨c, k, rfl⟩ := List.exists_cons_of_ne_nil laid.nonempty
    have hc := laid.head c rfl
    rw [hhead c rfl] at hc
    cases hc
  cases listed cs with
  | unread key => rw [respellAttributes_unread key]
  | valueless laid value =>
    obtain ⟨c, lead, rfl⟩ := List.exists_cons_of_ne_nil (hlead laid hcs)
    rw [respellAttributes_valueless laid value]
    rfl
  | item laid value nonempty more =>
    obtain ⟨c, lead, rfl⟩ := List.exists_cons_of_ne_nil (hlead laid hcs)
    rw [respellAttributes_item laid (value _)]
    rfl

theorem tagRest_head {tag : List Char} (c : Char) (hc : (tagRest tag).head? = some c) :
    isMarkupSpace c = true := by
  have hnot := List.head?_dropWhile_not (fun c => !isMarkupSpace c) tag
  unfold tagRest at hc
  rw [hc] at hnot
  simpa using hnot

theorem tagName_append_tagRest (tag : List Char) : tagName tag ++ tagRest tag = tag :=
  List.takeWhile_append_dropWhile

theorem tagName_append {name rest : List Char} (hname : ∀ c ∈ name, isMarkupSpace c = false)
    (hrest : ∀ c, rest.head? = some c → isMarkupSpace c = true) :
    tagName (name ++ rest) = name ∧ tagRest (name ++ rest) = rest := by
  have hpos : ∀ c ∈ name, (!isMarkupSpace c) = true := fun c hc => by rw [hname c hc]; rfl
  unfold tagName tagRest
  rw [List.takeWhile_append_of_pos hpos, List.dropWhile_append_of_pos hpos]
  cases rest with
  | nil => simp
  | cons c rest => simp [hrest c rfl]

theorem respellName_noSpace (hσ : Renaming σ) {name : List Char}
    (hname : ∀ c ∈ name, isMarkupSpace c = false) :
    ∀ c ∈ respellName σ name, isMarkupSpace c = false := by
  rcases respellName_cases hσ name with heq | ⟨x, l, rfl, heq, -, hy⟩
  · rwa [heq]
  · rw [heq]
    intro c hc
    rcases List.mem_append.mp hc with hc | hc
    · exact isMarkupSpace_of_isKeyChar (isKeyChar_of_isPrefixChar
        (isPrefixChar_of_mem hy c hc))
    · exact hname c (List.mem_append_right _ hc)

theorem tagParts_respellTag (hσ : Renaming σ) (tag : List Char) :
    tagName (respellTag σ tag) = respellName σ (tagName tag) ∧
      tagRest (respellTag σ tag) = respellAttributes σ (tag.length + 1) (tagRest tag) := by
  have hname : ∀ c ∈ tagName tag, isMarkupSpace c = false := by
    intro c hc
    have hnot := List.mem_takeWhile_imp (p := fun c => !isMarkupSpace c) hc
    simpa using hnot
  refine tagName_append (respellName_noSpace hσ hname) fun c hc => ?_
  rw [head?_respellAttributes tagRest_head] at hc
  exact tagRest_head c hc

/-- The attributes of a respelled list are those of the list with their keys respelled, and its first
fault is the same. -/
theorem attributesAfter_respell (hσ : Renaming σ) {cs : List Char} {fuel room room' : Nat}
    (hfuel : cs.length < fuel) (hroom : cs.length < room)
    (hroom' : (respellAttributes σ fuel cs).length < room') (seen : List (List Char)) :
    attributesAfter (seen.map (respellKey σ)) room' (respellAttributes σ fuel cs) =
      (attributesAfter seen room cs).map (List.map (RawAttribute.respell σ)) := by
  obtain ⟨fuel, rfl⟩ : ∃ n, fuel = n + 1 := ⟨fuel - 1, by omega⟩
  obtain ⟨room, rfl⟩ : ∃ n, room = n + 1 := ⟨room - 1, by omega⟩
  obtain ⟨room', rfl⟩ : ∃ n, room' = n + 1 := ⟨room' - 1, by omega⟩
  have hseen : ∀ key seen, respellKey σ key ∈ List.map (respellKey σ) seen ↔ key ∈ seen :=
    fun key seen => List.mem_map_of_injective hσ.respellKey_injective
  have hlist := listed cs
  induction hlist generalizing fuel room room' seen with
  | unread key =>
    rw [respellAttributes_unread key, attributesAfter_unread key, attributesAfter_unread key]
    split <;> rfl
  | @valueless lead key gap valued f laid value =>
    rw [respellAttributes_valueless laid value, attributesAfter_key (laid.respell hσ),
      attributesAfter_key laid]
    simp only [hseen, value]
    split <;> rfl
  | @item lead key gap front raw rest laid value nonempty more ih =>
    rw [respellAttributes_item laid (value rest)] at hroom' ⊢
    rw [attributesAfter_key (laid.respell hσ), attributesAfter_key laid]
    simp only [hseen, value]
    simp only [List.length_append, List.length_cons] at hfuel hroom hroom'
    split
    · rfl
    · cases unescape raw with
      | error f => rfl
      | ok text =>
        obtain ⟨fuel, rfl⟩ : ∃ n, fuel = n + 1 := ⟨fuel - 1, by omega⟩
        obtain ⟨room, rfl⟩ : ∃ n, room = n + 1 := ⟨room - 1, by omega⟩
        obtain ⟨room', rfl⟩ : ∃ n, room' = n + 1 := ⟨room' - 1, by omega⟩
        have hrest := ih (key :: seen) fuel (by omega) room (by omega) room' (by omega)
        rw [List.map_cons] at hrest
        dsimp only
        rw [hrest]
        cases attributesAfter (key :: seen) (room + 1) rest <;> rfl

theorem tagAttributes_respellTag (hσ : Renaming σ) (tag : List Char) :
    tagAttributes (respellTag σ tag) =
      (tagAttributes tag).map (List.map (RawAttribute.respell σ)) := by
  have hlength : (tagRest tag).length ≤ tag.length := (List.dropWhile_sublist _).length_le
  have hlength' : (tagRest (respellTag σ tag)).length ≤ (respellTag σ tag).length :=
    (List.dropWhile_sublist _).length_le
  unfold tagAttributes
  rw [(tagParts_respellTag hσ tag).2] at hlength' ⊢
  exact attributesAfter_respell hσ (by omega) (by omega) (by omega) []

theorem tagState_respellTag (hσ : Renaming σ) (hquote : isQuote quote = true) (tag : List Char) :
    tagState quote (respellTag σ tag) = tagState quote tag := by
  have hlength : (tagRest tag).length ≤ tag.length := (List.dropWhile_sublist _).length_le
  have hrest : ∀ quote, isQuote quote = true →
      tagState quote (respellAttributes σ (tag.length + 1) (tagRest tag)) =
        tagState quote (tagRest tag) :=
    fun quote hquote => tagState_respellAttributes hσ (by omega) hquote
  have htag := tagState_congr hquote (tagName tag) hrest
  rw [tagName_append_tagRest, tagState_append, ← tagState_respellName hσ hquote,
    ← tagState_append] at htag
  exact htag

theorem getLast?_respellTag (hσ : Renaming σ) (tag : List Char) :
    (respellTag σ tag).getLast? = tag.getLast? := by
  have hlength : (tagRest tag).length ≤ tag.length := (List.dropWhile_sublist _).length_le
  unfold respellTag
  rw [List.getLast?_append, getLast?_respellAttributes (by omega), getLast?_respellName hσ,
    ← List.getLast?_append, tagName_append_tagRest]

theorem head?_respellTag (hσ : Renaming σ) {tag : List Char} {c : Char}
    (hc : c = '/' ∨ c = '!' ∨ c = '?') (htag : tag.head? ≠ some c) :
    (respellTag σ tag).head? ≠ some c := by
  have hrest : (respellAttributes σ (tag.length + 1) (tagRest tag)).head? = (tagRest tag).head? :=
    head?_respellAttributes tagRest_head tag.length
  unfold respellTag
  rcases respellName_cases hσ (tagName tag) with hname | ⟨x, l, -, hname, -, hy⟩
  · rw [hname, List.head?_append, hrest, ← List.head?_append, tagName_append_tagRest]
    exact htag
  · obtain ⟨d, y, hdy, hslash, hbang, hquestion⟩ := isPrefix_cons hy
    rw [hname, hdy]
    simp only [List.cons_append, List.head?_cons, ne_eq, Option.some.injEq]
    rcases hc with rfl | rfl | rfl
    · exact hslash
    · exact hbang
    · exact hquestion

/-- White space at the end of a closing tag comes after the colon of its name. -/
theorem trimTagEnd_append (x l : List Char) : trimTagEnd (x ++ ':' :: l) =
    x ++ ':' :: (l.reverse.dropWhile isMarkupSpace).reverse := by
  have hcolon : (':' :: x.reverse).dropWhile isMarkupSpace = ':' :: x.reverse :=
    List.dropWhile_cons_of_neg (by decide)
  have htrimmed : ((x ++ ':' :: l).reverse.dropWhile isMarkupSpace).reverse =
      x ++ ':' :: (l.reverse.dropWhile isMarkupSpace).reverse := by
    rw [List.reverse_append, List.reverse_cons, List.append_assoc, List.singleton_append,
      List.dropWhile_append, hcolon]
    split
    · rename_i hempty
      rw [List.isEmpty_iff] at hempty
      simp [hempty]
    · simp
  unfold trimTagEnd
  dsimp only
  rw [htrimmed, if_neg (by simp)]

theorem trimTagEnd_respellName (name : List Char) :
    trimTagEnd (respellName σ name) = respellName σ (trimTagEnd name) := by
  cases hcut : Text.cutFirst ':' name with
  | none =>
    have hname : respellName σ name = name := by simp [respellName, hcut]
    have hmem := Text.cutFirst_eq_none.mp hcut
    have htrim : ':' ∉ trimTagEnd name := by
      unfold trimTagEnd
      dsimp only
      split
      · exact hmem
      · intro h
        exact hmem (List.mem_reverse.mp ((List.dropWhile_sublist _).subset (List.mem_reverse.mp h)))
    rw [hname, respellName, Text.cutFirst_eq_none.mpr htrim]
  | some p =>
    obtain ⟨x, l⟩ := p
    obtain ⟨rfl, hx⟩ := Text.cutFirst_eq_some hcut
    rw [trimTagEnd_append, respellName, hcut, respellName, Text.cutFirst_append hx]
    exact trimTagEnd_append (σ x) l

theorem tagToken_of_head {content : List Char} (h : content.head? ≠ some '/') :
    tagToken content =
      if content.getLast? = some '/' then .emptyTag content.dropLast else .openTag content := by
  unfold tagToken
  split
  · exact absurd rfl h
  · rfl

theorem respellContent_of_head {content : List Char} (h : content.head? ≠ some '/') :
    respellContent σ content =
      if content.getLast? = some '/' then respellTag σ content.dropLast ++ ['/']
      else respellTag σ content := by
  unfold respellContent
  split
  · exact absurd rfl h
  · rfl

/-- What stands between the brackets of a tag: that of a closing tag, of a tag that ends its element
at once, or of a start tag. -/
theorem content_cases (content : List Char) : (∃ name, content = '/' :: name) ∨
    (∃ tag, content = tag ++ ['/'] ∧ tag ≠ [] ∧ tag.head? ≠ some '/') ∨
      (content.head? ≠ some '/' ∧ content.getLast? ≠ some '/') := by
  by_cases hhead : content.head? = some '/'
  · obtain ⟨name, hname⟩ := List.head?_eq_some_iff.mp hhead
    exact .inl ⟨name, hname⟩
  · by_cases hlast : content.getLast? = some '/'
    · have hcontent : content.dropLast ++ ['/'] = content :=
        List.dropLast_append_getLast? '/' hlast
      generalize content.dropLast = tag at hcontent
      subst hcontent
      cases tag with
      | nil => exact absurd rfl hhead
      | cons c tag => exact .inr (.inl ⟨c :: tag, rfl, by simp, hhead⟩)
    · exact .inr (.inr ⟨hhead, hlast⟩)

section EmptyTag

variable {tag : List Char}

theorem head?_append_slash (htag : tag ≠ []) : (tag ++ ['/']).head? = tag.head? := by
  obtain ⟨c, tag, rfl⟩ := List.exists_cons_of_ne_nil htag
  rfl

theorem tagToken_append_slash (htag : tag ≠ []) (hhead : tag.head? ≠ some '/') :
    tagToken (tag ++ ['/']) = .emptyTag tag := by
  rw [tagToken_of_head (by rwa [head?_append_slash htag]), if_pos (by simp), List.dropLast_concat]

theorem respellContent_append_slash (htag : tag ≠ []) (hhead : tag.head? ≠ some '/') :
    respellContent σ (tag ++ ['/']) = respellTag σ tag ++ ['/'] := by
  rw [respellContent_of_head (by rwa [head?_append_slash htag]), if_pos (by simp),
    List.dropLast_concat]

theorem respellTag_ne_nil (hσ : Renaming σ) (htag : tag ≠ []) : respellTag σ tag ≠ [] := by
  intro hnil
  have hlast := getLast?_respellTag hσ tag
  rw [hnil] at hlast
  exact htag (List.getLast?_eq_none_iff.mp hlast.symm)

end EmptyTag

/-- The token of a respelled tag is the token of the tag respelled. -/
theorem tagToken_respell (hσ : Renaming σ) (content : List Char) :
    (tagToken content).Respelled σ (tagToken (respellContent σ content)) := by
  rcases content_cases content with ⟨name, rfl⟩ | ⟨tag, rfl, htag, hhead⟩ | ⟨hhead, hlast⟩
  · change (Token.closeTag (trimTagEnd name)).Respelled σ (.closeTag (trimTagEnd (respellName σ name)))
    rw [trimTagEnd_respellName]
    exact .closeTag _
  · rw [respellContent_append_slash htag hhead, tagToken_append_slash htag hhead,
      tagToken_append_slash (respellTag_ne_nil hσ htag) (head?_respellTag hσ (.inl rfl) hhead)]
    exact .emptyTag (tagParts_respellTag hσ tag).1 (tagAttributes_respellTag hσ tag)
  · have hhead' := head?_respellTag hσ (.inl rfl) hhead
    have hlast' : (respellTag σ content).getLast? ≠ some '/' := by
      rwa [getLast?_respellTag hσ]
    rw [tagToken_of_head hhead, if_neg hlast, respellContent_of_head hhead, if_neg hlast,
      tagToken_of_head hhead', if_neg hlast']
    exact .openTag (tagParts_respellTag hσ content).1 (tagAttributes_respellTag hσ content)

theorem tagState_respellContent (hσ : Renaming σ) (content : List Char) :
    tagState none (respellContent σ content) = tagState none content := by
  rcases content_cases content with ⟨name, rfl⟩ | ⟨tag, rfl, htag, hhead⟩ | ⟨hhead, hlast⟩
  · exact tagState_congr rfl ['/'] fun quote hquote => tagState_respellName hσ hquote name
  · rw [respellContent_append_slash htag hhead, tagState_append, tagState_append,
      tagState_respellTag hσ rfl]
  · rw [respellContent_of_head hhead, if_neg hlast, tagState_respellTag hσ rfl]

theorem head?_respellContent (hσ : Renaming σ) {content : List Char} {c : Char}
    (hc : c = '!' ∨ c = '?') (hcontent : content.head? ≠ some c) :
    (respellContent σ content).head? ≠ some c := by
  rcases content_cases content with ⟨name, rfl⟩ | ⟨tag, rfl, htag, hhead⟩ | ⟨hhead, hlast⟩
  · exact hcontent
  · rw [head?_append_slash htag] at hcontent
    rw [respellContent_append_slash htag hhead, head?_append_slash (respellTag_ne_nil hσ htag)]
    exact head?_respellTag hσ (.inr hc) hcontent
  · rw [respellContent_of_head hhead, if_neg hlast]
    exact head?_respellTag hσ (.inr hc) hcontent

end ObjectMarkup.Markup
