import Mathlib.Logic.Equiv.Basic
import ObjectMarkup.Proofs.Spelling.Tags

namespace ObjectMarkup

namespace Markup

variable {σ τ : List Char → List Char}

/-- The pieces of a source up to its first fault, and the text from there on; `fuel` bounds the
number of pieces. -/
def sourcePieces : Nat → List Char → List Scanned × List Char
  | 0, cs => ([], cs)
  | _ + 1, [] => ([], [])
  | fuel + 1, c :: rest =>
    match scanToken (c :: rest) with
    | .error _ => ([], c :: rest)
    | .ok s =>
      let (pieces, last) := sourcePieces fuel s.rest
      (s :: pieces, last)

def Scanned.content? (s : Scanned) : Option (List Char) :=
  if s.token.isTag then some s.written.tail.dropLast else none

/-- The text of a piece with its qualifiers renamed. -/
def Scanned.respell (σ : List Char → List Char) (s : Scanned) : List Char :=
  match s.content? with
  | some content => '<' :: respellContent σ content ++ ['>']
  | none => s.written

def respellWithin (σ : List Char → List Char) (fuel : Nat) (cs : List Char) : List Char :=
  (sourcePieces fuel cs).1.flatMap (Scanned.respell σ) ++ (sourcePieces fuel cs).2

/-- A source with the qualifiers in its tags renamed, up to its first fault. -/
def respell (σ : List Char → List Char) (source : List Char) : List Char :=
  respellWithin σ (source.length + 1) source

theorem IsTag.content? {s : Scanned} {content : List Char} (h : IsTag s content) :
    s.content? = some content := by
  rw [Scanned.content?, h.token, if_pos (isTag_tagToken content), h.written]
  simp

/-- A respelled piece of markup is the respelled token, whatever follows. -/
theorem scanToken_respell (hσ : Renaming σ) {c : Char} {cs : List Char} {s : Scanned}
    (hc : isPlain c = false) (h : scanToken (c :: cs) = .ok s) :
    ∃ t, s.token.Respelled σ t ∧ t.isText = false ∧
      scanToken (s.respell σ) = .ok ⟨t, s.respell σ, []⟩ := by
  rcases isTag_or_not hc h with ⟨content, htag⟩ | ⟨hother, htext⟩
  · have hrespelled : IsTag ⟨tagToken (respellContent σ content),
        '<' :: respellContent σ content ++ ['>'], []⟩ (respellContent σ content) :=
      ⟨rfl, rfl, (tagState_respellContent hσ content).trans htag.ends,
        head?_respellContent hσ (.inl rfl) htag.not_bang,
        head?_respellContent hσ (.inr rfl) htag.not_question⟩
    have hscan := hrespelled.scanToken []
    have hrespell : s.respell σ = '<' :: respellContent σ content ++ ['>'] := by
      rw [Scanned.respell, htag.content?]
    rw [List.append_nil] at hscan
    refine ⟨_, ?_, isText_of_isTag (isTag_tagToken _), hrespell ▸ hscan⟩
    rw [htag.token]
    exact tagToken_respell hσ content
  · have hrespell : s.respell σ = s.written := by simp [Scanned.respell, Scanned.content?, hother]
    have hstays := (leads_markup hc h).2 []
    rw [List.append_nil] at hstays
    exact ⟨s.token, .of_not_tag hother, htext, hrespell ▸ hstays⟩

/-- What is told of a respelled source is what is told of the source, with the qualifiers renamed. -/
theorem tell_respellWithin (hσ : Renaming σ) {fuel : Nat} {cs : List Char} (h : cs.length < fuel)
    (a : Assembler) : tell (a.respell σ) (respellWithin σ fuel cs) =
      (tell a cs).requalify (onStrings σ) := by
  induction fuel generalizing cs a with
  | zero => cases h
  | succ fuel ih =>
    cases cs with
    | nil =>
      have hrespell : respellWithin σ (fuel + 1) [] = [] := rfl
      have hstill : (a.respell σ).still = a.still.respell σ := rfl
      rw [hrespell, tell_nil, tell_nil, hstill, flushed_respell]
      rfl
    | cons c cs =>
      cases hscan : scanToken (c :: cs) with
      | error f =>
        have hrespell : respellWithin σ (fuel + 1) (c :: cs) = c :: cs := by
          simp [respellWithin, sourcePieces, hscan]
        rw [hrespell, tell_fault _ hscan, tell_fault _ hscan]
        rfl
      | ok s =>
        have hrest : s.rest.length < fuel := by
          have hshort := scanToken_shortens hscan
          omega
        have hrespell : respellWithin σ (fuel + 1) (c :: cs) =
            s.respell σ ++ respellWithin σ fuel s.rest := by
          simp [respellWithin, sourcePieces, hscan]
        rw [hrespell]
        cases hc : isPlain c with
        | true =>
          rw [scanToken_plain hc] at hscan
          cases hscan
          have htext : ∀ d ∈ c :: cs.takeWhile isPlain, isPlain d = true :=
            List.forall_mem_cons.mpr ⟨hc, fun d hd => List.mem_takeWhile_imp hd⟩
          rw [tell_text a hc]
          exact (tell_plains _ htext _).trans (ih hrest (a.push (c :: cs.takeWhile isPlain) 0))
        | false =>
          obtain ⟨t, ht, htext, hstays⟩ := scanToken_respell hσ hc hscan
          rw [tell_piece _ hstays htext, tell_token a hscan, hσ.take_respell a ht]
          exact Outcome.followedBy_respell _ fun b => ih hrest b

def nameQualifier? (name : List Char) : Option (List Char) :=
  (Text.cutFirst ':' name).map Prod.fst

/-- The qualifier of the key of an attribute, or the one that it declares. -/
def keyQualifier? (key : List Char) : Option (List Char) :=
  if "xmlns:".toList.isPrefixOf key then some (key.drop 6) else nameQualifier? key

def tagQualifiers (tag : List Char) : List (List Char) :=
  (nameQualifier? (tagName tag)).toList ++
    (attributeParts (tag.length + 1) (tagRest tag)).1.filterMap fun p => keyQualifier? p.key

def contentQualifiers (content : List Char) : List (List Char) :=
  match content with
  | '/' :: name => (nameQualifier? name).toList
  | _ => tagQualifiers (if content.getLast? = some '/' then content.dropLast else content)

/-- The qualifiers that are used or declared in a source, up to its first fault. -/
def qualifiers (source : List Char) : List (List Char) :=
  (sourcePieces (source.length + 1) source).1.flatMap fun s =>
    (s.content?.map contentQualifiers).getD []

theorem respellName_congr {name : List Char} (h : ∀ x ∈ nameQualifier? name, σ x = τ x) :
    respellName σ name = respellName τ name := by
  unfold nameQualifier? at h
  unfold respellName
  cases hcut : Text.cutFirst ':' name with
  | none => rfl
  | some p =>
    have hx := h p.1 (by simp [hcut])
    simp only [hx]

theorem respellKey_congr {key : List Char} (h : ∀ x ∈ keyQualifier? key, σ x = τ x) :
    respellKey σ key = respellKey τ key := by
  unfold keyQualifier? at h
  unfold respellKey
  split
  · rename_i hkey
    rw [if_pos hkey] at h
    rw [h _ rfl]
  · rename_i hkey
    rw [if_neg hkey] at h
    exact respellName_congr h

theorem respellTag_congr {tag : List Char} (h : ∀ x ∈ tagQualifiers tag, σ x = τ x) :
    respellTag σ tag = respellTag τ tag := by
  have hname : respellName σ (tagName tag) = respellName τ (tagName tag) :=
    respellName_congr fun x hx => h x (List.mem_append_left _ (Option.mem_toList.mpr hx))
  have hparts : ∀ p ∈ (attributeParts (tag.length + 1) (tagRest tag)).1,
      p.respell σ = p.respell τ := by
    intro p hp
    have hkey : respellKey σ p.key = respellKey τ p.key :=
      respellKey_congr fun x hx =>
        h x (List.mem_append_right _ (List.mem_filterMap.mpr ⟨p, hp, hx⟩))
    rw [Part.respell, Part.respell, hkey]
  unfold respellTag respellAttributes
  rw [hname, List.flatMap_congr hparts]

theorem respellContent_congr {content : List Char}
    (h : ∀ x ∈ contentQualifiers content, σ x = τ x) :
    respellContent σ content = respellContent τ content := by
  unfold contentQualifiers at h
  unfold respellContent
  split
  · rename_i name
    exact congrArg _ (respellName_congr fun x hx => h x (Option.mem_toList.mpr hx))
  · rename_i hslash
    split at h
    · exact absurd rfl (hslash _)
    · split at h
      · rename_i hlast
        rw [if_pos hlast, if_pos hlast, respellTag_congr h]
      · rename_i hlast
        rw [if_neg hlast, if_neg hlast, respellTag_congr h]

/-- Renamings that agree on the qualifiers of a source do the same to it. -/
theorem respell_congr {source : List Char} (h : ∀ x ∈ qualifiers source, σ x = τ x) :
    respell σ source = respell τ source := by
  unfold respell respellWithin
  refine congrArg (· ++ _) (List.flatMap_congr fun s hs => ?_)
  unfold Scanned.respell
  cases hcontent : s.content? with
  | none => rfl
  | some content =>
    have hpiece : respellContent σ content = respellContent τ content := by
      refine respellContent_congr fun x hx => h x (List.mem_flatMap.mpr ⟨s, hs, ?_⟩)
      rw [hcontent]
      exact hx
    simp only [hpiece]

/-- The source with one prefix renamed to another in the names of its elements and attributes and in
its declarations. -/
def renamePrefix (p q source : List Char) : List Char :=
  respell (fun x => if x = p then q else x) source

/-- Whether a text may be renamed, and may be what another one is renamed to: it is a prefix, and
not one with a meaning of its own. -/
def isFreePrefix (x : List Char) : Bool :=
  isPrefix x && x ≠ controlQualifier.toList && x ≠ "xmlns".toList

theorem renaming_swap {p q : List Char} (hp : isFreePrefix p = true) (hq : isFreePrefix q = true) :
    Renaming (Equiv.swap p q) := by
  simp only [isFreePrefix, Bool.and_eq_true, decide_eq_true_eq] at hp hq
  refine ⟨(Equiv.swap p q).injective, Equiv.swap_apply_of_ne_of_ne hp.1.2.symm hq.1.2.symm,
    Equiv.swap_apply_of_ne_of_ne hp.2.symm hq.2.symm, fun x hx => ?_⟩
  by_cases hxp : x = p
  · rw [hxp, Equiv.swap_apply_left]
    exact ⟨hp.1.1, hq.1.1⟩
  · by_cases hxq : x = q
    · rw [hxq, Equiv.swap_apply_right]
      exact ⟨hq.1.1, hp.1.1⟩
    · exact absurd (Equiv.swap_apply_of_ne_of_ne hxp hxq) hx

end Markup

open Markup

/-- A source and the same source with its qualifiers renamed are read alike. -/
theorem Reader.readsAlike_respell {σ : List Char → List Char} (hσ : Renaming σ) (r : Reader)
    {source source' : List Char} (h : body source' = respell σ (body source)) :
    r.ReadsAlike (onStrings σ) source source' := by
  refine r.readsAlike_of_tell hσ.keepsControl ?_
  rw [h]
  exact tell_respellWithin hσ (Nat.lt_succ_self _) .initial

/-- Where no name has the one prefix, renaming the other to it does not change how the document is
read. -/
theorem renamed_reads_alike (r : Reader) {source source' p q : List Char}
    (hp : isFreePrefix p = true) (hq : isFreePrefix q = true) (unused : q ∉ qualifiers (body source))
    (renamed : body source' = renamePrefix p q (body source)) :
    r.ReadsAlike (onStrings (Equiv.swap p q)) source source' := by
  refine r.readsAlike_respell (renaming_swap hp hq) (renamed.trans (respell_congr fun x hx => ?_))
  have hxq : x ≠ q := fun h => unused (h ▸ hx)
  rw [Equiv.swap_apply_def, if_neg hxq]

/-- A list and a map whose prefix is renamed, in a document that declares it twice. -/
theorem renamed_reads_alike_of_list :
    let source := ("<c:ArrayList xmlns:c='wtkx.collections'><c:HashMap c:k='c:v' xmlns:c='u'/>" ++
      "</c:ArrayList >").toList
    let source' := ("<l:ArrayList xmlns:l='wtkx.collections'><l:HashMap l:k='c:v' xmlns:l='u'/>" ++
      "</l:ArrayList >").toList
    isFreePrefix "c".toList = true ∧ isFreePrefix "l".toList = true ∧
      "l".toList ∉ qualifiers (body source) ∧
      body source' = renamePrefix "c".toList "l".toList (body source) ∧
      Reader.plain.ReadsAlike (onStrings (Equiv.swap "c".toList "l".toList)) source source' := by
  intro source source'
  have hp : isFreePrefix "c".toList = true := by decide +kernel
  have hq : isFreePrefix "l".toList = true := by decide +kernel
  have unused : "l".toList ∉ qualifiers (body source) := by decide +kernel
  have renamed : body source' = renamePrefix "c".toList "l".toList (body source) := by
    decide +kernel
  exact ⟨hp, hq, unused, renamed, renamed_reads_alike Reader.plain hp hq unused renamed⟩

end ObjectMarkup
