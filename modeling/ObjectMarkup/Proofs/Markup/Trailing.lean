import ObjectMarkup.Proofs.Markup.Assembly

namespace ObjectMarkup

/-- The place of what is written in a text does not depend on what follows the text. -/
theorem Location.ofOffset_append_congr (told : List Char) {offset : Nat}
    (h : offset ≤ Text.byteLength told) (after other : List Char) :
    ofOffset (told ++ after) offset = ofOffset (told ++ other) offset := by
  have hall : ∀ l : Location, l.advance (told ++ after) offset = l.advance (told ++ other) offset := by
    induction told generalizing offset with
    | nil =>
      intro l
      rw [Text.byteLength_nil, Nat.le_zero] at h
      rw [h, advance_zero, advance_zero]
    | cons c told ih =>
      intro l
      by_cases hstop : offset < c.utf8Size
      · rw [List.cons_append, List.cons_append, advance_of_lt l _ hstop, advance_of_lt l _ hstop]
      · obtain ⟨n, rfl⟩ := Nat.exists_eq_add_of_le (Nat.le_of_not_lt hstop)
        rw [Text.byteLength_cons] at h
        rw [List.cons_append, List.cons_append, advance_past, advance_past]
        exact ih (by omega) (l.past c)
  exact hall ⟨1, 1⟩

namespace Text

theorem exists_dropMark (cs : List Char) : ∃ mark, cs = mark ++ dropMark cs := by
  unfold dropMark
  split
  · exact ⟨['\uFEFF'], rfl⟩
  · exact ⟨[], rfl⟩

theorem dropMark_append {cs : List Char} (h : cs ≠ []) (rest : List Char) :
    dropMark (cs ++ rest) = dropMark cs ++ rest := by
  obtain ⟨c, cs, rfl⟩ := List.exists_cons_of_ne_nil h
  by_cases hc : c = '\uFEFF'
  · subst hc
    rfl
  · rw [List.cons_append]
    unfold dropMark
    simp [hc]

end Text

namespace Markup

variable {s : Scanned} {c : Char} {cs : List Char} {tag : Placed} {front back : List Placed}

/-- The first token of a source is the same for another source that begins with the same piece and
then goes on with the same character. -/
theorem scanToken_congr (h : scanToken (c :: cs) = .ok s) {d : Char} {next after : List Char}
    (hrest : s.rest = d :: next ++ after) (other : List Char) :
    scanToken (s.written ++ (d :: next ++ other)) = .ok ⟨s.token, s.written, d :: next ++ other⟩ := by
  cases hc : isPlain c with
  | false => exact (leads_markup hc h).2 _
  | true =>
    rw [scanToken_plain hc] at h
    cases h
    have hd : isPlain d = false := by
      have hhead := List.head?_dropWhile_not isPlain cs
      rw [show cs.dropWhile isPlain = d :: (next ++ after) from hrest] at hhead
      simpa using hhead
    have hall : ∀ e ∈ cs.takeWhile isPlain, isPlain e = true := fun e he =>
      List.mem_takeWhile_imp he
    rw [List.cons_append, scanToken_plain hc, List.takeWhile_append_of_pos hall,
      List.dropWhile_append_of_pos hall]
    simp [hd]

theorem scanFrom_eq_cons {fuel offset : Nat} {t : Placed} {rest : List Placed}
    (h : (scanFrom fuel offset cs).tokens = t :: rest) :
    ∃ n d ds s, fuel = n + 1 ∧ cs = d :: ds ∧ scanToken (d :: ds) = .ok s ∧
      t = ⟨s.token, offset⟩ ∧
      (scanFrom n (offset + Text.byteLength s.written) s.rest).tokens = rest := by
  cases fuel with
  | zero => cases h
  | succ n =>
    cases cs with
    | nil => cases h
    | cons d ds =>
      rw [scanFrom] at h
      cases hscan : scanToken (d :: ds) with
      | error f =>
        rw [hscan] at h
        cases h
      | ok s =>
        rw [hscan] at h
        obtain ⟨ht, hrest⟩ := List.cons.inj h
        exact ⟨n, d, ds, s, rfl, rfl, hscan, ht.symm, hrest⟩

theorem scanFrom_piece {piece after : List Char} {token : Token} (hpiece : piece ≠ [])
    (h : scanToken (piece ++ after) = .ok ⟨token, piece, after⟩) (n offset : Nat) :
    (scanFrom (n + 1) offset (piece ++ after)).tokens =
      ⟨token, offset⟩ :: (scanFrom n (offset + Text.byteLength piece) after).tokens := by
  obtain ⟨d, ds, rfl⟩ := List.exists_cons_of_ne_nil hpiece
  rw [List.cons_append] at h ⊢
  rw [scanFrom, h]

/-- A tag among the tokens of a source is a piece of it, and a source that is the same up to the end
of the piece has the same tokens up to the tag. -/
theorem scanFrom_cut {fuel offset : Nat} (htag : tag.token.isTag = true)
    (h : (scanFrom fuel offset cs).tokens = front ++ tag :: back) :
    ∃ before piece after, cs = before ++ (piece ++ after) ∧ piece ≠ [] ∧
      tag.offset = offset + Text.byteLength before ∧
      scanToken (piece ++ after) = .ok ⟨tag.token, piece, after⟩ ∧
      ∀ other fuel', (before ++ (piece ++ other)).length < fuel' → ∃ back',
        (scanFrom fuel' offset (before ++ (piece ++ other))).tokens = front ++ tag :: back' := by
  induction front generalizing fuel offset cs with
  | nil =>
    obtain ⟨n, d, ds, s, rfl, rfl, hscan, rfl, -⟩ := scanFrom_eq_cons h
    have hd : isPlain d = false := by
      by_contra hplain
      rw [scanToken_plain (by simpa using hplain)] at hscan
      cases hscan
      cases htag
    obtain ⟨hcs, hstays⟩ := leads_markup hd hscan
    have hne := written_ne_nil hscan
    refine ⟨[], s.written, s.rest, hcs, hne, rfl, by rw [hstays], fun other fuel' hfuel => ?_⟩
    obtain ⟨n', rfl⟩ : ∃ n', fuel' = n' + 1 := ⟨fuel' - 1, by omega⟩
    exact ⟨_, scanFrom_piece hne (hstays other) n' offset⟩
  | cons t front ih =>
    obtain ⟨n, d, ds, s, rfl, rfl, hscan, rfl, hrest⟩ := scanFrom_eq_cons h
    have hne := written_ne_nil hscan
    obtain ⟨before, piece, after, hafter, hpiece, hoffset, htoken, hstays⟩ := ih hrest
    refine ⟨s.written ++ before, piece, after, ?_, hpiece, ?_, htoken, fun other fuel' hfuel => ?_⟩
    · rw [scanToken_written hscan, hafter, List.append_assoc]
    · rw [hoffset, Text.byteLength_append, Nat.add_assoc]
    · -- What follows the first token begins with the same character, however it goes on.
      obtain ⟨e, next, hnext⟩ := List.exists_cons_of_ne_nil
        (show before ++ piece ≠ [] from List.append_ne_nil_of_right_ne_nil _ hpiece)
      have hfirst := scanToken_congr hscan
        (hafter.trans ((List.append_assoc ..).symm.trans (by rw [hnext]))) other
      rw [← hnext, List.append_assoc] at hfirst
      obtain ⟨n', rfl⟩ : ∃ n', fuel' = n' + 1 := ⟨fuel' - 1, by omega⟩
      have hlength : (before ++ (piece ++ other)).length < n' := by
        have := List.length_pos_iff.mpr hne
        simp only [List.length_append] at hfuel ⊢
        omega
      obtain ⟨back', hback⟩ := hstays other n' hlength
      exact ⟨back', by rw [List.append_assoc, scanFrom_piece hne hfirst, hback]; rfl⟩

namespace Assembler

variable {locate locate' : Nat → Location} {a b : Assembler} {t : Placed} {tokens : List Placed}
  {fault : Option MarkupFault} {told after : List Signal} {e : Event}

/-- A token brings the same where it and the pending text are at the same places. -/
theorem step_congr (hpending : a.pending ≠ [] → locate' a.start = locate a.start)
    (hoffset : locate' t.offset = locate t.offset) : a.step locate' t = a.step locate t := by
  have hflushed : a.flushed locate' = a.flushed locate := by
    by_cases hempty : a.pending = []
    · simp [flushed, hempty]
    · rw [flushed_of_pending hempty, flushed_of_pending hempty, hpending hempty]
  simp only [step, hflushed, hoffset]

/-- The pending text starts no later than the token that was read last. -/
theorem start_le_of_step {events : List Event} (h : a.step locate t = ⟨events, .ok b⟩)
    (hstart : a.pending ≠ [] → a.start ≤ t.offset) (hpending : b.pending ≠ []) :
    b.start ≤ t.offset := by
  cases htag : t.token.isTag with
  | true =>
    obtain ⟨last, -, -, hnone, -⟩ := step_tag htag h
    exact absurd hnone hpending
  | false =>
    obtain ⟨-, -, -, hplace⟩ := step_run htag h
    rw [hplace hpending]
    split
    · exact Nat.le_refl _
    · rename_i hbefore
      exact hstart hbefore

/-- The first checkpoint of some signals is behind events. -/
theorem split_at_checkpoint {events block : List Event} {rest : List Signal}
    (h : events.map Signal.event ++ .checkpoint :: rest =
      told ++ (block.map Signal.event ++ .checkpoint :: after)) :
    (events.map Signal.event = told ++ block.map Signal.event ∧ rest = after) ∨
      ∃ told', told = events.map Signal.event ++ .checkpoint :: told' ∧
        rest = told' ++ (block.map Signal.event ++ .checkpoint :: after) := by
  induction events generalizing told block with
  | nil =>
    cases told with
    | nil =>
      cases block with
      | nil => exact .inl ⟨rfl, (List.cons.inj h).2⟩
      | cons e block => cases h
    | cons signal told =>
      obtain ⟨rfl, hrest⟩ := List.cons.inj h
      exact .inr ⟨told, rfl, hrest⟩
  | cons first events ih =>
    cases told with
    | nil =>
      cases block with
      | nil => cases h
      | cons e block =>
        obtain ⟨hfirst, hrest⟩ := List.cons.inj h
        cases hfirst
        have hrest : events.map Signal.event ++ .checkpoint :: rest =
            [] ++ (block.map Signal.event ++ .checkpoint :: after) := hrest
        rcases ih hrest with ⟨hevents, hafter⟩ | ⟨told', hnone, -⟩
        · exact .inl ⟨congrArg (Signal.event first :: ·) hevents, hafter⟩
        · simp at hnone
    | cons signal told =>
      obtain ⟨rfl, hrest⟩ := List.cons.inj h
      rcases ih hrest with ⟨hevents, hafter⟩ | ⟨told', rfl, hafter⟩
      · exact .inl ⟨congrArg (Signal.event first :: ·) hevents, hafter⟩
      · exact .inr ⟨told', rfl, hafter⟩

theorem signals_of_step {events : List Event} (h : a.step locate t = ⟨events, .ok b⟩)
    (fault : Option MarkupFault) (rest : List Placed) :
    a.signals locate fault (t :: rest) =
      events.map .event ++ .checkpoint :: b.signals locate fault rest := by
  simp only [signals, h]

theorem isText_flushed (locate : Nat → Location) (a : Assembler) :
    ∀ e ∈ a.flushed locate, e.isText = true := by
  unfold flushed
  split <;> simp [Event.isText]

theorem isTag_of_step {before block : List Event} (h : a.step locate t = ⟨before ++ block, .ok b⟩)
    (hblock : block ≠ []) :
    t.token.isTag = true ∧ ∀ e ∈ block, e.isText = false → e.place = locate t.offset := by
  cases htag : t.token.isTag with
  | false =>
    obtain ⟨hnone, -⟩ := step_run htag h
    exact absurd (List.append_eq_nil_iff.mp hnone).2 hblock
  | true =>
    obtain ⟨last, hevents, htold, -⟩ := step_tag htag h
    refine ⟨rfl, fun e he hplain => ?_⟩
    have hmem : e ∈ a.flushed locate ++ last := hevents ▸ List.mem_append_right _ he
    rcases List.mem_append.mp hmem with hflushed | hlast
    · rw [isText_flushed locate a e hflushed] at hplain
      cases hplain
    · exact htold.place e hlast

/-- A checkpoint behind events is that of a tag, which stands where they do. The signals up to it are
told of the tokens up to the tag and of their places alone. -/
theorem signals_cut {block : List Event} (hblock : block ≠ [])
    (h : a.signals locate fault tokens = told ++ (block.map .event ++ .checkpoint :: after))
    (hrising : tokens.Pairwise (·.offset < ·.offset))
    (hstart : a.pending ≠ [] → ∀ t ∈ tokens, a.start ≤ t.offset) :
    ∃ front tag back, tokens = front ++ tag :: back ∧ tag.token.isTag = true ∧
      (∀ e ∈ block, e.isText = false → e.place = locate tag.offset) ∧
      ∀ locate' fault' back', (∀ offset, offset ≤ tag.offset → locate' offset = locate offset) →
        ∃ after', a.signals locate' fault' (front ++ tag :: back') =
          told ++ (block.map .event ++ .checkpoint :: after') := by
  induction tokens generalizing a told with
  | nil =>
    -- Nothing is asked behind the last token.
    have hcheckpoint : Signal.checkpoint ∈ a.signals locate fault [] := by rw [h]; simp
    cases fault <;> simp [signals] at hcheckpoint
  | cons t rest ih =>
    obtain ⟨hfirst, hrising⟩ := List.pairwise_cons.mp hrising
    rcases hstep : a.step locate t with ⟨events, f | b⟩
    · have hcheckpoint : Signal.checkpoint ∈ a.signals locate fault (t :: rest) := by rw [h]; simp
      simp [signals, hstep] at hcheckpoint
    · have hpending : a.pending ≠ [] → a.start ≤ t.offset := fun ha =>
        hstart ha t List.mem_cons_self
      rw [signals_of_step hstep] at h
      rcases split_at_checkpoint h with ⟨hevents, hafter⟩ | ⟨told', rfl, hrest⟩
      · obtain ⟨before, last, rfl, rfl, hlast⟩ := List.map_eq_append_iff.mp hevents
        obtain rfl : last = block :=
          List.map_injective_iff.mpr (fun _ _ => Signal.event.inj) hlast
        obtain ⟨htag, hplace⟩ := isTag_of_step hstep hblock
        refine ⟨[], t, rest, rfl, htag, hplace, fun locate' fault' back' hlocate => ?_⟩
        have hstep' : a.step locate' t = ⟨before ++ last, .ok b⟩ :=
          (step_congr (fun ha => hlocate _ (hpending ha)) (hlocate _ (Nat.le_refl _))).trans hstep
        exact ⟨_, by rw [List.nil_append, signals_of_step hstep', hevents, List.append_assoc]⟩
      · have hnext : b.pending ≠ [] → ∀ u ∈ rest, b.start ≤ u.offset := fun hb u hu =>
          Nat.le_trans (start_le_of_step hstep hpending hb) (Nat.le_of_lt (hfirst u hu))
        obtain ⟨front, tag, back, rfl, htag, hplace, hsame⟩ := ih hrest hrising hnext
        refine ⟨t :: front, tag, back, rfl, htag, hplace, fun locate' fault' back' hlocate => ?_⟩
        have hlt : t.offset < tag.offset := hfirst tag (by simp)
        have hstep' : a.step locate' t = ⟨events, .ok b⟩ :=
          (step_congr (fun ha => hlocate _ (by have := hpending ha; omega))
            (hlocate _ (Nat.le_of_lt hlt))).trans hstep
        obtain ⟨after', hafter⟩ := hsame locate' fault' back' hlocate
        exact ⟨after', by
          rw [List.cons_append, signals_of_step hstep', hafter, List.append_assoc,
            List.cons_append]⟩

end Assembler

/-- A checkpoint behind events is that of a tag of the source, which stands where they do. A source
that is the same up to the end of the tag is told alike up to the checkpoint. -/
theorem signals_read {source : List Char} {told after : List Signal} {block : List Event}
    (hblock : block ≠ [])
    (h : signals source = told ++ (block.map .event ++ .checkpoint :: after)) :
    ∃ tag read before piece rest, source = read ++ rest ∧ read ≠ [] ∧
      tag ∈ (scan source).tokens ∧ tag.token.isTag = true ∧
      tag.Written source before piece rest ∧ Text.dropMark read = before ++ piece ∧
      (∀ e ∈ block, e.isText = false → e.place = Location.ofOffset source tag.offset) ∧
      ∀ other, ∃ after',
        signals (read ++ other) = told ++ (block.map .event ++ .checkpoint :: after') := by
  obtain ⟨front, tag, back, htokens, htag, hplace, htold⟩ :=
    Assembler.signals_cut hblock h (scan_rising source) fun hpending => absurd rfl hpending
  obtain ⟨before, piece, rest, hwritten, hpiece, hoffset, hscanned, hstays⟩ :=
    scanFrom_cut htag htokens
  rw [Nat.zero_add] at hoffset
  obtain ⟨mark, hmark⟩ := Text.exists_dropMark source
  have hread : mark ++ (before ++ piece) ≠ [] := by simp [hpiece]
  have hsource : source = mark ++ (before ++ piece) ++ rest := by
    rw [hmark, hwritten]
    simp only [List.append_assoc]
  have hdrop : Text.dropMark (mark ++ (before ++ piece)) = before ++ piece := by
    have hall := Text.dropMark_append hread rest
    rw [← hsource, hwritten, ← List.append_assoc] at hall
    exact (List.append_cancel_right hall).symm
  refine ⟨tag, mark ++ (before ++ piece), before, piece, rest, hsource, hread, ?_, htag,
    ⟨hwritten, hoffset, hscanned⟩, hdrop, hplace, fun other => ?_⟩
  · rw [htokens]
    simp
  · have hcs : Text.dropMark (mark ++ (before ++ piece) ++ other) = before ++ (piece ++ other) := by
      rw [Text.dropMark_append hread, hdrop, List.append_assoc]
    obtain ⟨back', hback⟩ := hstays other _ (Nat.lt_succ_self _)
    obtain ⟨after', hafter⟩ := htold (Location.ofOffset (mark ++ (before ++ piece) ++ other))
      (scan (mark ++ (before ++ piece) ++ other)).fault back' fun offset hle => by
        rw [hsource]
        refine Location.ofOffset_append_congr _ ?_ other rest
        simp only [Text.byteLength_append]
        omega
    refine ⟨after', ?_⟩
    rw [← hafter, ← hback, signals, scan, hcs]

section Readers

variable {σ ε : Type} (handle : σ → Event → Except ε σ) (finished : σ → Bool)
  (refuse : σ → MarkupFault → Except ε σ)

/-- The events that a reader is given of some signals: those told until it fails or has had enough. -/
def given : List Signal → σ → List Event
  | [], _ => []
  | .event e :: rest, s =>
    e :: match handle s e with
      | .ok s => given rest s
      | .error _ => []
  | .checkpoint :: rest, s => if finished s then [] else given rest s
  | .fault _ :: _, _ => []

variable {handle finished refuse} {told : List Signal} {s : σ}

/-- What follows a checkpoint at which a reader has had enough does not count for it. -/
theorem deliver_enough
    (h : ∀ s', deliver handle finished refuse told s = .ok s' → finished s' = true)
    (after : List Signal) :
    deliver handle finished refuse (told ++ .checkpoint :: after) s =
        deliver handle finished refuse told s ∧
      given handle finished (told ++ .checkpoint :: after) s = given handle finished told s := by
  induction told generalizing s with
  | nil =>
    have henough : finished s = true := h s rfl
    simp only [List.nil_append, deliver, given, henough, if_true]
    exact ⟨trivial, trivial⟩
  | cons signal told ih =>
    cases signal with
    | event e =>
      simp only [List.cons_append, deliver, given] at h ⊢
      cases hstep : handle s e with
      | error cause => exact ⟨rfl, rfl⟩
      | ok next =>
        rw [hstep] at h
        obtain ⟨hdeliver, hgiven⟩ := ih h
        exact ⟨hdeliver, congrArg (e :: ·) hgiven⟩
    | checkpoint =>
      simp only [List.cons_append, deliver, given] at h ⊢
      by_cases hfinished : finished s = true
      · simp only [if_pos hfinished]
        exact ⟨trivial, trivial⟩
      · simp only [if_neg hfinished] at h ⊢
        exact ih h
    | fault f => exact ⟨rfl, rfl⟩

/-- A reader that has had enough when it is asked after an event is given the same, and ends alike,
whatever follows the tag that the event is told with. -/
theorem given_read {source : List Char} {e : Event} {others : List Event} {after : List Signal}
    (h : signals source = told ++ .event e :: (others.map .event ++ .checkpoint :: after))
    (henough : ∀ s', deliver handle finished refuse (told ++ .event e :: others.map .event) s = .ok s' →
      finished s' = true) :
    ∃ tag read before piece rest, source = read ++ rest ∧ tag ∈ (scan source).tokens ∧
      tag.token.isTag = true ∧ tag.Written source before piece rest ∧
      Text.dropMark read = before ++ piece ∧
      (e.isText = false → e.place = Location.ofOffset source tag.offset) ∧
      ∀ other,
        deliver handle finished refuse (signals (read ++ other)) s =
          deliver handle finished refuse (signals source) s ∧
        given handle finished (signals (read ++ other)) s =
          given handle finished (signals source) s := by
  have hblock : signals source = told ++ ((e :: others).map .event ++ .checkpoint :: after) := h
  obtain ⟨tag, read, before, piece, rest, hsource, -, htoken, htag, hwritten, hdrop, hplace, hsame⟩ :=
    signals_read (List.cons_ne_nil e others) hblock
  refine ⟨tag, read, before, piece, rest, hsource, htoken, htag, hwritten, hdrop,
    hplace e List.mem_cons_self, fun other => ?_⟩
  obtain ⟨after', hother⟩ := hsame other
  rw [hother, hblock, ← List.append_assoc, ← List.append_assoc]
  obtain ⟨hdeliver, hgiven⟩ := deliver_enough henough after
  obtain ⟨hdeliver', hgiven'⟩ := deliver_enough henough after'
  exact ⟨hdeliver'.trans hdeliver.symm, hgiven'.trans hgiven.symm⟩

end Readers

end Markup

end ObjectMarkup
