import ObjectMarkup.Location
import ObjectMarkup.Proofs.Markup.Scanning

namespace ObjectMarkup

namespace Location

/-- One place is not after another when it is on an earlier line, or not further on in the line. -/
instance : LE Location :=
  ⟨fun l l' => l.line < l'.line ∨ l.line = l'.line ∧ l.column ≤ l'.column⟩

theorem le_def {l l' : Location} :
    l ≤ l' ↔ l.line < l'.line ∨ l.line = l'.line ∧ l.column ≤ l'.column := Iff.rfl

theorem le_refl (l : Location) : l ≤ l := .inr ⟨rfl, Nat.le_refl _⟩

theorem le_trans {l l' l'' : Location} (h : l ≤ l') (h' : l' ≤ l'') : l ≤ l'' := by
  rw [le_def] at h h' ⊢
  omega

/-- The place where a text that starts a document ends: after its last line break, or at its start. -/
def ofEnd (text : List Char) : Location :=
  ⟨text.count '\n' + 1, Text.byteLength (text.reverse.takeWhile (· ≠ '\n')) + 1⟩

def past (l : Location) (c : Char) : Location :=
  if c = '\n' then ⟨l.line + 1, 1⟩ else ⟨l.line, l.column + c.utf8Size⟩

theorem le_past (l : Location) (c : Char) : l ≤ l.past c := by
  unfold past
  split
  · exact .inl (Nat.lt_succ_self _)
  · exact .inr ⟨rfl, Nat.le_add_right _ _⟩

theorem advance_of_lt (l : Location) {c : Char} (cs : List Char) {offset : Nat}
    (h : offset < c.utf8Size) : l.advance (c :: cs) offset = l := by
  rw [advance, if_pos h]

theorem advance_past (l : Location) (c : Char) (cs : List Char) (offset : Nat) :
    l.advance (c :: cs) (c.utf8Size + offset) = (l.past c).advance cs offset := by
  rw [advance, if_neg (by omega), Nat.add_sub_cancel_left, past]
  split <;> rfl

theorem advance_zero (l : Location) (cs : List Char) : l.advance cs 0 = l := by
  cases cs with
  | nil => rfl
  | cons c cs => exact advance_of_lt l cs c.utf8Size_pos

theorem advance_mono (l : Location) (cs : List Char) {offset offset' : Nat}
    (h : offset ≤ offset') : l.advance cs offset ≤ l.advance cs offset' := by
  induction cs generalizing l offset offset' with
  | nil => exact le_refl l
  | cons c cs ih =>
    by_cases hstop' : offset' < c.utf8Size
    · rw [advance_of_lt l cs hstop', advance_of_lt l cs (Nat.lt_of_le_of_lt h hstop')]
      exact le_refl l
    · obtain ⟨n', rfl⟩ := Nat.exists_eq_add_of_le (Nat.le_of_not_lt hstop')
      rw [advance_past]
      by_cases hstop : offset < c.utf8Size
      · have hstart := ih (l.past c) (Nat.zero_le n')
        rw [advance_zero] at hstart
        rw [advance_of_lt l cs hstop]
        exact le_trans (le_past l c) hstart
      · obtain ⟨n, rfl⟩ := Nat.exists_eq_add_of_le (Nat.le_of_not_lt hstop)
        rw [advance_past]
        exact ih (l.past c) (by omega)

theorem ofOffset_mono (source : List Char) {offset offset' : Nat} (h : offset ≤ offset') :
    ofOffset source offset ≤ ofOffset source offset' :=
  advance_mono _ source h

/-- Going over a text leads to where its characters do one after another. -/
theorem advance_append (l : Location) (before rest : List Char) :
    l.advance (before ++ rest) (Text.byteLength before) = before.foldl past l := by
  induction before generalizing l with
  | nil => exact advance_zero l rest
  | cons c before ih => rw [List.cons_append, Text.byteLength_cons, advance_past, ih]; rfl

theorem ofEnd_concat (before : List Char) (c : Char) :
    ofEnd (before ++ [c]) = (ofEnd before).past c := by
  by_cases hc : c = '\n'
  · simp [ofEnd, past, hc]
  · simp [ofEnd, past, hc]
    omega

theorem foldl_past_ofEnd (front before : List Char) :
    before.foldl past (ofEnd front) = ofEnd (front ++ before) := by
  induction before generalizing front with
  | nil => rw [List.append_nil]; rfl
  | cons c before ih => rw [List.foldl_cons, ← ofEnd_concat, ih, List.append_assoc]; rfl

/-- The offset of what stands after a text is the place where the text ends. -/
theorem ofOffset_append (before rest : List Char) :
    ofOffset (before ++ rest) (Text.byteLength before) = ofEnd before :=
  (advance_append ⟨1, 1⟩ before rest).trans (foldl_past_ofEnd [] before)

end Location

namespace Markup

/-- A token of a source with its piece, what stands before it, and what stands after it. A byte order
mark at the start of the source does not count. -/
structure Placed.Written (source : List Char) (t : Placed) (before piece after : List Char) :
    Prop where
  source_eq : Text.dropMark source = before ++ (piece ++ after)
  offset_eq : t.offset = Text.byteLength before
  scanned : scanToken (piece ++ after) = .ok ⟨t.token, piece, after⟩

theorem scanToken_written {c : Char} {cs : List Char} {s : Scanned}
    (h : scanToken (c :: cs) = .ok s) : c :: cs = s.written ++ s.rest := by
  cases hc : isPlain c with
  | true =>
    rw [scanToken_plain hc] at h
    cases h
    exact (congrArg (c :: ·) List.takeWhile_append_dropWhile).symm
  | false => exact (leads_markup hc h).1

theorem written_ne_nil {c : Char} {cs : List Char} {s : Scanned}
    (h : scanToken (c :: cs) = .ok s) : s.written ≠ [] := by
  intro hnil
  have hshort := scanToken_shortens h
  rw [scanToken_written h, hnil, List.nil_append] at hshort
  exact Nat.lt_irrefl _ hshort

theorem byteLength_pos {cs : List Char} (h : cs ≠ []) : 0 < Text.byteLength cs := by
  cases cs with
  | nil => exact absurd rfl h
  | cons c cs =>
    have := c.utf8Size_pos
    simp only [Text.byteLength_cons]
    omega

/-- The tokens scanned from a place on are written from there on, one after another. -/
theorem scanFrom_written {source : List Char} (fuel : Nat) (before cs : List Char)
    (hsource : Text.dropMark source = before ++ cs) :
    (∀ t ∈ (scanFrom fuel (Text.byteLength before) cs).tokens,
      Text.byteLength before ≤ t.offset ∧
        ∃ front piece after, t.Written source front piece after) ∧
    (scanFrom fuel (Text.byteLength before) cs).tokens.Pairwise (·.offset < ·.offset) := by
  induction fuel generalizing before cs with
  | zero => exact ⟨by simp [scanFrom], by simp [scanFrom]⟩
  | succ fuel ih =>
    cases cs with
    | nil => exact ⟨by simp [scanFrom], by simp [scanFrom]⟩
    | cons c cs =>
      rw [scanFrom]
      cases hscan : scanToken (c :: cs) with
      | error f => exact ⟨by simp, by simp⟩
      | ok s =>
        have hpiece := scanToken_written hscan
        have hpos := byteLength_pos (written_ne_nil hscan)
        have hnext := ih (before ++ s.written) s.rest (by rw [hsource, hpiece, List.append_assoc])
        rw [Text.byteLength_append] at hnext
        obtain ⟨hafter, hrising⟩ := hnext
        dsimp only
        refine ⟨fun t ht => ?_, List.pairwise_cons.mpr ⟨fun t ht => ?_, hrising⟩⟩
        · rcases List.mem_cons.mp ht with rfl | ht
          · exact ⟨Nat.le_refl _, before, s.written, s.rest, by rw [hsource, hpiece], rfl,
              by rw [← hpiece, hscan]⟩
          · obtain ⟨hle, hwritten⟩ := hafter t ht
            exact ⟨by omega, hwritten⟩
        · have hle := (hafter t ht).1
          dsimp only
          omega

theorem scan_written {source : List Char} {t : Placed} (h : t ∈ (scan source).tokens) :
    ∃ before piece after, t.Written source before piece after :=
  ((scanFrom_written _ [] _ rfl).1 t h).2

theorem scan_rising (source : List Char) :
    (scan source).tokens.Pairwise (·.offset < ·.offset) :=
  (scanFrom_written _ [] _ rfl).2

namespace Placed.Written

variable {source before piece after : List Char} {t : Placed}

theorem tag (h : t.Written source before piece after) (htag : t.token.isTag = true) :
    ∃ rest, piece = '<' :: rest := by
  obtain ⟨token, offset⟩ := t
  have hscan := h.scanned
  cases hall : piece ++ after with
  | nil =>
    rw [hall] at hscan
    cases hscan
    cases htag
  | cons c cs =>
    rw [hall] at hscan
    cases hc : isPlain c with
    | true =>
      rw [scanToken_plain hc] at hscan
      cases hscan
      cases htag
    | false =>
      rcases isTag_or_not hc hscan with ⟨content, hcontent⟩ | ⟨hno, -⟩
      · exact ⟨_, hcontent.written⟩
      · exact absurd htag (by simpa using hno)

/-- Without a byte order mark, a token stands where what is before it ends. -/
theorem ofOffset_eq (h : t.Written source before piece after)
    (hmark : Text.dropMark source = source) :
    Location.ofOffset source t.offset = Location.ofEnd before := by
  have hsource := h.source_eq
  rw [hmark] at hsource
  rw [h.offset_eq, hsource, Location.ofOffset_append]

end Placed.Written

end Markup

end ObjectMarkup
