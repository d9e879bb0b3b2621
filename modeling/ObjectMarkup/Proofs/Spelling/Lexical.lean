import ObjectMarkup.Proofs.Markup.Tree
import ObjectMarkup.Proofs.Spelling.Telling

namespace ObjectMarkup

namespace Markup

/-- The ways to write a text between two tags: its plain characters, and pieces that are no tag and
stand for some of it, such as literal text, references, comments and instructions. -/
inductive Spells : List Char → List Char → Prop
  | nil : Spells [] []
  | plain {c : Char} {text written : List Char} (plain : isPlain c = true)
      (rest : Spells text written) : Spells (c :: text) (c :: written)
  | piece {t : Token} {piece content text written : List Char}
      (scanned : scanToken piece = .ok ⟨t, piece, []⟩) (markup : t.isText = false)
      (stands : t.piece? = some content) (rest : Spells text written) :
      Spells (content ++ text) (piece ++ written)

/-- A source and a rewriting of it. The rewriting may spell each text in another way, with comments
and instructions put in or left out, and write an element that has one tag with two. What is scanned
no further is left as it is. -/
inductive Rewritten : List Char → List Char → Prop
  | same (cs : List Char) : Rewritten cs cs
  | text {content written written' rest rest' : List Char} (before : Spells content written)
      (after : Spells content written') (follows : Rewritten rest rest') :
      Rewritten (written ++ rest) (written' ++ rest')
  | token {t : Token} {piece rest rest' : List Char}
      (scanned : scanToken piece = .ok ⟨t, piece, []⟩) (markup : t.isText = false)
      (follows : Rewritten rest rest') : Rewritten (piece ++ rest) (piece ++ rest')
  | expanded {tag rest rest' empty start ending : List Char}
      (empty_eq : empty = '<' :: tag ++ ['/', '>']) (start_eq : start = '<' :: tag ++ ['>'])
      (ending_eq : ending = '<' :: '/' :: tagName tag ++ ['>'])
      (empties : scanToken empty = .ok ⟨.emptyTag tag, empty, []⟩)
      (starts : scanToken start = .ok ⟨.openTag tag, start, []⟩)
      (ends : scanToken ending = .ok ⟨.closeTag (tagName tag), ending, []⟩)
      (follows : Rewritten rest rest') :
      Rewritten (empty ++ rest) (start ++ ending ++ rest')

theorem tell_spells {text written : List Char} (h : Spells text written) (a : Assembler)
    (rest : List Char) : tell a (written ++ rest) = tell (a.push text 0) rest := by
  induction h generalizing a with
  | nil => exact tell_congr (by simp [Assembler.push, Assembler.still]) rest
  | plain plain _ ih =>
    rw [List.cons_append, tell_plain a plain, ih]
    exact tell_congr (by simp [Assembler.push, Assembler.still]) rest
  | @piece t piece content text written scanned markup stands _ ih =>
    obtain ⟨next, hstep, hframes, hpending⟩ :=
      Assembler.step_piece (t := ⟨t, 0⟩) stands a.still (fun _ => default)
    rw [List.append_assoc, tell_piece a scanned markup, Assembler.take, hstep]
    change (tell next (written ++ rest)).after [] = _
    rw [Recording.after_nil, ih]
    refine tell_congr ?_ rest
    simp [Assembler.push, Assembler.still, hframes, hpending]

/-- One tag for an element without content, or a start tag and an end tag. -/
theorem tell_expanded (a : Assembler) (tag : List Char) (rest : Assembler → Recording) :
    ((a.take (.openTag tag)).followedBy fun b => (b.take (.closeTag (tagName tag))).followedBy rest) =
      (a.take (.emptyTag tag)).followedBy rest := by
  unfold Assembler.take
  simp only [Assembler.step]
  cases hopen : a.still.openTag tag default with
  | error f => rfl
  | ok p =>
    obtain ⟨frame, e⟩ := p
    have hname : frame.name = tagName tag := by
      unfold Assembler.openTag at hopen
      cases htag : tagAttributes tag with
      | error f => simp [htag, Except.map] at hopen
      | ok attributes =>
        simp only [htag, Except.map, Except.ok.injEq, Prod.mk.injEq] at hopen
        rw [← hopen.1]
    simp only [Outcome.followedBy, Assembler.opened, Assembler.still, hname, if_true]
    simp [Recording.after, Assembler.flushed]

theorem tell_rewritten {cs cs' : List Char} (h : Rewritten cs cs') (a : Assembler) :
    tell a cs' = tell a cs := by
  induction h generalizing a with
  | same cs => rfl
  | text before after _ ih => rw [tell_spells before, tell_spells after, ih]
  | token scanned markup _ ih =>
    rw [tell_piece a scanned markup, tell_piece a scanned markup]
    exact congrArg _ (funext ih)
  | expanded _ _ _ empties starts ends _ ih =>
    rw [List.append_assoc, tell_piece a starts rfl, tell_piece a empties rfl, ← tell_expanded]
    congr 1
    funext b
    rw [tell_piece b ends rfl]
    exact congrArg _ (funext ih)

end Markup

open Markup

/-- A source and a rewriting of it are read alike. An error stays the same but for its place. -/
theorem rewritten_reads_alike (r : Reader) {source source' : List Char}
    (h : Rewritten (body source) (body source')) :
    r.ReadsAlike id source source' ∧
      ∀ nested location s e, ((r.parse nested source location).perform s).1 = .error e →
        ∃ e', ((r.parse nested source' location).perform s).1 = .error e' ∧
          (e' = e ∨ ∃ f place place', e = .malformed f place ∧ e' = .malformed f place') := by
  have halike : r.ReadsAlike id source source' := by
    refine r.readsAlike_of_tell keepsControl_id ?_
    rw [Recording.requalify_id]
    exact tell_rewritten h .initial
  refine ⟨halike, fun nested location s e herror => ?_⟩
  obtain ⟨e', herror', hkind⟩ := (halike.parse nested location s).1.of_error herror
  exact ⟨e', herror', hkind.eq_of_id⟩

/-- A list with a text and a map, and the same list with another spelling of each. -/
theorem rewritten_reads_alike_of_list :
    let source := "<ArrayList xmlns='wtkx.collections'>a&lt;<HashMap/></ArrayList>".toList
    let rewriting := ("<?p?><ArrayList xmlns='wtkx.collections'><![CDATA[a<]]><!-- c -->" ++
      "<HashMap></HashMap></ArrayList>").toList
    Rewritten (body source) (body rewriting) ∧ Reader.plain.ReadsAlike id source rewriting := by
  intro source rewriting
  have hsource : body source =
      [] ++ ("<ArrayList xmlns='wtkx.collections'>".toList ++ ('a' :: ("&lt;".toList ++ []) ++
        ("<HashMap/>".toList ++ "</ArrayList>".toList))) := by decide +kernel
  have hrewriting : body rewriting =
      "<?p?>".toList ++ [] ++ ("<ArrayList xmlns='wtkx.collections'>".toList ++
        ("<![CDATA[a<]]>".toList ++ ("<!-- c -->".toList ++ []) ++
          ("<HashMap>".toList ++ "</HashMap>".toList ++ "</ArrayList>".toList))) := by
    decide +kernel
  have hinstruction : Spells ([] ++ []) ("<?p?>".toList ++ []) :=
    .piece (t := .skipped) rfl rfl rfl .nil
  have hplain : Spells ('a' :: (['<'] ++ [])) ('a' :: ("&lt;".toList ++ [])) :=
    .plain rfl (.piece (t := .reference "lt".toList) rfl rfl rfl .nil)
  have hliteral : Spells ("a<".toList ++ ([] ++ []))
      ("<![CDATA[a<]]>".toList ++ ("<!-- c -->".toList ++ [])) :=
    .piece (t := .literal "a<".toList) rfl rfl rfl (.piece (t := .skipped) rfl rfl rfl .nil)
  have hstart : scanToken "<HashMap>".toList =
      .ok ⟨.openTag "HashMap".toList, "<HashMap>".toList, []⟩ := rfl
  have hending : scanToken "</HashMap>".toList =
      .ok ⟨.closeTag (tagName "HashMap".toList), "</HashMap>".toList, []⟩ := rfl
  have hmap : Rewritten ("<HashMap/>".toList ++ "</ArrayList>".toList)
      ("<HashMap>".toList ++ "</HashMap>".toList ++ "</ArrayList>".toList) :=
    .expanded rfl rfl rfl rfl hstart hending (.same "</ArrayList>".toList)
  have hrewritten : Rewritten (body source) (body rewriting) := by
    rw [hsource, hrewriting]
    exact .text .nil hinstruction (.token (t := .openTag "ArrayList xmlns='wtkx.collections'".toList)
      rfl rfl (.text hplain hliteral hmap))
  exact ⟨hrewritten, (rewritten_reads_alike Reader.plain hrewritten).1⟩

end ObjectMarkup
