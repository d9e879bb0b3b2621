import Mathlib.Logic.Relation
import ObjectMarkup.Binding.Binder
import ObjectMarkup.Resource.JsonBundle
import ObjectMarkup.Proofs.Document.IncludePath

namespace ObjectMarkup

open Markup

open Reading (Follows Same)

def Reader.withLocale (r : Reader) (locale : Option Locale) : Reader :=
  { r with environment := { r.environment with locale } }

/-- The bundles that are asked for by inclusions in the document at `l`, or in those that it
includes, directly or through others, are the same for another locale of the reader. -/
def Reader.SameBundles (r : Reader) (locale : Option Locale) (l : String) : Prop :=
  ∀ p text e i baseName, Relation.ReflTransGen (Leads fun p => p.bind r.textAt?) (some l) p →
    p.bind r.textAt? = some text → e ∈ documentEvents (Text.dropMark text) →
    e.inclusion? = some i → i.resources = some baseName →
    (r.withLocale locale).loadBundle baseName none = r.loadBundle baseName none

namespace Reader

variable {r reader : Reader} {locale : Option Locale} {l : String} {i : Inclusion} {g : Guard}

theorem withLocale_withResources (r : Reader) (locale : Option Locale)
    (resources : Option Bundle) :
    (r.withLocale locale).withResources resources =
      (r.withResources resources).withLocale locale := rfl

theorem SameBundles.of_leads (h : r.SameBundles locale l) {l' : String}
    (hleads : Leads (fun p => p.bind r.textAt?) (some l) (some l')) : r.SameBundles locale l' :=
  fun p text e i baseName hp => h p text e i baseName (.head hleads hp)

theorem SameBundles.of_environment (h : r.SameBundles locale l)
    (he : reader.environment = r.environment) : reader.SameBundles locale l := by
  have htext : reader.textAt? = r.textAt? := by
    funext l
    unfold textAt?
    rw [he]
  have hlocale : (reader.withLocale locale).environment = (r.withLocale locale).environment := by
    unfold withLocale
    rw [he]
  intro p text e i baseName hp htext' hevent hi hname
  rw [htext] at hp htext'
  rw [loadBundle_congr he, loadBundle_congr hlocale]
  exact h p text e i baseName hp htext' hevent hi hname

/-- An included document is read with the same bundle and for the other locale. -/
theorem forInclusion_withLocale
    (h : ∀ baseName, i.resources = some baseName →
      (r.withLocale locale).loadBundle baseName none = r.loadBundle baseName none) :
    (r.withLocale locale).forInclusion i = (r.forInclusion i).map (withLocale · locale) := by
  unfold forInclusion
  cases hi : i.resources with
  | none => rfl
  | some baseName =>
    dsimp only
    rw [h baseName hi]
    cases r.loadBundle baseName none <;> rfl

theorem follows_withLocale {room : Nat} (h : r.SameBundles locale l) :
    Follows (Same (· = g)) (fun _ => False) (· = ·) (readNested room r l)
      (readNested room (r.withLocale locale) l) := by
  -- The two readers differ in the locale at every depth, since what is included gets its locale
  -- from the document around it. The bundles are the same.
  induction room generalizing r l g with
  | zero => exact .fail _
  | succ room ih =>
    apply follows_within
    intro inner _
    refine .bind (Follows.lift_self _) fun bytes bytes' hbytes => ?_
    obtain ⟨hload, rfl⟩ := hbytes
    refine follows_parseBytes ⟨rfl, rfl, rfl, rfl⟩ fun source hsource e he i hi => ?_
    have htext : r.textAt? l = some source := by
      simp [textAt?, hload, hsource, Except.toOption]
    have hinner : r.SameBundles locale (i.path (some l)) :=
      h.of_leads ⟨source, e, i, htext, he, hi, rfl⟩
    have hreader := forInclusion_withLocale (h (some l) source e i · .refl htext he hi)
    unfold readIncluded
    rw [hreader]
    cases hfound : r.forInclusion i with
    | error error => exact .fail _
    | ok reader =>
      refine .bind (A := fun a b => a = reader ∧ b = reader.withLocale locale) (.pure ⟨rfl, rfl⟩) ?_
      rintro _ _ ⟨rfl, rfl⟩
      exact .mapError (fun _ h => h) (ih (hinner.of_environment (forInclusion_environment hfound)))

/-- With the other locale the document is read with the same result. -/
theorem read_withLocale (h : r.SameBundles locale l) (s : Session) :
    ((r.withLocale locale).read l).perform s = (r.read l).perform s :=
  ((follows_withLocale h).perform_eq rfl).1

end Reader

namespace Binder

variable {r : Reader} {owner : BindingClass} {l : LoadPoint} {tag : String} {locale : Locale}

/-- The bundle of a field's document does not depend on the locale of the reader when the field
names one. -/
theorem resourcesFor_withLocale (r : Reader) (owner : BindingClass) (l : LoadPoint)
    (locale : Locale) (other : Option Locale) :
    resourcesFor (r.withLocale other) owner l (some locale) =
      resourcesFor r owner l (some locale) := rfl

theorem reading_congr {α : Type} {x y : Reading α} (wrap : ReadError → BindError)
    (h : ∀ s, x.perform s = y.perform s) : reading wrap x = reading wrap y := by
  have hperform : x.perform = y.perform := funext h
  unfold reading
  rw [hperform]

theorem loadField_withLocale (host : Host) (f : FieldBinding) (htag : l.locale = some tag)
    (hlocale : Locale.parse tag = .ok locale)
    (hsame : r.SameBundles (some locale) (Path.resolve l.document (some owner.location)))
    (p : Progress) :
    (loadField (r.withLocale (some locale)) host owner f l).run p =
      (loadField r host owner f l).run p := by
  have hread : ∀ wrap resources,
      reading wrap (((r.withLocale (some locale)).withResources resources).read
        (Path.resolve l.document (some owner.location))) =
      reading wrap ((r.withResources resources).read
        (Path.resolve l.document (some owner.location))) := by
    intro wrap resources
    apply reading_congr
    rw [Reader.withLocale_withResources]
    exact Reader.read_withLocale (hsame.of_environment rfl)
  unfold loadField
  simp only [localeOf, htag, hlocale, lift, pure_bind, resourcesFor_withLocale, hread]

end Binder

/-- Filling a field that names a locale. The bundle of its document is the one for that locale. The
whole document is filled as with a reader for that locale, with the same objects or the same failure,
where the bundles that inclusions ask for are the same for the locale of the reader. -/
theorem field_filled_for_locale (r : Reader) (host : Host) (owner : BindingClass)
    (f : FieldBinding) (l : LoadPoint) (tag : String) (locale : Locale)
    (htag : l.locale = some tag) (hlocale : Locale.parse tag = .ok locale) :
    (∀ other, Binder.resourcesFor (r.withLocale other) owner l (some locale) =
      Binder.resourcesFor r owner l (some locale)) ∧
    (r.SameBundles (some locale) (Path.resolve l.document (some owner.location)) →
      ∀ p, (Binder.loadField (r.withLocale (some locale)) host owner f l).run p =
        (Binder.loadField r host owner f l).run p) :=
  ⟨Binder.resourcesFor_withLocale r owner l locale,
    fun hsame p => Binder.loadField_withLocale host f htag hlocale hsame p⟩

/-- With a bundle that is the same for all locales, the locale of the reader does not matter. -/
theorem field_filled_for_locale_of_constant :
    let library := (Library.empty.addText "demo/ui/window.wtkx"
      "<wtkx:include src='row.wtkx' resources='demo.Row'/>").addText "demo/ui/row.wtkx"
      "<HashMap xmlns='wtkx.collections' title='%title'/>"
    let loader : BundleLoader := fun name _ => .ok (.flat name ⟨[("title", .string "Row")]⟩)
    let r : Reader :=
      ⟨{ (Reader.ofLibrary library).environment with bundles := some loader }, none⟩
    let l : LoadPoint := ⟨"window.wtkx", none, some "fr"⟩
    let fill := fun r => (Binder.loadField r ⟨[], fun _ _ _ _ => .ok ()⟩ ⟨"demo.ui.Main", []⟩
      { name := "window", load := some l } l).run ⟨.initial, []⟩
    fill (r.withLocale (some ⟨"fr", none⟩)) = fill r ∧
      ((fill r).2.session.heap.object ⟨0⟩).dictionary = some ⟨[("title", .string "Row")]⟩ := by
  intro library loader r l fill
  have hlocale : Locale.parse "fr" = .ok ⟨"fr", none⟩ := by decide +kernel
  obtain ⟨-, hfill⟩ := field_filled_for_locale r ⟨[], fun _ _ _ _ => .ok ()⟩ ⟨"demo.ui.Main", []⟩
    { name := "window", load := some l } l "fr" ⟨"fr", none⟩ rfl hlocale
  have hsame : r.SameBundles (some ⟨"fr", none⟩)
      (Path.resolve l.document (some (BindingClass.location ⟨"demo.ui.Main", []⟩))) := by
    intro p text e i baseName _ _ _ _ _
    rfl
  exact ⟨hfill hsame _, by decide +kernel⟩

/-- A field for French, filled with a reader for no locale: the included document gets the bundle
without French texts. With a reader for French it gets the French one. -/
theorem field_locale_lost_in_inclusion :
    let library := (((Library.empty.addText "demo/ui/window.wtkx"
      "<wtkx:include src='row.wtkx' resources='demo.Row'/>").addText "demo/ui/row.wtkx"
      "<HashMap xmlns='wtkx.collections' title='%title'/>").addText "demo/Row.json"
      "\x7b\"title\": \"Row\"\x7d").addText "demo/Row_fr.json" "\x7b\"title\": \"Rang\"\x7d"
    let r : Reader := ⟨{ (Reader.ofLibrary library).environment with
      bundles := some (JsonBundle.loader library.provider) }, none⟩
    let l : LoadPoint := ⟨"window.wtkx", none, some "fr"⟩
    let title := fun r => (((Binder.loadField r ⟨[], fun _ _ _ _ => .ok ()⟩
      ⟨"demo.ui.MainWindow", []⟩ { name := "window", load := some l } l).run
      ⟨.initial, []⟩).2.session.heap.object ⟨0⟩).dictionary
    title r = some ⟨[("title", .string "Row")]⟩ ∧
      title (r.withLocale (some ⟨"fr", none⟩)) = some ⟨[("title", .string "Rang")]⟩ := by
  decide +kernel

end ObjectMarkup
