import ObjectMarkup.Property
import ObjectMarkup.Text.Split
import ObjectMarkup.Unicode.CaseMapping

namespace ObjectMarkup

/-- A language in lower case with perhaps a country in upper case. -/
structure Locale where
  language : String
  country : Option String
  deriving DecidableEq, Repr

namespace Locale

/-- The locale with its parts brought to their case. -/
def make (language : String) (country : Option String) : Locale :=
  ⟨Unicode.lowercase language, country.map Unicode.upcase⟩

def malformed (tag : String) : PropertyError := .typeMismatch "locale" "language tag" tag

def tagParts (tag : List Char) : List (List Char) :=
  Text.pieces '_' (tag.map fun c => if c = '-' then '_' else c)

/-- Reads a tag: ASCII letters for the language, and after an underscore or a hyphen perhaps a
country. White space around the tag does not count. -/
def parse (tag : String) : Except PropertyError Locale :=
  match tagParts (Text.trim tag.toList) with
  | language :: rest =>
    if language.isEmpty || !language.all Char.isAlpha then .error (malformed tag)
    else
      match rest with
      | [] => .ok (make (String.ofList language) none)
      | [country] =>
        .ok (make (String.ofList language)
          (if country.isEmpty then none else some (String.ofList country)))
      | _ => .error (malformed tag)
  | [] => .error (malformed tag)

def display (l : Locale) : String :=
  match l.country with
  | some country => l.language ++ "_" ++ country
  | none => l.language

/-- The endings of the names of this locale's files, the least specific first. -/
def suffixes (l : Locale) : List String :=
  ("_" ++ l.language) ::
    (l.country.map fun country => "_" ++ l.language ++ "_" ++ country).toList

end Locale

end ObjectMarkup
