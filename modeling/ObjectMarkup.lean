import ObjectMarkup.Binding.Binder
import ObjectMarkup.Demo.Objects
import ObjectMarkup.Demo.Scripts
import ObjectMarkup.Main
import ObjectMarkup.Proofs.Reading.Outcome
import ObjectMarkup.Proofs.Document.Run
import ObjectMarkup.Proofs.Document.OpenElements
import ObjectMarkup.Proofs.Document.Inclusion
import ObjectMarkup.Proofs.Document.Splice
import ObjectMarkup.Proofs.Document.IncludePath
import ObjectMarkup.Proofs.Document.Scope
import ObjectMarkup.Proofs.Document.Children
import ObjectMarkup.Proofs.Document.AttachedOwner
import ObjectMarkup.Proofs.Isolation.Reads
import ObjectMarkup.Proofs.Spelling.Lexical
import ObjectMarkup.Proofs.Spelling.Prefix
import ObjectMarkup.Proofs.Binding.FieldLocale
import ObjectMarkup.Proofs.Binding.Plan
import ObjectMarkup.Proofs.Collections.Denotation
import ObjectMarkup.Proofs.Binding.Assignments
import ObjectMarkup.Proofs.Binding.NearestLoad
import ObjectMarkup.Proofs.Registry.Operation
import ObjectMarkup.Proofs.Registry.Addressing
import ObjectMarkup.Proofs.Path.Scheme
import ObjectMarkup.Proofs.Resource.LayeredBundle
import ObjectMarkup.Proofs.Dump.Expansion
import ObjectMarkup.Proofs.Literal.Integer
import ObjectMarkup.Proofs.Literal.Sigil
import ObjectMarkup.Proofs.Document.PropertyForms
import ObjectMarkup.Proofs.Dump.Members
import ObjectMarkup.Proofs.Document.AttributeOrder
import ObjectMarkup.Proofs.Document.Trailing
import ObjectMarkup.Proofs.Document.ErrorTrace
import ObjectMarkup.Proofs.Resource.Confinement
import ObjectMarkup.Proofs.Document.RootElement
import ObjectMarkup.Proofs.Document.Composites
import ObjectMarkup.Proofs.Document.OpenDocuments
import ObjectMarkup.Proofs.Markup.Offset
import ObjectMarkup.Proofs.Resource.LocaleTag
import ObjectMarkup.Proofs.Collections.Entries
