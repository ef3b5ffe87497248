import BoundMarkup.Main
import BoundMarkup.Binding.Hub
import BoundMarkup.Storage.FileTree
import BoundMarkup.Proofs.Binding.Hosts
import BoundMarkup.Proofs.Binding.Reread
import BoundMarkup.Proofs.Binding.Rerender
import BoundMarkup.Proofs.Binding.Session
import BoundMarkup.Proofs.Markup.Grammar
import BoundMarkup.Proofs.Markup.Stable
import BoundMarkup.Proofs.Path.Resolution
import BoundMarkup.Proofs.Markup.RawText
import BoundMarkup.Proofs.Markup.LeadingMark
import BoundMarkup.Proofs.Binding.Events
import BoundMarkup.Proofs.Binding.Checked
import BoundMarkup.Proofs.Markup.WellFormed
import BoundMarkup.Proofs.Binding.Payload
import BoundMarkup.Proofs.Binding.AttributeMap
import BoundMarkup.Proofs.Binding.Disclosure
import BoundMarkup.Proofs.Binding.Display
import BoundMarkup.Proofs.Markup.Ancestry
import BoundMarkup.Proofs.Binding.Linted
import BoundMarkup.Proofs.Binding.Nested
import BoundMarkup.Proofs.Markup.Reference
import BoundMarkup.Proofs.Binding.Screening
import BoundMarkup.Proofs.Markup.Rounds
