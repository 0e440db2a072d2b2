import Pagewright.Main
import Pagewright.Storage.Memory
import Pagewright.Proofs.Content.Element
import Pagewright.Proofs.Content.Placement
import Pagewright.Proofs.Content.Script
import Pagewright.Proofs.Frontmatter.Lines
import Pagewright.Proofs.Loop.Rounds
import Pagewright.Proofs.Loop.Termination
import Pagewright.Proofs.Page.Dump
import Pagewright.Proofs.Site.Alone
import Pagewright.Proofs.Storage.Confinement
import Pagewright.Proofs.Condition.Injection
import Pagewright.Proofs.Binary64.Rounding
import Pagewright.Proofs.Binary64.Decimal
import Pagewright.Proofs.Condition.Literal
import Pagewright.Proofs.Condition.Value
import Pagewright.Proofs.Loop.Marker
import Pagewright.Proofs.Loop.Tree
import Pagewright.Proofs.Loop.Round
import Pagewright.Proofs.Loop.Denotation
import Pagewright.Proofs.Include.Slot
import Pagewright.Proofs.Include.Forwarding
import Pagewright.Proofs.Loop.Nested
import Pagewright.Proofs.Condition.Comparison
import Pagewright.Proofs.Condition.Laws
import Pagewright.Proofs.Loop.Shadowing
import Pagewright.Proofs.Loop.Comparison
import Pagewright.Proofs.Condition.Parenthesized
import Pagewright.Proofs.Condition.Forest
import Pagewright.Proofs.Include.Unfolding
import Pagewright.Proofs.Include.AttributeOrder
import Pagewright.Proofs.Text.Character
import Pagewright.Proofs.Template.Nesting
import Pagewright.Proofs.Site.Dialects
import Pagewright.Proofs.Site.Registry
import Pagewright.Proofs.Storage.Agreement
import Pagewright.Proofs.Markdown.Heading
import Pagewright.Proofs.Command.Render
import Pagewright.Proofs.Content.TableOfContents
import Pagewright.Proofs.Include.Limit
import Pagewright.Proofs.Site.Pointing
import Pagewright.Proofs.Loop.Collation
import Pagewright.Proofs.Loop.WholeNumbers
import Pagewright.Proofs.Loop.Absent
import Pagewright.Proofs.Loop.Window
import Pagewright.Proofs.Site.ContentItems
import Pagewright.Proofs.Site.Materializing
import Pagewright.Proofs.Condition.Words
import Pagewright.Proofs.Site.Fallback
import Pagewright.Proofs.Site.NearestPage
import Pagewright.Proofs.Condition.Refusal
import Pagewright.Proofs.Template.AttributeList
import Pagewright.Proofs.Site.Link
import Pagewright.Proofs.Command.Link
import Pagewright.Proofs.Binary64.WholeText
import Pagewright.Proofs.Condition.Index
import Pagewright.Proofs.Text.Words
import Pagewright.Proofs.Text.Lowercase
import Pagewright.Proofs.Markdown.Slug
import Pagewright.Proofs.Markdown.LineBreak
import Pagewright.Proofs.Config.Valid
import Pagewright.Proofs.Config.Precedence
import Pagewright.Proofs.Json.Paths
import Pagewright.Proofs.Template.TagScan
import Pagewright.Proofs.Template.Offsets
import Pagewright.Proofs.Site.Untouched
import Pagewright.Proofs.Config.References
import Pagewright.Proofs.Condition.Fault
