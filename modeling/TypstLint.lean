import TypstLint.GitHub.Client
import TypstLint.ImportGraph.View
import TypstLint.Log.Template
import TypstLint.Main
import TypstLint.Manifest.View
import TypstLint.Markup.View
import TypstLint.Proofs.Check.Isolation
import TypstLint.Proofs.Check.RuleOrder
import TypstLint.Proofs.Check.ShortCircuit
import TypstLint.Proofs.Delivery.Completion
import TypstLint.Proofs.Delivery.Evictions
import TypstLint.Proofs.Delivery.Exclusion
import TypstLint.Proofs.Delivery.Merged
import TypstLint.Proofs.Delivery.Names
import TypstLint.Proofs.Delivery.Redelivery
import TypstLint.Proofs.Delivery.Renames
import TypstLint.Proofs.Delivery.Retired
import TypstLint.Proofs.Delivery.TokenHistory
import TypstLint.Proofs.GitHub.Annotation
import TypstLint.Proofs.GitHub.Expected
import TypstLint.Proofs.GitHub.Output
import TypstLint.Proofs.GitHub.Pages
import TypstLint.Proofs.ImportGraph.Components
import TypstLint.Proofs.ImportGraph.Cycles
import TypstLint.Proofs.ImportGraph.Numbering
import TypstLint.Proofs.ImportGraph.Relative
import TypstLint.Proofs.ImportGraph.ShortestCycles
import TypstLint.Proofs.Manifest.Entries
import TypstLint.Proofs.Manifest.Template
import TypstLint.Proofs.Markup.Block
import TypstLint.Proofs.Markup.Exact
import TypstLint.Proofs.Markup.Items
import TypstLint.Proofs.Markup.Opaque
import TypstLint.Proofs.Markup.Params
import TypstLint.Proofs.Markup.Quote
import TypstLint.Proofs.Markup.Stack
import TypstLint.Proofs.Package.Excluded
import TypstLint.Proofs.Readme.Fences
import TypstLint.Proofs.Rules.PublicNames
import TypstLint.Proofs.Tree.Returns
import TypstLint.Proofs.Webhook.Endpoint
