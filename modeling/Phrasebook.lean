import Phrasebook.Artifact.Cache
import Phrasebook.Catalog.File
import Phrasebook.Diagnostic
import Phrasebook.Dictionary
import Phrasebook.Main
import Phrasebook.Plural.Tree
import Phrasebook.Po.Reader
import Phrasebook.Resolver
import Phrasebook.Proofs.Plural.Grammar
import Phrasebook.Proofs.Plural.Tokens
import Phrasebook.Proofs.Plural.Reading
import Phrasebook.Proofs.Plural.Acceptance
import Phrasebook.Proofs.Dictionary
import Phrasebook.Proofs.Po.Written
import Phrasebook.Proofs.Text.Lines
import Phrasebook.Proofs.Po.Lines
import Phrasebook.Proofs.Po.Entries
import Phrasebook.Proofs.Po.Files
import Phrasebook.Proofs.Po.RoundTrip
import Phrasebook.Proofs.Json.Layout
import Phrasebook.Proofs.Json.Scalars
import Phrasebook.Proofs.Json.Reading
import Phrasebook.Proofs.Artifact.Embedding
import Phrasebook.Proofs.Artifact.Rendering
import Phrasebook.Proofs.Catalog.Normal
import Phrasebook.Proofs.Text.Bytes
import Phrasebook.Proofs.Artifact.Answers
import Phrasebook.Proofs.Po.Drafts
import Phrasebook.Proofs.Po.LiveEntries
import Phrasebook.Proofs.Po.Obsolete
import Phrasebook.Proofs.Artifact.CacheHistory
import Phrasebook.Proofs.Artifact.Interleaving
import Phrasebook.Proofs.Artifact.Renewal
import Phrasebook.Proofs.Plural.Written
import Phrasebook.Proofs.Plural.Tree
import Phrasebook.Proofs.Catalog.FileJson
import Phrasebook.Proofs.Text.Place
import Phrasebook.Proofs.Po.Stops
import Phrasebook.Proofs.Diagnostic
import Phrasebook.Proofs.Catalog.Refusals
import Phrasebook.Proofs.Po.WellWorded
import Phrasebook.Proofs.Command.Agreement
import Phrasebook.Proofs.Po.Headers
import Phrasebook.Proofs.Catalog.Normalizing
import Phrasebook.Proofs.Template.Matching
import Phrasebook.Proofs.Template.Reading
import Phrasebook.Proofs.Template.Filling
import Phrasebook.Proofs.Plural.Exact
import Phrasebook.Proofs.Artifact.Together
import Phrasebook.Proofs.Po.Grammar
import Phrasebook.Proofs.Po.Escapes
import Phrasebook.Proofs.Po.Readable
import Phrasebook.Proofs.Po.Storing
import Phrasebook.Proofs.Po.Parallel
import Phrasebook.Proofs.Po.Joining
import Phrasebook.Proofs.Plural.Header
import Phrasebook.Proofs.Catalog.Orders
import Phrasebook.Proofs.Po.LineEnds
import Phrasebook.Proofs.Template.Suggestions
import Phrasebook.Proofs.Template.Agreement
import Phrasebook.Proofs.Template.Interchange
import Phrasebook.Proofs.Number.NumericTexts
import Phrasebook.Proofs.Number.Wrapping
import Phrasebook.Proofs.Artifact.Names
import Phrasebook.Proofs.Po.Bounds
import Phrasebook.Proofs.Number.Positional
import Phrasebook.Proofs.Text.Boundaries
