import Polyglot.Main
import Polyglot.Session
import Polyglot.Proofs.Hits
import Polyglot.Proofs.Lines
import Polyglot.Proofs.Runs
import Polyglot.Proofs.Replacement
import Polyglot.Proofs.Paragraphs
import Polyglot.Proofs.Signature
import Polyglot.Proofs.Header
import Polyglot.Proofs.Blocks
import Polyglot.Proofs.RoundTrip
import Polyglot.Proofs.BlankLines
import Polyglot.Proofs.Coverage
import Polyglot.Proofs.Jobs
import Polyglot.Proofs.Abort
import Polyglot.Proofs.Places
import Polyglot.Proofs.Sweep
import Polyglot.Proofs.Endings
import Polyglot.Proofs.CamelCase
import Polyglot.Proofs.CallSites
import Polyglot.Proofs.RenamedCalls
import Polyglot.Proofs.Spelling
import Polyglot.Proofs.MarkedWords
import Polyglot.Proofs.Sigils
import Polyglot.Proofs.Nesting
import Polyglot.Proofs.Literals
import Polyglot.Proofs.Outputs
import Polyglot.Proofs.Batch
import Polyglot.Proofs.Artifacts
import Polyglot.Proofs.Deletions
import Polyglot.Proofs.CodePoints
import Polyglot.Proofs.Language
import Polyglot.Proofs.Forms
import Polyglot.Proofs.Renumbering
import Polyglot.Proofs.Drafts
import Polyglot.Proofs.Exclusions
import Polyglot.Proofs.QuotedNames
import Polyglot.Proofs.Books
import Polyglot.Proofs.Failures
import Polyglot.Proofs.Segments
import Polyglot.Proofs.Awaits
import Polyglot.Proofs.Strictness
import Polyglot.Proofs.Diagnostics
import Polyglot.Proofs.Overwriting
import Polyglot.Proofs.Manifest
import Polyglot.Proofs.Placeholders
import Polyglot.Proofs.PythonLoops
import Polyglot.Proofs.Arguments
import Polyglot.Proofs.Sentinels
import Polyglot.Proofs.Arrows
import Polyglot.Proofs.Discovery
import Polyglot.Proofs.Preorder
import Polyglot.Proofs.ImportedNames
import Polyglot.Proofs.Regions
import Polyglot.Proofs.HierarchySplices
import Polyglot.Proofs.QualifiedNames
import Polyglot.Proofs.Pending
import Polyglot.Proofs.FilledLines
import Polyglot.Proofs.Underscores
import Polyglot.Proofs.DryRuns
import Polyglot.Proofs.NumberLists
