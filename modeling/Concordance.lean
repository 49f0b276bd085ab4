import Concordance.Engine.Live
import Concordance.Main
import Concordance.Output.Mark
import Concordance.Proofs.Merge.Batches
import Concordance.Proofs.Engine.Evaluate
import Concordance.Proofs.Engine.SetAlgebra
import Concordance.Proofs.Engine.Dataset
import Concordance.Proofs.Files.Frame
import Concordance.Proofs.Files.Task
import Concordance.Proofs.Files.Change
import Concordance.Proofs.Files.Path
import Concordance.Proofs.Files.Directories
import Concordance.Proofs.Index.Stored
import Concordance.Proofs.Index.Tables
import Concordance.Proofs.Index.Contents
import Concordance.Proofs.Index.Failure
import Concordance.Proofs.Index.Citation
import Concordance.Proofs.Index.Symbols
import Concordance.Proofs.Index.Grammar
import Concordance.Proofs.Index.Rendering
import Concordance.Proofs.Index.Answers
import Concordance.Proofs.Vocabulary.Tokens
import Concordance.Proofs.Scan.Bytes
import Concordance.Proofs.Vocabulary.Places
import Concordance.Proofs.Vocabulary.Distance
import Concordance.Proofs.Engine.Parity
import Concordance.Proofs.Engine.BareTerms
import Concordance.Proofs.Engine.Paging
import Concordance.Proofs.Index.Combined
import Concordance.Proofs.Page
import Concordance.Proofs.Scan.Occurrences
import Concordance.Proofs.Scan.Pages
import Concordance.Proofs.Text.Find
import Concordance.Proofs.Index.Snippet
import Concordance.Proofs.Index.Located
import Concordance.Proofs.Scan.Proximity
import Concordance.Proofs.Scan.Pairing
import Concordance.Proofs.Scan.PairingLaws
import Concordance.Proofs.Scan.CaseFolding
import Concordance.Proofs.Scan.Stricter
import Concordance.Proofs.Query.Tokens
import Concordance.Proofs.Query.Pairs
import Concordance.Proofs.Query.Strict
import Concordance.Proofs.Query.Lexing
import Concordance.Proofs.Query.Spelling
import Concordance.Proofs.Query.Quotes
import Concordance.Proofs.Query.Neighbours
import Concordance.Proofs.Query.LeadingNot
import Concordance.Proofs.Engine.Totals
import Concordance.Proofs.CommandLine.Export
import Concordance.Proofs.Engine.CorpusOrder
import Concordance.Proofs.Index.StoredPages
import Concordance.Proofs.Corpus.Written
import Concordance.Proofs.Page.Lookup
import Concordance.Proofs.Page.Check
import Concordance.Proofs.Corpus.Flat
import Concordance.Proofs.Corpus.Full
import Concordance.Proofs.Index.Windows
import Concordance.Proofs.Index.HitByHit
import Concordance.Proofs.Index.Progress
import Concordance.Proofs.Output.Marking
import Concordance.Proofs.Output.Exported
import Concordance.Proofs.Output.Numbering
import Concordance.Proofs.Index.Sanitized
