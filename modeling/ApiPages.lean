import ApiPages.Proofs.Outline
import ApiPages.Proofs.Dependence
import ApiPages.Workspace
import ApiPages.Proofs.Numbering
import ApiPages.Proofs.CrossLink
import ApiPages.Proofs.Ledger
import ApiPages.Proofs.BatchLinks
import ApiPages.Proofs.Effect
import ApiPages.Proofs.BatchUnion
import ApiPages.Proofs.Refusal
import ApiPages.Proofs.Sink
import ApiPages.Proofs.BatchPlaces
import ApiPages.Proofs.Regeneration
import ApiPages.Proofs.BatchFailure
import ApiPages.Proofs.Interleaving
import ApiPages.Proofs.SettingsRefusal
import ApiPages.Proofs.HiddenRoots
import ApiPages.Proofs.CatalogueRoundTrip
import ApiPages.Proofs.TableRow
import ApiPages.Proofs.AnchorNumbers
import ApiPages.Proofs.StableAnchors
import ApiPages.Proofs.CommentHeadings
import ApiPages.Proofs.CodeBlock
import ApiPages.Proofs.LinkLabel
import ApiPages.Proofs.PagePath
import ApiPages.Proofs.FieldOrder
import ApiPages.Proofs.MergedPaths
import ApiPages.Proofs.PrunedEntry
import ApiPages.Proofs.EntryShape
import ApiPages.Proofs.TakenPaths
import ApiPages.Proofs.FinalizedDocument
import ApiPages.Proofs.MissingParts
import ApiPages.Proofs.FieldSummary
import ApiPages.Proofs.FirstSentence
import ApiPages.Proofs.WrittenComment
import ApiPages.Proofs.BatchLog
