import AffectedTests.Disk.Change
import AffectedTests.Main
import AffectedTests.Proofs.Fallible
import AffectedTests.Proofs.Steady
import AffectedTests.Proofs.Within
import AffectedTests.Proofs.Lookups
import AffectedTests.Proofs.References
import AffectedTests.Proofs.Declarations
import AffectedTests.Proofs.Hops
import AffectedTests.Proofs.Walk
import AffectedTests.Proofs.Impacts
import AffectedTests.Proofs.Trace
import AffectedTests.Proofs.Mentions
import AffectedTests.Proofs.Names
import AffectedTests.Proofs.Spelling
import AffectedTests.Proofs.Cutting
import AffectedTests.Proofs.Decimals
import AffectedTests.Proofs.Rendering
import AffectedTests.Proofs.Pieces
import AffectedTests.Proofs.Rereading
import AffectedTests.Proofs.Changes
import AffectedTests.Proofs.Forgery
import AffectedTests.Proofs.Routes
import AffectedTests.Proofs.ShortestPaths
import AffectedTests.Proofs.Identities
import AffectedTests.Proofs.Growth
import AffectedTests.Proofs.Records
import AffectedTests.Proofs.Places
import AffectedTests.Proofs.Explanations
import AffectedTests.Proofs.Parts
import AffectedTests.Proofs.Answers
import AffectedTests.Proofs.Chains
import AffectedTests.Proofs.Snapshots
import AffectedTests.Proofs.Questions
import AffectedTests.Proofs.Verdicts
import AffectedTests.Proofs.Listings
import AffectedTests.Proofs.Justifications
import AffectedTests.Proofs.Visits
import AffectedTests.Proofs.Clauses
import AffectedTests.Proofs.Barrels
import AffectedTests.Proofs.Uses
import AffectedTests.Proofs.Bindings
import AffectedTests.Proofs.OwnExports
import AffectedTests.Proofs.Seeds
import AffectedTests.Proofs.Spans
import AffectedTests.Proofs.Members
import AffectedTests.Proofs.Readable
import AffectedTests.Proofs.Widening
import AffectedTests.Proofs.Constructors
import AffectedTests.Proofs.Extents
import AffectedTests.Proofs.Smallest
import AffectedTests.Proofs.EnclosingTests
import AffectedTests.Proofs.Literals
import AffectedTests.Proofs.DeletedCalls
import AffectedTests.Proofs.Removals
import AffectedTests.Proofs.Sections
import AffectedTests.Proofs.Numbering
import AffectedTests.Proofs.SavedPatches
import AffectedTests.Proofs.Quoting
import AffectedTests.Proofs.Entries
import AffectedTests.Proofs.Escapes
import AffectedTests.Proofs.Merging
import AffectedTests.Proofs.SourceFiles
import AffectedTests.Proofs.Following
import AffectedTests.Proofs.Normalizing
import AffectedTests.Proofs.Resolution
import AffectedTests.Proofs.Classification
import AffectedTests.Proofs.Turns
import AffectedTests.Proofs.WrittenObjects
import AffectedTests.Proofs.LoadedSettings
import AffectedTests.Proofs.ReadingLimits
import AffectedTests.Proofs.ToldErrors
import AffectedTests.Proofs.DocumentOrder
import AffectedTests.Proofs.CallPattern
import AffectedTests.Proofs.DeletedParts
