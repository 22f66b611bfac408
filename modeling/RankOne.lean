import RankOne.CircuitProbe
import RankOne.Main
import RankOne.Program
import RankOne.Worksheet
import RankOne.TextControl
import RankOne.Proofs.Numbering
import RankOne.Proofs.Interruption
import RankOne.Proofs.Solutions
import RankOne.Proofs.Accounting
import RankOne.Proofs.Rendering
import RankOne.Proofs.Scope
import RankOne.Proofs.Wiring
import RankOne.Proofs.Decoding
import RankOne.Proofs.DumpReading
import RankOne.Proofs.Fitting
import RankOne.Proofs.Support
import RankOne.Proofs.SupportOfColumns
import RankOne.Proofs.RangeCheck
import RankOne.Proofs.Witnesses
import RankOne.Proofs.Growth
import RankOne.Proofs.Splicing
import RankOne.Proofs.Interleaving
import RankOne.Proofs.Namespaces
import RankOne.Proofs.CanonicalPatterns
import RankOne.Proofs.Refusals
import RankOne.Proofs.FanIn
import RankOne.Proofs.SignedSums
import RankOne.Proofs.Flattening
import RankOne.Proofs.SummaryOfRows
import RankOne.Proofs.DecompositionExport
import RankOne.Proofs.References
import RankOne.Proofs.ExportCalls
import RankOne.Proofs.SummaryCalls
