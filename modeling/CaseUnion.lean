import CaseUnion.Proofs.Appending
import CaseUnion.Proofs.Congruence
import CaseUnion.Proofs.EarlyTypes
import CaseUnion.Proofs.EntryPoints
import CaseUnion.Proofs.Interleaving
import CaseUnion.Proofs.Morphing
import CaseUnion.Proofs.Primitives
import CaseUnion.Proofs.Sealing
import CaseUnion.Proofs.Search
import CaseUnion.Script.Chain
