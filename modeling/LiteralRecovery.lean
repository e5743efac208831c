import LiteralRecovery.Engine
import LiteralRecovery.Proofs.Undo
import LiteralRecovery.Proofs.Interleaving
import LiteralRecovery.Proofs.Calls
import LiteralRecovery.Proofs.Depth
import LiteralRecovery.Proofs.Underflow
import LiteralRecovery.Proofs.Meaning
import LiteralRecovery.Proofs.Cache
import LiteralRecovery.Proofs.Entries
import LiteralRecovery.Proofs.SecondRun
import LiteralRecovery.Proofs.FixedPoint
import LiteralRecovery.Proofs.Probes
import LiteralRecovery.Proofs.Provenance
import LiteralRecovery.Proofs.Abort
import LiteralRecovery.Proofs.Schedules
import LiteralRecovery.Proofs.Options
import LiteralRecovery.Proofs.Addressing
import LiteralRecovery.Proofs.Literals
import LiteralRecovery.Proofs.Chains
import LiteralRecovery.Proofs.Grammar
import LiteralRecovery.Proofs.Scan
import LiteralRecovery.Proofs.Requests
import LiteralRecovery.Proofs.Selection
import LiteralRecovery.Proofs.Blocks
import LiteralRecovery.Proofs.Reversal
import LiteralRecovery.Proofs.WideText
import LiteralRecovery.Proofs.DecoderPool
import LiteralRecovery.Proofs.Recordings
import LiteralRecovery.Proofs.Formats
