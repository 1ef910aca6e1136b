import Framescript.Command.Disk
import Framescript.Host.Recorder
import Framescript.Main
import Framescript.Proofs.Walks
import Framescript.Proofs.SavedState
import Framescript.Proofs.RunPhase
import Framescript.Proofs.Answers
import Framescript.Proofs.Indifference
import Framescript.Proofs.Residue
import Framescript.Proofs.History
import Framescript.Proofs.Resume
import Framescript.Proofs.Abort
import Framescript.Proofs.Pacing
import Framescript.Proofs.Boundaries
import Framescript.Proofs.Requests
import Framescript.Proofs.Encoding
import Framescript.Proofs.Meaning
import Framescript.Proofs.Performing
import Framescript.Proofs.Placement
import Framescript.Proofs.Numerals
import Framescript.Proofs.Readback
import Framescript.Proofs.Relisting
import Framescript.Proofs.Codecs
import Framescript.Proofs.Files
import Framescript.Proofs.LoadOutcomes
import Framescript.Proofs.Loads
import Framescript.Proofs.EngineLoads
import Framescript.Proofs.Lasting
import Framescript.Proofs.LoadedCode
import Framescript.Proofs.Restart
import Framescript.Proofs.PartSwitches
import Framescript.Proofs.CallDiscipline
import Framescript.Proofs.FailedSteps
import Framescript.Proofs.SliceEnds
import Framescript.Proofs.Tally
import Framescript.Proofs.Budget
import Framescript.Proofs.Yielding
import Framescript.Proofs.Canonical
import Framescript.Proofs.Partition
import Framescript.Proofs.Literals
import Framescript.Proofs.Acceptance
import Framescript.Proofs.SeparateAssembly
import Framescript.Proofs.WordPlaces
import Framescript.Proofs.ErrorPlaces
import Framescript.Proofs.Transfers
import Framescript.Proofs.WalkWindows
import Framescript.Proofs.FailedWalks
import Framescript.Proofs.BuiltCodecs
import Framescript.Proofs.WalkParts
import Framescript.Proofs.ByteBlocks
import Framescript.Proofs.HashedState
import Framescript.Proofs.Clock
import Framescript.Proofs.Saturation
