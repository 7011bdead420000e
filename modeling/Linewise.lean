import Linewise.Main
import Linewise.Proofs.CalledSegments
import Linewise.Proofs.CommandGrammar
import Linewise.Proofs.Decomposition
import Linewise.Proofs.FaultWording
import Linewise.Proofs.FileTrees
import Linewise.Proofs.FullDevice
import Linewise.Proofs.LimitedSplit
import Linewise.Proofs.LineCounts
import Linewise.Proofs.NumberedOutput
import Linewise.Proofs.PathClasses
import Linewise.Proofs.ReaderViews
import Linewise.Proofs.ReaderVisits
import Linewise.Proofs.SafeCuts
import Linewise.Proofs.ScanRuns
import Linewise.Proofs.SegmentSizes
import Linewise.Proofs.Tuning
import Linewise.Split.Interleaving
