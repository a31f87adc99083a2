import Backtrace.Debugger.Session
import Backtrace.Debugger.Tour
import Backtrace.Main
import Backtrace.Proofs.Bounds
import Backtrace.Proofs.Comparison
import Backtrace.Proofs.NestedCalls
import Backtrace.Proofs.PartialMap
import Backtrace.Proofs.Soundness
import Backtrace.Proofs.Verdict
import Backtrace.Proofs.Footprint
import Backtrace.Proofs.StartDefinition
import Backtrace.Proofs.Cursor
import Backtrace.Proofs.Decoding
import Backtrace.Proofs.LostStackPointer
import Backtrace.Proofs.SearchComparison
import Backtrace.Proofs.StackPointerWrites
import Backtrace.Proofs.Alignment
import Backtrace.Proofs.ByteImage
import Backtrace.Proofs.RowText
import Backtrace.Proofs.NameHistory
import Backtrace.Proofs.LimitTexts
import Backtrace.Proofs.LatestStop
import Backtrace.Proofs.TourStops
