import Memprof.Model.Rust
import Memprof.Model.SizeOf
import Memprof.Model.Profiler
import Memprof.Model.Create
import Memprof.Proofs.HeapSum
import Memprof.Proofs.DList2Walk
import Memprof.Proofs.PrintCycle
import Memprof.Proofs.RegistryLaw
import Memprof.Proofs.SystemFirst
import Memprof.Proofs.ThreadRuns
import Memprof.Model.Smaps
import Memprof.Proofs.SmapsScan
import Memprof.Proofs.SmapsBreakdown
import Memprof.Proofs.SmapsSource
import Memprof.Model.System
import Memprof.Proofs.SystemReports
import Memprof.Proofs.SystemCycle
import Memprof.Proofs.KernelFormats
