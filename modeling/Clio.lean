import Clio.StaleTranslation
import Clio.CacheOnce
import Clio.LookupOrder
import Clio.FaultPipeline
import Clio.WindowStall
import Clio.BufferLayout
import Clio.HostAccess
import Clio.KeyValuePipeline
import Clio.SessionClose
import Clio.AllocComplete
import Clio.Backing
import Clio.ConflictRelease
import Clio.FindVaUp
import Clio.BuddyBoot
import Clio.KvsAlloc
import Clio.BumpAlloc
import Clio.FetchPipeline
import Clio.MigrationCancel
import Clio.ForgedAcks
import Clio.RetransLoop
import Clio.Rx64
import Clio.TxArbiter
import Clio.AckBatch
import Clio.WriteBack
import Clio.WriteStrobes
import Clio.DmaArbiter
import Clio.PacketBuilder
import Clio.Monitor
import Clio.SessionPorts
import Clio.HostSpace
import Clio.SlotIsolation
import Clio.FreeIds
import Clio.TimerScan
import Clio.RpcState
import Clio.BoardSelect
import Clio.VmMerge
