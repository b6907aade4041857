import Winspd.Lib.Run
import Winspd.Lib.Links
import Winspd.Lib.Chain
import Winspd.Lib.Bytes
import Winspd.Lib.Pieces
import Winspd.Sys.Driver
import Winspd.Sys.Ioq
import Winspd.Sys.Scsi
import Winspd.Sys.ScsiData
import Winspd.Sys.Io
import Winspd.Sys.Stgunit
import Winspd.Sys.Ioctl
import Winspd.Spec.Queue
import Winspd.Proofs.IoqRefine
import Winspd.Proofs.IoqRun
import Winspd.Proofs.IoqWakeup
import Winspd.Proofs.IoqAnswer
import Winspd.Proofs.Posting
import Winspd.Proofs.StartIo
import Winspd.Proofs.UnitRun
import Winspd.Proofs.Transfer
import Winspd.Proofs.Requests
import Winspd.Proofs.ItemStep
import Winspd.Proofs.Chunks
import Winspd.Proofs.Flush
import Winspd.Lib.Slots
import Winspd.Spec.Registry
import Winspd.Proofs.Registry
import Winspd.Proofs.RegistryRun
import Winspd.Proofs.Access
import Winspd.Proofs.DispatchOrder
import Winspd.Proofs.Abort
import Winspd.Proofs.ProcessExit
import Winspd.Proofs.DeviceRemoval
import Winspd.Lib.RwLock
import Winspd.Sys.Adapter
import Winspd.Proofs.Adapter
import Winspd.Lib.Lifetimes
import Winspd.Proofs.Ledger
import Winspd.Proofs.AdapterRemoval
import Winspd.Lib.Threads
import Winspd.Sys.Handlers
import Winspd.Proofs.References
import Winspd.Proofs.Actions
import Winspd.Proofs.Handlers
import Winspd.Proofs.UnitLifetime
import Winspd.Lib.Hashed
import Winspd.Shared.Transact
import Winspd.Shared.Stghandle
import Winspd.Proofs.Connect
import Winspd.Proofs.Generations
import Winspd.Proofs.PipeClients
import Winspd.Proofs.ReadLengths
import Winspd.Proofs.Recovery
import Winspd.Proofs.Bounds
import Winspd.Proofs.PipeParts
import Winspd.Launcher.Instance
import Winspd.Proofs.InstanceActions
import Winspd.Proofs.Instances
import Winspd.Proofs.InstanceRun
import Winspd.Shared.Dispatcher
import Winspd.Proofs.DispatcherThreads
import Winspd.Proofs.DispatcherChain
import Winspd.Proofs.DispatcherSteps
import Winspd.Proofs.DispatcherShutdown
import Winspd.Proofs.DispatcherTurns
import Winspd.Proofs.DispatcherRequests
import Winspd.Proofs.DispatcherAnswers
import Winspd.Proofs.Enumeration
import Winspd.Proofs.Cdb
import Winspd.Launcher.Volume
import Winspd.Proofs.Pages
import Winspd.Proofs.Capacity
import Winspd.Proofs.Sense
import Winspd.Proofs.Copies
import Winspd.Proofs.Residual
import Winspd.Proofs.Provision
import Winspd.Proofs.IoqAsserts
import Winspd.Launcher.Pipe
import Winspd.Proofs.LaunchCodec
import Winspd.Launcher.Persistent
import Winspd.Proofs.PersistentRecords
import Winspd.Proofs.Serving
import Winspd.Proofs.Transparent
import Winspd.Proofs.Sessions
import Winspd.Lib.Align
import Winspd.Shared.Memalign
import Winspd.Proofs.Memalign
import Winspd.Lib.Mbr
import Winspd.Shared.Mbr
import Winspd.Proofs.PartitionTable
import Winspd.Proofs.InquiryText
import Winspd.Lib.Decimal
import Winspd.Proofs.LaunchReply
import Winspd.Lib.Calls
import Winspd.Proofs.NameList
import Winspd.Launcher.Kill
import Winspd.Proofs.VolumeHandles
import Winspd.Lib.Template
import Winspd.Launcher.CommandLine
import Winspd.Proofs.Substitution
import Winspd.Lib.CommandLine
import Winspd.Proofs.ClientArguments
import Winspd.Shared.PipeUnits
import Winspd.Proofs.PipeUnits
import Winspd.Shellex.Eject
import Winspd.Shellex.Mount
import Winspd.Proofs.Numbers
import Winspd.Proofs.Eject
import Winspd.Proofs.FinalPath
import Winspd.Proofs.Registration
import Winspd.Lib.XorShift
import Winspd.Stgtest.Run
import Winspd.Proofs.StressBuffer
import Winspd.Proofs.StressTest
import Winspd.Scsitool.Scsitext
import Winspd.Lib.Bits
import Winspd.Proofs.ScsiText
import Winspd.Proofs.ScsiFields
import Winspd.Sys.SrbUse
import Winspd.Proofs.QueueUses
import Winspd.Proofs.SrbUse
import Winspd.Proofs.UnitObjects
import Winspd.Rawdisk.Rawdisk
import Winspd.Proofs.RawdiskOperations
import Winspd.Proofs.RawdiskThreads
import Winspd.Proofs.RawdiskRun
import Winspd.Proofs.RawdiskTransfer
import Winspd.Proofs.RawdiskData
import Winspd.Proofs.RawdiskKept
import Winspd.Proofs.RawdiskAlone
import Winspd.Proofs.RawdiskExclusive
import Winspd.Proofs.RawdiskFlush
import Winspd.Proofs.SelfTestTurns
import Winspd.Proofs.SelfTest
import Winspd.Launcher.PipeServer
import Winspd.Proofs.LaunchStages
import Winspd.Proofs.LaunchServer
import Winspd.Proofs.RawdiskLifetimes
import Winspd.Proofs.LaunchCall
