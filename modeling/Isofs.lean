import Isofs.Library.TwosComplement
import Isofs.Library.Memory
import Isofs.Library.Leftover
import Isofs.Library.Components
import Isofs.Library.Procedure
import Isofs.Library.Loop
import Isofs.Library.Heap
import Isofs.Library.LinkedList
import Isofs.Library.OutBuf
import Isofs.Library.Transition
import Isofs.Library.LockTrace
import Isofs.Library.FileSystem
import Isofs.Library.Blocks
import Isofs.Library.Cursor
import Isofs.Interface.ApiRet
import Isofs.Interface.Request
import Isofs.Volume.Image
import Isofs.Volume.Data
import Isofs.Directory.Entries
import Isofs.Directory.Decoding
import Isofs.Directory.Sectors
import Isofs.Directory.Soundness
import Isofs.Directory.JolietNames
import Isofs.Directory.Encoding
import Isofs.Path.Resolve
import Isofs.Path.Agreement
import Isofs.Path.Prefixes
import Isofs.File.Read
import Isofs.File.Seek
import Isofs.File.ReadArray
import Isofs.File.Addressing
import Isofs.File.Truncated
import Isofs.File.Stored
import Isofs.Stub.Exchange
import Isofs.Stub.Eaop
import Isofs.Stub.EntryPoints
import Isofs.Stub.LockRules
import Isofs.Stub.Prepared
import Isofs.Stub.LockDiscipline
import Isofs.Stub.Frames
import Isofs.Stub.HandOver
import Isofs.Stub.FindOutcome
import Isofs.Stub.Calls
import Isofs.Stub.Exclusion
import Isofs.Stub.PageLocks
import Isofs.Stub.EaopTransfers
import Isofs.Stub.FindBuffers
import Isofs.Volume.Attach
import Isofs.Volume.ScanTermination
import Isofs.Volume.Mount
import Isofs.Volume.MountFailures
import Isofs.Disc.Stored
import Isofs.Disc.Writer
import Isofs.Stub.Protocol
import Isofs.Stub.ReplyMatching
import Isofs.Stub.DaemonStop
import Isofs.Info.Eas
import Isofs.Info.FileInfo
import Isofs.Find.Names
import Isofs.Find.Wildcards
import Isofs.Find.DosNames
import Isofs.Find.ExactName
import Isofs.Find.Search
import Isofs.Find.Split
import Isofs.Daemon.State
import Isofs.Daemon.Walks
import Isofs.Daemon.Handlers
import Isofs.Daemon.Searches
import Isofs.Daemon.Effects
import Isofs.Daemon.FileEffects
import Isofs.Daemon.SearchEffects
import Isofs.Daemon.Ledger
import Isofs.Daemon.Bookkeeping
import Isofs.Daemon.Answers
import Isofs.Daemon.Lifetimes
import Isofs.Daemon.Counters
import Isofs.Daemon.Mounts
import Isofs.Daemon.Listings
import Isofs.Daemon.Opens
import Isofs.Find.Delivery
import Isofs.Info.Written
import Isofs.Find.Batch
import Isofs.Find.Records
import Isofs.Find.GeaLists
import Isofs.Find.First
import Isofs.Find.Positions
import Isofs.Stub.Connection
import Isofs.Stub.OpenHandles
import Isofs.Stub.Validation
import Isofs.Control.Params
import Isofs.Daemon.Requests
import Isofs.Daemon.OpenFiles
import Isofs.Daemon.ReadOnly
import Isofs.Daemon.Sessions
import Isofs.Disc.Access
import Isofs.Disc.Mounting
import Isofs.Disc.Search
import Isofs.Stub.Sessions
import Isofs.Stub.SequentialRuns
import Isofs.Stub.Attach
import Isofs.Stub.SharedUse
import Isofs.Disc.Driver
import Isofs.Disc.ProgramCalls
import Isofs.Disc.Programs
import Isofs.Stub.Init
import Isofs.Daemon.Replies
import Isofs.Info.Replies
import Isofs.Find.Replies
import Isofs.Stub.GivenBack
import Isofs.Stub.Leftovers
