import ServiceCache.Templates.Model
import ServiceCache.Templates.Ledger
import ServiceCache.Counting
import ServiceCache.Templates.Steps
import ServiceCache.Templates.Bounds
import ServiceCache.Templates.Bookkeeping
import ServiceCache.Templates.Safety
import ServiceCache.SharedMemory.Memfd
import ServiceCache.SharedMemory.Model
import ServiceCache.SharedMemory.Snapshot
import ServiceCache.SharedMemory.Records
import ServiceCache.SharedMemory.Coherence
import ServiceCache.SharedMemory.Runs
import ServiceCache.SharedMemory.Replace
import ServiceCache.SharedMemory.Generations
import ServiceCache.SharedMemory.Isolation
import ServiceCache.SharedMemory.Clones
import ServiceCache.Suspend.Model
import ServiceCache.Suspend.Steps
import ServiceCache.Suspend.Book
import ServiceCache.Suspend.Phases
import ServiceCache.Suspend.Drain
import ServiceCache.Suspend.Revival
import ServiceCache.Futex.Model
import ServiceCache.Futex.Steps
import ServiceCache.Futex.WakeAll
import ServiceCache.Futex.Counted
import ServiceCache.Epoll.Model
import ServiceCache.Epoll.Steps
import ServiceCache.Epoll.Watch
import ServiceCache.Interrupt.Model
import ServiceCache.Interrupt.Steps
import ServiceCache.Interrupt.Heard
import ServiceCache.Interrupt.Wakes
import ServiceCache.Deadline.Kept
import ServiceCache.Channel.Model
import ServiceCache.Channel.RoundTrip
import ServiceCache.Serve.Lease
import ServiceCache.Serve.Socket
import ServiceCache.Control.Host
import ServiceCache.Control.Phases
import ServiceCache.Control.Turns
import ServiceCache.Control.Links
import ServiceCache.Control.Pairing
import ServiceCache.Control.Replies
import ServiceCache.Owner.Model
import ServiceCache.Owner.Children
import ServiceCache.Owner.Handles
import ServiceCache.Owner.Disposal
import ServiceCache.Templates.SingleFlight
import ServiceCache.Fairness
import ServiceCache.Templates.Attended
import ServiceCache.Templates.Answered
import ServiceCache.Templates.Retry
import ServiceCache.Connections
import ServiceCache.EventPipe
import ServiceCache.Foreground.Model
import ServiceCache.Foreground.Tracked
import ServiceCache.HostTasks
import ServiceCache.Selector
import ServiceCache.Serve.Recipes
import ServiceCache.Signals
import ServiceCache.Foreground.Ends
import ServiceCache.ModuleCache.Loads
import ServiceCache.SharedMemory.Bounds
import ServiceCache.SharedMemory.Overlays
import ServiceCache.Freeze.Compaction
import ServiceCache.Freeze.Extents
import ServiceCache.Freeze.Released
import ServiceCache.BinFactory
import ServiceCache.FdRead
import ServiceCache.Poll.Model
import ServiceCache.Poll.Probe
import ServiceCache.Poll.Clocks
import ServiceCache.Epoll.Direct
import ServiceCache.Epoll.Settle
import ServiceCache.Epoll.Starve
import ServiceCache.PollFd.Model
import ServiceCache.PollFd.Registered
import ServiceCache.PollFd.Turns
import ServiceCache.PollFd.Heard
import ServiceCache.ByteString
import ServiceCache.Paths
import ServiceCache.Fallible
import ServiceCache.Package.Manifest
import ServiceCache.Package.Discovery
import ServiceCache.Serve.RecipeFiles
import ServiceCache.Package.Mounts
import ServiceCache.Hold
import ServiceCache.SharedMemory.Transfers
import ServiceCache.SharedMemory.FutexOwner
import ServiceCache.InterestWakers
import ServiceCache.AtomicWait
import ServiceCache.Files.CreateRace
import ServiceCache.Files.Inodes
import ServiceCache.ThreadPark
import ServiceCache.Imports
import ServiceCache.Freeze.Unseen
import ServiceCache.Networking
