import LogBridge.Basic
import LogBridge.Library.BigEndian
import LogBridge.Library.Segment
import LogBridge.Library.Runs
import LogBridge.Library.Simulation
import LogBridge.Library.Progress
import LogBridge.Library.Lines
import LogBridge.Library.Watermark
import LogBridge.Library.BoundedFifo
import LogBridge.Library.Descriptors
import LogBridge.Protocol.Fields
import LogBridge.Protocol.Frames
import LogBridge.Protocol.RoundTrip
import LogBridge.Protocol.Bounds
import LogBridge.Storage
import LogBridge.Persistence.Atomic
import LogBridge.Persistence.Append
import LogBridge.Persistence.Leaves
import LogBridge.WriteAheadLog.Model
import LogBridge.WriteAheadLog.Recovery
import LogBridge.WriteAheadLog.Refinement
import LogBridge.WriteAheadLog.Scan
import LogBridge.WriteAheadLog.Failures
import LogBridge.DedupStore.Model
import LogBridge.DedupStore.Persistence
import LogBridge.DedupStore.Reopen
import LogBridge.DedupStore.Failures
import LogBridge.DedupStore.Durability
import LogBridge.ClientState.Model
import LogBridge.ClientState.Persistence
import LogBridge.ClientState.Numbers
import LogBridge.ClientState.RoundTrip
import LogBridge.ClientState.Durability
import LogBridge.FileTailReader.Model
import LogBridge.FileTailReader.Tracking
import LogBridge.FileTailReader.Stretches
import LogBridge.FileTailReader.Restart
import LogBridge.FileTailReader.Rotation
import LogBridge.FileTailReader.Succession
import LogBridge.BoundedBlockingQueue.Model
import LogBridge.BoundedBlockingQueue.Turns
import LogBridge.BoundedBlockingQueue.Safety
import LogBridge.BoundedBlockingQueue.Wakeup
import LogBridge.BoundedBlockingQueue.Closing
import LogBridge.Net.Socket
import LogBridge.Net.Transport
import LogBridge.TcpServer.Model
import LogBridge.TcpServer.Ownership
import LogBridge.TcpServer.Stopping
import LogBridge.TcpServer.Ending
import LogBridge.Server.Batch
import LogBridge.Server.Connection
import LogBridge.Server.Deduplication
import LogBridge.Client.Model
import LogBridge.Client.Steps
import LogBridge.Client.Identity
import LogBridge.Client.Collection
import LogBridge.Client.ExactlyOnce
import LogBridge.Client.Pipeline
import LogBridge.Client.Batches
import LogBridge.Client.Shutdown
import LogBridge.Client.Reopening
import LogBridge.TcpClient.Model
import LogBridge.TcpClient.Retry
import LogBridge.System.Model
import LogBridge.System.Delivery
import LogBridge.System.Streams
import LogBridge.System.StopAndWait
import LogBridge.System.Refinement
import LogBridge.System.StreamDelivery
import LogBridge.System.Draining
import LogBridge.System.Fleet
import LogBridge.Client.Failures
import LogBridge.Server.Failures
import LogBridge.System.Failures
import LogBridge.System.Survival
import LogBridge.System.AtLeastOnce
import LogBridge.TcpClient.Refinement
