import Fino.Workflow.SignalQueue
import Fino.Workflow.StateBag
import Fino.Workflow.Records
import Fino.Workflow.Deadlines
import Fino.Workflow.Terminal
import Fino.Jobs.Ownership
import Fino.Jobs.Wakeup
import Fino.Jobs.Recovery
import Fino.Jobs.Attempts
import Fino.Jobs.Capacity
import Fino.Jobs.Firing
import Fino.Cluster.Membership
import Fino.Cluster.Consistency
import Fino.Cluster.Ordering
import Fino.Cluster.StreamFrame
import Fino.Cluster.Orphans
import Fino.Protobuf.Merge
import Fino.Cluster.CodecRoundTrip
import Fino.Parquet.Shredding
import Fino.Parquet.SchemaRoundTrip
import Fino.Thrift.Skip
import Fino.Thrift.Transcode
import Fino.FlatBuffers.RoundTrip
import Fino.WebSocket.Receive
import Fino.WebSocket.Connection
import Fino.Http1.Pipelining
import Fino.Http2.Goaway
import Fino.Database.Migrate
import Fino.Ai.ToolApproval
import Fino.Database.Postgres
import Fino.Net.Nsec
import Fino.Data.Messages
import Fino.Data.SlabRing
import Fino.Stream.SplitLines
