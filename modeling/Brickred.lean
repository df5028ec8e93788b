import Brickred.Timestamp.Arithmetic
import Brickred.TimerHeap.Schedule
import Brickred.TimerHeap.Operations
import Brickred.TimerHeap.Order
import Brickred.TimerHeap.Termination
import Brickred.DynamicBuffer.Queue
import Brickred.DynamicBuffer.Reserve
import Brickred.WebSocket.Delivery
import Brickred.WebSocket.Send
import Brickred.WebSocket.Soundness
import Brickred.TcpService.Completion
import Brickred.TcpService.Interest
import Brickred.Http.Decoding
import Brickred.Http.Framing
import Brickred.WebSocket.Agreement
import Brickred.Codec.Digest
import Brickred.Codec.Base64RoundTrip
import Brickred.Codec.Url
import Brickred.MessageQueue
import Brickred.LogAsyncSink.Delivery
import Brickred.TimerHeap.Deadlines
import Brickred.IOService.Poll
import Brickred.CommandLineOption.Attached
import Brickred.LogCore
import Brickred.TcpService.Receive
import Brickred.TcpService.Creation
import Brickred.TcpService.Order
import Brickred.TcpService.Closing
import Brickred.Http.Verbatim
import Brickred.Http.Impl
import Brickred.WebSocket.Lengths
import Brickred.WebSocket.Incomplete
import Brickred.WebSocket.Accept
import Brickred.Codec.Base64Decode
import Brickred.LogCore.Truncation
import Brickred.LogFileSink
import Brickred.StringUtil.Replace
import Brickred.Random
import Brickred.SocketAddress.Coherence
import Brickred.SocketAddress.Conversion
import Brickred.SelfPipe
import Brickred.Thread.Destruction
import Brickred.Http.Headers
import Brickred.Random.Calls
import Brickred.SignalQueue
import Brickred.Programs.Echo
import Brickred.Programs.HttpServer
import Brickred.Programs.WsRoundTrip
import Brickred.Lib.Ledger
import Brickred.Lib.Odometer
import Brickred.Programs.PortScan.Addresses
import Brickred.Programs.PortScan.Scan
