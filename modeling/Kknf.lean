import Kknf.Lib.Run
import Kknf.Lib.Placement
import Kknf.Lib.StdMap
import Kknf.Lib.StdString
import Kknf.Lib.OrdMap
import Kknf.Lib.Queues
import Kknf.Lib.Bytes
import Kknf.Lib.Buffer
import Kknf.Lib.Words
import Kknf.Lib.LineStream
import Kknf.Lib.Lease
import Kknf.Lib.Network
import Kknf.Lib.Posix
import Kknf.Lib.PriorityQueue
import Kknf.Lib.Linked
import Kknf.Lib.Loop
import Kknf.Asio.ConnectionPool
import Kknf.Asio2.Skeleton
import Kknf.Asio2.Requests
import Kknf.Asio2.UDP
import Kknf.Asio2.View
import Kknf.Asio2.Handlers
import Kknf.Asio2.Sees
import Kknf.Asio2.Kinds
import Kknf.Asio2.Listening
import Kknf.Asio2.Exclusive
import Kknf.Asio2.Pool
import Kknf.Asio2.ServerMap
import Kknf.Asio2.Release
import Kknf.Asio2.Routing
import Kknf.Asio2.ParallelRequests
import Kknf.Asio2.Tape
import Kknf.Asio2.LVFraming
import Kknf.Asio2.HTTPFraming
import Kknf.Asio2.LengthGuard
import Kknf.Asio2.SyncPaths
import Kknf.Asio2.BodyRead
import Kknf.Asio2.TestPackets
import Kknf.Asio2.TestGateway
import Kknf.Asio2.TestGatewayRuns
import Kknf.Asio2.HTTPGateway
import Kknf.Asio2.UDPServing
import Kknf.AllSync.Server
import Kknf.AllSync.Ownership
import Kknf.AllSync.Listeners
import Kknf.AllSync.WakeUp
import Kknf.AllSync.Drain
import Kknf.AllSync.HandBack
import Kknf.AllSync.SocketIO
import Kknf.AllSync.Transient
import Kknf.AllSync.Client
import Kknf.AllSync.WaitToRead
import Kknf.AllSync.Timer
import Kknf.AllSync.Packets
import Kknf.AllSync.Serving
import Kknf.AllSync.Processors
import Kknf.AllSync.Gateway
import Kknf.AllSync.GatewayRuns
import Kknf.AllSync.Datagrams
import Kknf.AllSync.Lines
import Kknf.LibEvent.MemPool
import Kknf.LibEvent.Carving
import Kknf.LibEvent.Growth
import Kknf.LibEvent.TcpSocket
import Kknf.LibEvent.BinTcpSocket
import Kknf.LibEvent.LineTcpSocket
import Kknf.LibEvent.NetFrame
import Kknf.LibEvent.SocketPool
import Kknf.LibEvent.RecvQueues
import Kknf.LibEvent.AdminCommands
import Kknf.CppNf.MemPool
import Kknf.CppNf.AsyncTcpSocket
import Kknf.CppNf.CloseAfterSend
import Kknf.CppNf.LVSocket
import Kknf.CppNf.EventEngine
import Kknf.Nf.TcpSocket
import Kknf.CNf.Hash
import Kknf.CNf.IdleSockets
import Kknf.CNf.ServerList
import Kknf.CNf.Process
import Kknf.Zxbnf.SendList
