import SlimStreamer.Lib.Execution
import SlimStreamer.Lib.Blocks
import SlimStreamer.Lib.Octets
import SlimStreamer.Lib.SequencedBroadcast
import SlimStreamer.Lib.ClockEstimate
import SlimStreamer.Lib.Mealy
import SlimStreamer.Lib.SerialBlocks
import SlimStreamer.Util.Ring
import SlimStreamer.Util.StateMachine
import SlimStreamer.Util.Timestamp
import SlimStreamer.Util.BufferPool
import SlimStreamer.Util.RealTimeQueue
import SlimStreamer.Chunk
import SlimStreamer.Alsa.Source
import SlimStreamer.Alsa.Capture
import SlimStreamer.Multiplexor
import SlimStreamer.StreamSerialisation
import SlimStreamer.Proto.InboundCommand
import SlimStreamer.Proto.OutboundCommand
import SlimStreamer.Proto.CommandSession
import SlimStreamer.Proto.ClientMessage
import SlimStreamer.Proto.CommandRequest
import SlimStreamer.Proto.Streamer
import SlimStreamer.Proto.StreamerSystem
import SlimStreamer.Proto.StreamDraining
import SlimStreamer.Proto.ChunkConsumption
import SlimStreamer.Proto.ChunkDelivery
import SlimStreamer.Proto.StreamingSession
import SlimStreamer.Proto.StreamTransfer
import SlimStreamer.Proto.ChunkEnqueueing
import SlimStreamer.Proto.GracefulStop
import SlimStreamer.Proto.LatencyMeasurement
import SlimStreamer.Proto.SentCommands
import SlimStreamer.Proto.PlaybackSync
import SlimStreamer.Util.ConcurrentQueue
import SlimStreamer.Proto.Resynchronisation
import SlimStreamer.Proto.SessionRuns
import SlimStreamer.Proto.StreamReference
import SlimStreamer.Proto.HandshakeOrder
import SlimStreamer.Lib.History
import SlimStreamer.Proto.CommandTrace
import SlimStreamer.Proto.ServerMessage
import SlimStreamer.Conn.TcpServer
import SlimStreamer.Proto.EventLoop
import SlimStreamer.Proto.EventLoopRuns
import SlimStreamer.Proto.ConnectionLifetime
import SlimStreamer.Proto.SessionLifetime
import SlimStreamer.Proto.EventLoopServer
import SlimStreamer.Proto.PingChain
import SlimStreamer.Proto.ProbeRounds
import SlimStreamer.Proto.ProbeGrowth
import SlimStreamer.Proto.ProbeAccess
import SlimStreamer.Proto.MessageBoundary
import SlimStreamer.Proto.ReportArithmetic
import SlimStreamer.Proto.ReceiveLedger
import SlimStreamer.FileConsumer
import SlimStreamer.Demultiplexor
import SlimStreamer.Lib.HandlerQueue
import SlimStreamer.Container
import SlimStreamer.Proto.StreamCorrelation
import SlimStreamer.Lib.Median
import SlimStreamer.Proto.MeanProbe
import SlimStreamer.Util.RingQueue
import SlimStreamer.Lib.HexText
import SlimStreamer.Util.HexDump
import SlimStreamer.Lib.OwnerTable
import SlimStreamer.Util.PoolOwnership
import SlimStreamer.Flac.Encoder
import SlimStreamer.Alsa.MarkerTracking
import SlimStreamer.Lib.DoWhile
import SlimStreamer.Proto.ParsingBounds
import SlimStreamer.Proto.ProbeInterference
import SlimStreamer.Lib.WrappingClock
import SlimStreamer.Proto.ClockWrap
import SlimStreamer.Lib.RoundRobin
import SlimStreamer.TurnTaking
import SlimStreamer.Proto.ChunkCalls
import SlimStreamer.Application
import SlimStreamer.Scheduling
import SlimStreamer.Alsa.ProducerThread
import SlimStreamer.Alsa.StartStop
import SlimStreamer.Proto.StreamIntegrity
import SlimStreamer.Proto.ServedStreams
import SlimStreamer.Playback
import SlimStreamer.Proto.HeardStream
import SlimStreamer.PlaybackIntegrity
import SlimStreamer.FreeBuffers
import SlimStreamer.Proto.CommandLoop
import SlimStreamer.Proto.PingLifetime
import SlimStreamer.Conn.UdpServer
