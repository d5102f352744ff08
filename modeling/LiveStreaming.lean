import LiveStreaming.Library.Buffer
import LiveStreaming.Library.Pool
import LiveStreaming.Streamer.NetUtility
import LiveStreaming.Streamer.ViewerQueue
import LiveStreaming.Streamer.Camera
import LiveStreaming.Streamer.Framing
import LiveStreaming.Library.EarlyExit
import LiveStreaming.Library.Transition
import LiveStreaming.Streamer.SendTags
import LiveStreaming.Streamer.Delivery
import LiveStreaming.HappyHls.Ts
import LiveStreaming.HappyHls.TsMuxer
import LiveStreaming.HappyHls.TsPackets
import LiveStreaming.HappyHls.TsPayload
import LiveStreaming.Streamer.AsyncMailbox
import LiveStreaming.Streamer.HeaderPhase
import LiveStreaming.Streamer.RoseHttp
import LiveStreaming.Streamer.SequenceHeader
import LiveStreaming.Streamer.RequestBounds
import LiveStreaming.HappyHls.TableSpacing
import LiveStreaming.HappyHls.StreamerRequest
import LiveStreaming.Streamer.NotifySlot
import LiveStreaming.Streamer.BackSourceStream
import LiveStreaming.Streamer.BackSourceRuns
import LiveStreaming.XtraRtmp.ShakeHand
import LiveStreaming.XtraRtmp.ConsultServer
import LiveStreaming.SpeechTransfer.Rooms
import LiveStreaming.XtraRtmp.ReceiveStreamRuns
import LiveStreaming.HappyHls.ReceiveStreamRuns
import LiveStreaming.HappyHls.ViewerRequest
import LiveStreaming.Streamer.HostingLimits
import LiveStreaming.WebChat.AcceptKey
import LiveStreaming.WebChat.Broadcast
import LiveStreaming.WebChat.Clients
import LiveStreaming.SpeechTransfer.Membership
import LiveStreaming.Tulip2p.Tulip2pServer
import LiveStreaming.FlvMux.KeyFrames
import LiveStreaming.Streamer.ChannelCopies
import LiveStreaming.Streamer.RequestLine
import LiveStreaming.Streamer.HeaderEnd
import LiveStreaming.HappyHls.RequestArguments
import LiveStreaming.XtraRtmp.AmfRounds
import LiveStreaming.XtraRtmp.ParserBounds
import LiveStreaming.LilyCGI.Ppool
import LiveStreaming.FileLiveServer.LazyMode
import LiveStreaming.Library.JsonString
import LiveStreaming.Library.JsonNumber
import LiveStreaming.Library.Json
import LiveStreaming.Streamer.Parson
import LiveStreaming.Streamer.ChannelSet
import LiveStreaming.Streamer.StateServer
import LiveStreaming.Streamer.SystemReport
import LiveStreaming.HappyHls.Clocks
import LiveStreaming.FlvDemux.AdtsHeaders
import LiveStreaming.XtraRtmp.Workthreads
import LiveStreaming.XtraRtmp.Invoke
import LiveStreaming.XtraRtmp.AmfMessage
import LiveStreaming.HappyHls.FileMuxer
import LiveStreaming.HappyHls.EsQueues
import LiveStreaming.HappyHls.SegmentTimes
import LiveStreaming.FlvMux.Termination
import LiveStreaming.HappyHls.PlaylistWindow
import LiveStreaming.HappyHls.TableChecks
import LiveStreaming.HappyHls.H264Stream
import LiveStreaming.HappyHls.NaluTags
import LiveStreaming.Flv.DemuxH264
import LiveStreaming.FlvDemux.ReadTags
import LiveStreaming.FlvMux.TagTimes
import LiveStreaming.FlvMux.KeyFrameRoom
import LiveStreaming.HappyHls.ParameterSets
import LiveStreaming.HappyHls.ScriptTag
import LiveStreaming.HappyHls.Metadata
import LiveStreaming.Library.ByteReader
import LiveStreaming.Library.Walk
import LiveStreaming.PeonyMediaParser.BoxItems
import LiveStreaming.PeonyMediaParser.Containment
import LiveStreaming.PeonyMediaParser.MoovRecovery
import LiveStreaming.FuckStreamer.LoadGenerator
import LiveStreaming.Library.Heap
import LiveStreaming.SpeechTransfer.FlushRounds
import LiveStreaming.SpeechTransfer.PacketBuffers
import LiveStreaming.SpeechTransfer.SpeechMix
import LiveStreaming.Study.HeapSort
import LiveStreaming.Tulip2p.RequestHeader
import LiveStreaming.WebChat.Base64Decode
import LiveStreaming.WebChat.FrameBounds
import LiveStreaming.SpeechTransfer.RtpRoundTrip
import LiveStreaming.SpeechTransfer.UdpBounds
import LiveStreaming.Library.LinkedBlocks
import LiveStreaming.Library.Ranking
import LiveStreaming.Library.SearchTree
import LiveStreaming.Library.SegmentSum
import LiveStreaming.Study.Bstree
import LiveStreaming.Study.BstreeErase
import LiveStreaming.Study.BstreeShared
import LiveStreaming.Study.ByteMemoryPool
import LiveStreaming.Study.GreatAlgs
import LiveStreaming.Study.MemoryPool
import LiveStreaming.Study.MergeSort
import LiveStreaming.Study.QuickSort
import LiveStreaming.Study.SelectionProblem
import LiveStreaming.Study.ShellSort
import LiveStreaming.WebChat.ServerConfig
import LiveStreaming.Library.BitString
import LiveStreaming.HappyHls.BitStream
import LiveStreaming.HappyHls.Transfers
import LiveStreaming.HappyHls.Config
import LiveStreaming.Library.SlidingWindow
import LiveStreaming.Rudp.Socketnode
import LiveStreaming.Rudp.Rudp
import LiveStreaming.Rudp.Connection
import LiveStreaming.Rudp.Hosts
import LiveStreaming.Rudp.SenderSteps
import LiveStreaming.Rudp.Delivery
import LiveStreaming.Rudp.Network
import LiveStreaming.Rudp.Progress
import LiveStreaming.Library.FirstMatch
import LiveStreaming.Rudp.Vsftp
import LiveStreaming.Rudp.FileTransfer
import LiveStreaming.Library.JsonReread
import LiveStreaming.Streamer.ParsonBuffer
import LiveStreaming.Streamer.ParsonValues
import LiveStreaming.Streamer.ParsonText
import LiveStreaming.Rudp.Event
import LiveStreaming.Study.PlainSorts
import LiveStreaming.Flv.DemuxAac
