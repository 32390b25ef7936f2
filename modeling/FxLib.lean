import FxLib.Chat.ChatGroup
import FxLib.Chat.ChatPlayerManager
import FxLib.Chat.Dispatch
import FxLib.Chat.GameSessions
import FxLib.Chat.GroupFanOut
import FxLib.Chat.GroupInvite
import FxLib.Chat.GroupMembers
import FxLib.Chat.HashIndex
import FxLib.Chat.LoginHandOff
import FxLib.Chat.LoginOrder
import FxLib.Chat.PrivateChat
import FxLib.Chat.QueryText
import FxLib.Chat.Registration
import FxLib.Chat.Routing
import FxLib.Database.DBClient
import FxLib.Database.DBModule
import FxLib.Database.DBPipeline
import FxLib.Database.DBReader
import FxLib.FxNet.ClientChannel
import FxLib.FxNet.DataBuffer
import FxLib.FxNet.FxTcpClientSocket
import FxLib.FxNet.NetStream
import FxLib.FxNet.RecvPipeline
import FxLib.FxNet.TcpSend
import FxLib.Lib.Blocks
import FxLib.Lib.ByteOrder
import FxLib.Lib.Channel
import FxLib.Lib.Codec
import FxLib.Lib.Custody
import FxLib.Lib.FreeList
import FxLib.Lib.Grid
import FxLib.Lib.Lifecycle
import FxLib.Lib.MachineInt
import FxLib.Lib.MarkedFifo
import FxLib.Lib.Memory
import FxLib.Lib.Multimap
import FxLib.Lib.OrderedMap
import FxLib.Lib.Period
import FxLib.Lib.Replica
import FxLib.Lib.SecureHash
import FxLib.Lib.SqlText
import FxLib.Lib.Text
import FxLib.Lib.Transition
import FxLib.Lib.Utf16
import FxLib.Lib.While
import FxLib.Meta.Base64
import FxLib.Meta.ChatDefine
import FxLib.Meta.DynamicPoolEx
import FxLib.Meta.DynamicPoolThreads
import FxLib.Meta.FxTimer
import FxLib.Meta.LimiterQueue
import FxLib.Meta.NetStream
import FxLib.Meta.ReadString
import FxLib.Meta.SHA1
import FxLib.Meta.ShareMemMap
import FxLib.Net.Connection
import FxLib.Net.DataHeader
import FxLib.Net.EventLoop
import FxLib.Net.EventQueue
import FxLib.Net.FrameLoop
import FxLib.Net.Framing
import FxLib.Net.HostileSockets
import FxLib.Net.HostileStream
import FxLib.Net.HttpConnect
import FxLib.Net.HttpRequest
import FxLib.Net.LoopBuff
import FxLib.Net.LoopBuffRefinement
import FxLib.Net.LoopBuffSpec
import FxLib.Net.NetEvent
import FxLib.Net.OnRecv
import FxLib.Net.RecvScan
import FxLib.Net.RecvSock
import FxLib.Net.ResponseKey
import FxLib.Net.SendBound
import FxLib.Net.SendHeader
import FxLib.Net.SendPipeline
import FxLib.Net.SlidingWindow
import FxLib.Net.TcpChannel
import FxLib.Net.TcpFraming
import FxLib.Net.UDPAccept
import FxLib.Net.UDPCongestion
import FxLib.Net.UDPConnectSock
import FxLib.Net.UDPDelivery
import FxLib.Net.UDPFraming
import FxLib.Net.UDPHandShake
import FxLib.Net.UDPOpening
import FxLib.Net.UDPPartition
import FxLib.Net.UDPSameAck
import FxLib.Net.UDPSteps
import FxLib.Net.UDPStray
import FxLib.Net.UDPWindows
import FxLib.Net.WebSocketAccept
import FxLib.Net.WebSocketFrame
import FxLib.Net.WebSocketFraming
import FxLib.Net.WebSocketHandShake
import FxLib.Net.WindowBuffers
import FxLib.Redis.RedisConnection
import FxLib.Redis.RedisQuery
import FxLib.WebGame.GameDefine
import FxLib.WebGame.GameStart
import FxLib.WebGame.Invitation
import FxLib.WebGame.Membership
import FxLib.WebGame.Observers
import FxLib.WebGame.OwnerPrediction
import FxLib.WebGame.Player
import FxLib.WebGame.PlayerBinding
import FxLib.WebGame.PlayerLogins
import FxLib.WebGame.SceneCountdown
import FxLib.WebGame.ScenePhases
import FxLib.WebGame.ServerDiscovery
import FxLib.WebGame.SessionRegistry
import FxLib.WebGame.Snapshot
import FxLib.WebGame.Team
import FxLib.WebGame.TeamLeader
import FxLib.WebGame.TeamSlots
import FxLib.WebGame.Teams
import FxLib.WebGame.TetrisBase
import FxLib.WebGame.TetrisCells
import FxLib.WebGame.TetrisData
import FxLib.WebGame.TetrisPool
import FxLib.WebGame.TetrisRules
