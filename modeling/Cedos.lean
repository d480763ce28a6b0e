import Cedos.Lib.CInt
import Cedos.Lib.Bytes
import Cedos.Lib.Intervals
import Cedos.Dtp.Header
import Cedos.Dtp.Context
import Cedos.Dtp.Send
import Cedos.Dtp.Close
import Cedos.Dtp.Receive
import Cedos.Dtp.Socket
import Cedos.Dtp.Reassembly
import Cedos.Dtp.Ack
import Cedos.Dtp.Timer
import Cedos.Dtp.Challenge
import Cedos.Dtp.Event
import Cedos.Lib.Tiling
import Cedos.Dtp.Handshake
import Cedos.Dtp.Packet
import Cedos.Dtp.Endpoint
import Cedos.Dtp.SendOrder
import Cedos.Dtp.CloseOrder
import Cedos.Dtp.SendIntegrity
import Cedos.Dtp.SendProgress
import Cedos.Dtp.AckFrames
import Cedos.Dtp.AckSound
import Cedos.Dtp.Onward
import Cedos.Dtp.Parties
import Cedos.Lib.Tlv
import Cedos.Dtp.Options
import Cedos.Dtp.Agreement
import Cedos.Dtp.KeyAgreement
import Cedos.Dtp.RepeatedSyn
import Cedos.Dtp.ScaleAgreement
import Cedos.Dtp.Sockopt
import Cedos.Dtp.Dispatch
import Cedos.Dtp.StateOrder
import Cedos.Dtp.ForeignAddress
import Cedos.Dtp.Batch
import Cedos.Dtp.ReceiveBounds
import Cedos.Dtp.Flush
import Cedos.Dtp.FinAfterData
import Cedos.Dtp.FlowControl
import Cedos.Dtp.CloseComplete
import Cedos.Dtp.ChallengeBinding
import Cedos.Dtp.Accept
import Cedos.Dtp.RetransQueue
import Cedos.Dtp.Select
import Cedos.Dtp.SelectWake
import Cedos.Dtp.AckEffect
import Cedos.Dtp.InFlight
import Cedos.Dtp.UnsentAck
import Cedos.Dtp.Duplex
import Cedos.Dtp.RawHeader
import Cedos.Dtp.FlowIDMap
import Cedos.Lib.Search
import Cedos.ReadyCast.Flow
import Cedos.ReadyCast.Response
import Cedos.ReadyCast.Download
import Cedos.ReadyCast.Resume
import Cedos.Lib.Json
import Cedos.ReadyCast.Fields
import Cedos.ReadyCast.Tags
import Cedos.ReadyCast.Feeds
import Cedos.ReadyCast.Rss
import Cedos.ReadyCast.Refresh
import Cedos.ReadyCast.FileNames
import Cedos.Dtp.Mobile
import Cedos.Dtp.AdvertisedWindow
import Cedos.Dtp.CongestionWindow
import Cedos.Dtp.FailedSend
import Cedos.Dtp.ZeroWindow
import Cedos.Dtp.Lifetime
import Cedos.Dtp.FinFlag
import Cedos.Dtp.PersistTimer
import Cedos.Dtp.EarliestDeadline
import Cedos.Dtp.TimerPass
import Cedos.Dtp.OwnFin
import Cedos.Dtp.OptionReads
import Cedos.Dtp.KeyPayload
import Cedos.Dtp.FlowCollision
import Cedos.Dtp.SockoptFailure
import Cedos.Dtp.Resize
import Cedos.Dtp.BufferNodes
import Cedos.Dtp.NodeConservation
import Cedos.Dtp.PacketConservation
import Cedos.Dtp.Poll
import Cedos.Dtp.SendLoop
import Cedos.Dtp.BlockRemain
import Cedos.ReadyCast.Wakeup
import Cedos.Dtp.QueueCut
import Cedos.Dtp.NewBytes
import Cedos.Proxy.Sendfile
