import Sockets.Lib.CString
import Sockets.Lib.Cells
import Sockets.Lib.Noted
import Sockets.Lib.LongestMatch
import Sockets.Lib.Slots
import Sockets.Lib.Machine
import Sockets.Lib.Acyclic
import Sockets.Lib.SortedKeys
import Sockets.Lib.Smoothing
import Sockets.Lib.Codec
import Sockets.Lib.Checksum
import Sockets.Lib.Decimal
import Sockets.Lib.Strtok
import Sockets.Lib.Pipe
import Sockets.Lib.Broadcast
import Sockets.Lib.OpenFiles
import Sockets.Udp.Handshake
import Sockets.Udp.Served
import Sockets.Udp.Congestion
import Sockets.Udp.Timer
import Sockets.Udp.Segment
import Sockets.Udp.Server
import Sockets.Udp.Client
import Sockets.Udp.RecvWindow
import Sockets.Udp.ConsumerRace
import Sockets.Udp.Transfer
import Sockets.Udp.Chunks
import Sockets.Udp.Delivery
import Sockets.Udp.FlowControl
import Sockets.Udp.Refinement
import Sockets.Udp.SendWindow
import Sockets.Udp.FileText
import Sockets.Udp.OldestUnacked
import Sockets.Udp.Batch
import Sockets.Udp.ZeroWindow
import Sockets.Udp.Karn
import Sockets.Udp.Estimator
import Sockets.Udp.Codec
import Sockets.Udp.Subnet
import Sockets.Udp.Interfaces
import Sockets.Odr.Packet
import Sockets.Odr.Node
import Sockets.Odr.Effects
import Sockets.Odr.Network
import Sockets.Odr.Flooding
import Sockets.Odr.BroadcastIds
import Sockets.Odr.HopCount
import Sockets.Odr.ReversePath
import Sockets.Odr.LoopFreedom
import Sockets.Odr.Waiting
import Sockets.Odr.Relay
import Sockets.Odr.ReverseRoute
import Sockets.Odr.Flush
import Sockets.Odr.Swallowed
import Sockets.Odr.Ports
import Sockets.Odr.BufferAccess
import Sockets.Odr.RreqText
import Sockets.Odr.Removal
import Sockets.Odr.LocalMessage
import Sockets.Odr.Origin
import Sockets.Odr.Frame
import Sockets.Arp.Message
import Sockets.Arp.Node
import Sockets.Arp.Connections
import Sockets.Arp.Agreement
import Sockets.Arp.Table
import Sockets.Arp.Lookup
import Sockets.Arp.Refresh
import Sockets.Arp.Wire
import Sockets.Arp.TurnedAway
import Sockets.Ftp.DataStream
import Sockets.Ftp.Files
import Sockets.Ftp.Commands
import Sockets.Ftp.Framing
import Sockets.Ftp.OutOfStep
import Sockets.Ftp.Names
import Sockets.Ftp.Notices
import Sockets.Ftp.Uploads
import Sockets.Ftp.NameLock
import Sockets.Tour.Wire
import Sockets.Tour.Node
import Sockets.Tour.Network
import Sockets.Tour.Itinerary
import Sockets.Tour.Ended
import Sockets.Tour.EarlyEnd
import Sockets.Tour.Arguments
import Sockets.Tour.Ping
import Sockets.Tour.Areq
import Sockets.Tcp.Parent
import Sockets.Tcp.Echo
import Sockets.Tcp.Crash
import Sockets.Tcp.Server
