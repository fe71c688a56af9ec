import NixieVfdCentral.Foundations.Runs
import NixieVfdCentral.Foundations.Framing
import NixieVfdCentral.Foundations.Buffers
import NixieVfdCentral.Foundations.Histories
import NixieVfdCentral.Foundations.CheckedAccess
import NixieVfdCentral.Foundations.SharedLogs
import NixieVfdCentral.Foundations.BoundedStreams
import NixieVfdCentral.Foundations.DnsMessages
import NixieVfdCentral.Foundations.EventGroup
import NixieVfdCentral.Foundations.TopicFilter
import NixieVfdCentral.Foundations.InPlace
import NixieVfdCentral.Foundations.JsonText
import NixieVfdCentral.Foundations.Memory
import NixieVfdCentral.Uart.Protocol
import NixieVfdCentral.Uart.PacketProcessor
import NixieVfdCentral.Uart.WindowSemantics
import NixieVfdCentral.Uart.ExtractSemantics
import NixieVfdCentral.Uart.Packets
import NixieVfdCentral.Uart.Receiver
import NixieVfdCentral.Uart.CheckedParser
import NixieVfdCentral.Uart.PendingTail
import NixieVfdCentral.Uart.ReferenceScanner
import NixieVfdCentral.Uart.WaitingFrames
import NixieVfdCentral.Uart.OversizedHeader
import NixieVfdCentral.Uart.Completion
import NixieVfdCentral.Uart.Recovery
import NixieVfdCentral.Uart.ReceivePath
import NixieVfdCentral.Uart.ValidTraffic
import NixieVfdCentral.Uart.RoundTrip
import NixieVfdCentral.Uart.Starvation
import NixieVfdCentral.Uart.UartEvents
import NixieVfdCentral.Uart.EventAccounting
import NixieVfdCentral.Central.Messages
import NixieVfdCentral.Central.Decoding
import NixieVfdCentral.Central.PartialWrites
import NixieVfdCentral.Central.Fragments
import NixieVfdCentral.Central.Subscription
import NixieVfdCentral.Central.Tasks
import NixieVfdCentral.Central.WireFrames
import NixieVfdCentral.Central.Agreement
import NixieVfdCentral.Central.TimeRequests
import NixieVfdCentral.Central.CountdownAlignment
import NixieVfdCentral.Central.Transmission
import NixieVfdCentral.Central.Delivery
import NixieVfdCentral.Central.ReceiveChain
import NixieVfdCentral.Central.Application
import NixieVfdCentral.Wifi.SyncEvents
import NixieVfdCentral.Wifi.StatusLed
import NixieVfdCentral.Wifi.Gate
import NixieVfdCentral.Wifi.StartUp
import NixieVfdCentral.WifiManager.Task
import NixieVfdCentral.WifiManager.Reports
import NixieVfdCentral.WifiManager.PowerCycles
import NixieVfdCentral.WifiManager.Reconnect
import NixieVfdCentral.WifiManager.SoftAp
import NixieVfdCentral.WifiManager.Station
import NixieVfdCentral.WifiManager.AccessPoints
import NixieVfdCentral.WifiManager.Json
import NixieVfdCentral.WifiManager.Documents
import NixieVfdCentral.WifiManager.Status
import NixieVfdCentral.WifiManager.DnsServer
import NixieVfdCentral.WifiManager.Flash
import NixieVfdCentral.WifiManager.StatusPage
