import SocksProxy.AcceptLoop
import SocksProxy.Address
import SocksProxy.AddressRecord
import SocksProxy.Authenticator
import SocksProxy.Codes
import SocksProxy.CommandLine
import SocksProxy.Configuration
import SocksProxy.Connection
import SocksProxy.Description
import SocksProxy.Failure
import SocksProxy.HostPort
import SocksProxy.Invisible
import SocksProxy.Ipv4
import SocksProxy.Ipv6
import SocksProxy.Ipv6Reading
import SocksProxy.Keepalive
import SocksProxy.Listening
import SocksProxy.Main
import SocksProxy.MemoryConnection
import SocksProxy.MemoryStream
import SocksProxy.Network
import SocksProxy.NetworkRelay
import SocksProxy.OctetStream
import SocksProxy.Program
import SocksProxy.QuotedText
import SocksProxy.Relay
import SocksProxy.RelayRun
import SocksProxy.Replies
import SocksProxy.Requests
import SocksProxy.Resolution
import SocksProxy.ServeCycles
import SocksProxy.ServerRun
import SocksProxy.Session
import SocksProxy.SessionRun
import SocksProxy.SessionTask
import SocksProxy.SocketAddress
import SocksProxy.Text
import SocksProxy.Utf8
import SocksProxy.Utf8Decoding
import SocksProxy.Word
import SocksProxy.Proofs.Actions
import SocksProxy.Proofs.Transcript
import SocksProxy.Proofs.ExactTransfers
import SocksProxy.Proofs.Messages
import SocksProxy.Proofs.SentReplies
import SocksProxy.Proofs.Dialogues
import SocksProxy.Proofs.Stages
import SocksProxy.Proofs.Sessions
import SocksProxy.Proofs.Admission
import SocksProxy.Proofs.AddressTexts
import SocksProxy.Proofs.RelayIntegrity
import SocksProxy.Proofs.OwedReplies
import SocksProxy.Proofs.Tunnels
import SocksProxy.Proofs.RelayEndings
import SocksProxy.Proofs.AcceptPolls
import SocksProxy.Proofs.CycleOrder
import SocksProxy.Proofs.SessionListeners
import SocksProxy.Proofs.AcceptedConnections
import SocksProxy.Proofs.ClientInput
import SocksProxy.Proofs.ParsedMessages
import SocksProxy.Proofs.InputTranscripts
import SocksProxy.Proofs.RefusedClients
import SocksProxy.Proofs.JoinedTexts
import SocksProxy.Proofs.AddressRoundTrips
import SocksProxy.Proofs.Circumstances
import SocksProxy.Proofs.Deliveries
import SocksProxy.Proofs.DeliveredSessions
import SocksProxy.Proofs.DialledTargets
import SocksProxy.Proofs.ReportedAddresses
import SocksProxy.Proofs.Conduct
import SocksProxy.Proofs.StageOrder
import SocksProxy.Proofs.SocketCustody
import SocksProxy.Proofs.BindSequence
import SocksProxy.Proofs.RelayShutdowns
import SocksProxy.Proofs.ClosedConnections
import SocksProxy.Proofs.ScratchBuffers
import SocksProxy.Proofs.TakenInput
import SocksProxy.Proofs.AddressDecoders
import SocksProxy.Proofs.ExactReaders
import SocksProxy.Proofs.DecodedBuffers
import SocksProxy.Proofs.WrittenAddresses
import SocksProxy.Proofs.DelimitedReplies
import SocksProxy.Proofs.UndividedReplies
import SocksProxy.Proofs.PasswordVerdicts
import SocksProxy.Proofs.BoundAddresses
import SocksProxy.Proofs.AcceptWaits
import SocksProxy.Proofs.DividedTexts
import SocksProxy.Proofs.BufferedPrograms
import SocksProxy.Proofs.BufferedMessages
import SocksProxy.Proofs.BufferedSessions
