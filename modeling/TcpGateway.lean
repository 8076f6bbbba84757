import TcpGateway.Buffer.Waiting
import TcpGateway.Connection.Run
import TcpGateway.Error
import TcpGateway.Gateway
import TcpGateway.Proofs.Coherence
import TcpGateway.Proofs.Coverage
import TcpGateway.Proofs.FlowControl
import TcpGateway.Proofs.Window
import TcpGateway.Segment.Decoding
import TcpGateway.Segment.Encoding
import TcpGateway.Settings.Load
import TcpGateway.Settings.Print
import TcpGateway.Simulation.Bench
import TcpGateway.Simulation.Deployment
import TcpGateway.Proofs.Checksum
import TcpGateway.Proofs.Packet
import TcpGateway.Proofs.Handshake
import TcpGateway.Buffer.Run
import TcpGateway.Proofs.Closed
import TcpGateway.Proofs.Faults
import TcpGateway.Proofs.Fifo
import TcpGateway.Proofs.Wakeup
import TcpGateway.Proofs.Framing
import TcpGateway.Forwarder.Run
import TcpGateway.Proofs.Relaying
import TcpGateway.Proofs.Forwarding
import TcpGateway.Proofs.Draining
import TcpGateway.Gateway.Run
import TcpGateway.Proofs.Lifecycle
import TcpGateway.Proofs.Isolation
import TcpGateway.Proofs.ClientFin
import TcpGateway.Proofs.Scheduling
import TcpGateway.Proofs.Screening
import TcpGateway.Proofs.Reopening
import TcpGateway.Proofs.Pacing
import TcpGateway.Proofs.Corruption
import TcpGateway.Proofs.Requests
import TcpGateway.Uplink.Run
import TcpGateway.Proofs.Admission
import TcpGateway.Proofs.Recording
import TcpGateway.Proofs.Counting
import TcpGateway.Proofs.CircularOrder
import TcpGateway.SeqRange.Run
import TcpGateway.Proofs.RangeMoves
import TcpGateway.Proofs.OnesComplement
import TcpGateway.Downlink.Run
import TcpGateway.Proofs.Addressing
