/-!
# Phases of a connection

The states of TCP, with one in front: a connection is `held` while the client's SYN waits for
the relay to be reached.  There is no time wait; a connection whose closing handshake is
complete is closed at once.
-/

namespace TcpGateway

inductive Phase where
  | held
  | listen
  | synReceived
  | established
  | finWait1
  | finWait2
  | closeWait
  | closing
  | lastAck
  | closed
deriving DecidableEq, Repr, Inhabited

namespace Phase

/-- All phases in the order of a connection's life. -/
def all : List Phase :=
  [held, listen, synReceived, established, finWait1, finWait2, closeWait, closing, lastAck, closed]

/-- The place of a phase in `all`. -/
def index : Phase → Nat
  | held => 0
  | listen => 1
  | synReceived => 2
  | established => 3
  | finWait1 => 4
  | finWait2 => 5
  | closeWait => 6
  | closing => 7
  | lastAck => 8
  | closed => 9

/-- Whether both sides have exchanged SYNs. -/
def isSynchronized : Phase → Bool
  | established | finWait1 | finWait2 | closeWait | closing | lastAck => true
  | _ => false

/-- Whether new data may still be sent to the client. -/
def canSend : Phase → Bool
  | established | closeWait => true
  | _ => false

/-- Whether the client may still send data. -/
def canReceive : Phase → Bool
  | established | finWait1 | finWait2 => true
  | _ => false

def name : Phase → String
  | held => "NEW"
  | listen => "LISTEN"
  | synReceived => "SYN-RECEIVED"
  | established => "ESTABLISHED"
  | finWait1 => "FIN-WAIT-1"
  | finWait2 => "FIN-WAIT-2"
  | closeWait => "CLOSE-WAIT"
  | closing => "CLOSING"
  | lastAck => "LAST-ACK"
  | closed => "CLOSED"

/-- The name in lower case with underscores, for machine-readable reports. -/
def tag : Phase → String
  | held => "new"
  | listen => "listen"
  | synReceived => "syn_received"
  | established => "established"
  | finWait1 => "fin_wait1"
  | finWait2 => "fin_wait2"
  | closeWait => "close_wait"
  | closing => "closing"
  | lastAck => "last_ack"
  | closed => "closed"

theorem mem_all (p : Phase) : p ∈ all := by cases p <;> decide

theorem all_getElem_index (p : Phase) : all[p.index]? = some p := by cases p <;> rfl

end Phase

end TcpGateway
