import TcpGateway.Address
import TcpGateway.Connection.Basic

/-!
# Settings

The settings of a gateway, their defaults, and the check that they are usable.  Of several
faults the check reports the first in the order of the fields.
-/

namespace TcpGateway

/-- Where the relay is. -/
structure RelaySettings where
  /-- A name for people to read. -/
  name : String := "relay"
  /-- An IP address. -/
  host : String := "127.0.0.1"
  port : UInt16 := 1234
deriving DecidableEq, Repr, Inhabited

structure Settings where
  /-- The largest payload of a segment sent. -/
  mtu : Nat := 1400
  /-- The receive window, and the capacity of each buffer. -/
  windowSize : UInt16 := 65535
  /-- Milliseconds between resendings and between timer ticks. -/
  resendIntervalMs : Nat := 100
  idleTimeoutSecs : Nat := 300
  connectTimeoutSecs : Nat := 10
  /-- Milliseconds until an idle relay is asked again. -/
  pollIntervalMs : Nat := 10
  /-- Milliseconds that the relay may be silent after the client has finished. -/
  drainTimeoutMs : Nat := 500
  /-- The largest frame accepted from the relay. -/
  maxFrameLength : Nat := 1048576
  maxConnections : Nat := 4096
  /-- Events that may wait for a connection. -/
  eventCapacity : Nat := 256
  relay : RelaySettings := {}
deriving DecidableEq, Repr, Inhabited

inductive SettingsError where
  | fileNotFound (path : String)
  | malformed (reason : String)
  | invalid (reason : String)
  /-- An environment variable holds no usable value. -/
  | environment (name reason : String)
  | unreadable (reason : String)
deriving DecidableEq, Repr

namespace SettingsError

def message : SettingsError → String
  | fileNotFound path => s!"Configuration file not found: {path}"
  | malformed reason => s!"Failed to parse configuration: {reason}"
  | invalid reason => s!"Configuration validation failed: {reason}"
  | environment name reason => s!"Environment variable error: {name}: {reason}"
  | unreadable reason => s!"I/O error reading configuration: {reason}"

/-- Settings have to be mended by hand. -/
def isRecoverable (_ : SettingsError) : Bool := false

end SettingsError

namespace RelaySettings

/-- The address to connect to. -/
def socketAddress (r : RelaySettings) : Except SettingsError SocketAddress :=
  match IpAddress.ofText? r.host with
  | some address => .ok ⟨address, r.port⟩
  | none => .error (.invalid s!"invalid relay host: {r.host}")

def validate (r : RelaySettings) : Except SettingsError Unit :=
  if r.host.isEmpty then .error (.invalid "relay host cannot be empty")
  else if r.port = 0 then .error (.invalid "relay port cannot be 0")
  else r.socketAddress.map fun _ => ()

end RelaySettings

namespace Settings

/-- The largest payload that fits a packet of 1500 bytes with headers of 20 bytes each. -/
def maxMtu : Nat := 1460

/-- Refuses `value` for the field `name` if it is zero. -/
def requirePositive (name : String) (value : Nat) : Except SettingsError Unit :=
  if value = 0 then .error (.invalid s!"{name} must be greater than 0") else .ok ()

def validate (s : Settings) : Except SettingsError Unit := do
  if s.mtu = 0 ∨ maxMtu < s.mtu then
    throw (.invalid s!"mtu must be between 1 and {maxMtu}, got {s.mtu}")
  requirePositive "window_size" s.windowSize.toNat
  requirePositive "retransmit_interval_ms" s.resendIntervalMs
  requirePositive "idle_timeout_secs" s.idleTimeoutSecs
  requirePositive "upstream_poll_interval_ms" s.pollIntervalMs
  if s.maxFrameLength < s.windowSize.toNat then
    throw (.invalid
      s!"max_frame_len ({s.maxFrameLength}) must be at least window_size ({s.windowSize})")
  requirePositive "max_connections" s.maxConnections
  requirePositive "event_queue_capacity" s.eventCapacity
  s.relay.validate

/-! ## In microseconds -/

def resendInterval (s : Settings) : Nat := s.resendIntervalMs * 1000

def idleTimeout (s : Settings) : Nat := s.idleTimeoutSecs * 1000000

def connectTimeout (s : Settings) : Nat := s.connectTimeoutSecs * 1000000

def pollInterval (s : Settings) : Nat := s.pollIntervalMs * 1000

def drainTimeout (s : Settings) : Nat := s.drainTimeoutMs * 1000

/-- What a single connection needs to know. -/
def connectionOptions (s : Settings) : ConnectionOptions where
  maxPayload := s.mtu
  windowSize := s.windowSize
  resendInterval := s.resendInterval
  idleTimeout := s.idleTimeout

end Settings

end TcpGateway
