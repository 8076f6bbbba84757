import TcpGateway.Settings

/-!
# Settings as text

The JSON text of settings, one field a line, as it is written to a new settings file.
-/

namespace TcpGateway

namespace Settings

/-- The escape of a character inside a JSON string. -/
def escapeChar (c : Char) : String :=
  match c with
  | '"' => "\\\""
  | '\\' => "\\\\"
  | '\x08' => "\\b"
  | '\x0c' => "\\f"
  | '\n' => "\\n"
  | '\r' => "\\r"
  | '\t' => "\\t"
  | c =>
    if c.toNat < 32 then
      "\\u00" ++ String.ofList [Nat.digitChar (c.toNat / 16), Nat.digitChar (c.toNat % 16)]
    else c.toString

def quoted (s : String) : String :=
  "\"" ++ String.join (s.toList.map escapeChar) ++ "\""

/-- An object with one member a line, each indented by `indent`, its end two columns less. -/
def printObject (indent : Nat) (members : List (String × String)) : String :=
  let margin (n : Nat) := String.ofList (List.replicate n ' ')
  let lines := members.map fun (key, value) => margin indent ++ quoted key ++ ": " ++ value
  "\x7b\n" ++ ",\n".intercalate lines ++ "\n" ++ margin (indent - 2) ++ "\x7d"

def print (s : Settings) : String :=
  printObject 2 [
    ("mtu", toString s.mtu),
    ("window_size", toString s.windowSize),
    ("retransmit_interval_ms", toString s.resendIntervalMs),
    ("idle_timeout_secs", toString s.idleTimeoutSecs),
    ("connect_timeout_secs", toString s.connectTimeoutSecs),
    ("upstream_poll_interval_ms", toString s.pollIntervalMs),
    ("upstream_drain_timeout_ms", toString s.drainTimeoutMs),
    ("max_frame_len", toString s.maxFrameLength),
    ("max_connections", toString s.maxConnections),
    ("event_queue_capacity", toString s.eventCapacity),
    ("relay", printObject 4 [
      ("name", quoted s.relay.name),
      ("host", quoted s.relay.host),
      ("port", toString s.relay.port)])]

end Settings

end TcpGateway
