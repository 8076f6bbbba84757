import TcpGateway.Json.Value
import TcpGateway.Settings

/-!
# Loading settings

Settings come from a JSON text in which every field may be missing, and from environment
variables that override four of them.  The text is checked by itself before it is overridden,
and the result is checked again.
-/

namespace TcpGateway

namespace RelaySettings

def fields : List (Json.Value.Field RelaySettings) := [
  ⟨"name", fun r v => v.string?.map fun x => { r with name := x }⟩,
  ⟨"host", fun r v => v.string?.map fun x => { r with host := x }⟩,
  ⟨"port", fun r v => (v.nat? 65535).map fun n => { r with port := UInt16.ofNat n }⟩]

end RelaySettings

namespace Settings

/-- The largest value of the unbounded number fields. -/
def maxNumber : Nat := 18446744073709551615

/-- A field that holds any number a 64-bit word can. -/
def numberField (name : String) (set : Settings → Nat → Settings) : Json.Value.Field Settings :=
  ⟨name, fun s v => (v.nat? maxNumber).map (set s)⟩

def fields : List (Json.Value.Field Settings) := [
  numberField "mtu" fun s n => { s with mtu := n },
  ⟨"window_size", fun s v => (v.nat? 65535).map fun n => { s with windowSize := UInt16.ofNat n }⟩,
  numberField "retransmit_interval_ms" fun s n => { s with resendIntervalMs := n },
  numberField "idle_timeout_secs" fun s n => { s with idleTimeoutSecs := n },
  numberField "connect_timeout_secs" fun s n => { s with connectTimeoutSecs := n },
  numberField "upstream_poll_interval_ms" fun s n => { s with pollIntervalMs := n },
  numberField "upstream_drain_timeout_ms" fun s n => { s with drainTimeoutMs := n },
  numberField "max_frame_len" fun s n => { s with maxFrameLength := n },
  numberField "max_connections" fun s n => { s with maxConnections := n },
  numberField "event_queue_capacity" fun s n => { s with eventCapacity := n },
  ⟨"relay", fun s v => (v.record? RelaySettings.fields {}).map fun r => { s with relay := r }⟩]

/-- Reads settings without checking that they are usable. -/
def ofText? (text : String) : Option Settings :=
  (Json.Value.ofText? text).bind (Json.Value.record? fields {})

/-- Reads settings from a text and checks them. -/
def parse (text : String) : Except SettingsError Settings := do
  match ofText? text with
  | none => throw (.malformed "not a settings record")
  | some s =>
    s.validate
    pure s

/-! ## Files and environment variables -/

/-- What stands at the path of the settings file. -/
inductive File where
  | missing
  /-- Something that cannot be read, such as a directory. -/
  | unreadable
  | content (data : Bytes)

/-- Reads and checks the settings in a file. -/
def load (path : String) : File → Except SettingsError Settings
  | .missing => .error (.fileNotFound path)
  | .unreadable => .error (.unreadable "cannot be read")
  | .content data =>
    match String.fromUTF8? ⟨data.toArray⟩ with
    | none => .error (.unreadable "not valid UTF-8")
    | some text => parse text

/-- The number up to `limit` that an environment variable spells: decimal digits behind an
optional plus sign. -/
def envNumber? (limit : Nat) (text : String) : Option Nat :=
  let digits :=
    match text.toList with
    | '+' :: rest => rest
    | cs => cs
  if digits.isEmpty ∨ !digits.all Char.isDigit then none
  else
    let value := digits.foldl (fun value c => value * 10 + (c.toNat - 48)) 0
    if value ≤ limit then some value else none

/-- Applies a number from the environment variable `name`, if it is set. -/
def overrideNumber (env : String → Option String) (name : String) (limit : Nat)
    (set : Settings → Nat → Settings) (s : Settings) : Except SettingsError Settings :=
  match env name with
  | none => .ok s
  | some text =>
    match envNumber? limit text with
    | some n => .ok (set s n)
    | none => .error (.environment name s!"Invalid number: {text}")

/-- Applies the environment variables, the first unusable one being the error. -/
def override (env : String → Option String) (s : Settings) : Except SettingsError Settings := do
  let s := match env "TUNNEL_TCP_RELAY_HOST" with
    | none => s
    | some host => { s with relay.host := host }
  let s ← overrideNumber env "TUNNEL_TCP_RELAY_PORT" 65535
    (fun s n => { s with relay.port := UInt16.ofNat n }) s
  let s ← overrideNumber env "TUNNEL_TCP_MAX_CONNECTIONS" maxNumber
    (fun s n => { s with maxConnections := n }) s
  overrideNumber env "TUNNEL_TCP_IDLE_TIMEOUT_SECS" maxNumber
    (fun s n => { s with idleTimeoutSecs := n }) s

/-- Loads a file, applies the environment variables and checks the result. -/
def loadWithEnv (path : String) (file : File) (env : String → Option String) :
    Except SettingsError Settings := do
  let s ← (← load path file).override env
  s.validate
  pure s

end Settings

end TcpGateway
