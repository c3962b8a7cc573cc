import WebSocketHost.Settings
import WebSocketHost.Toml.Document

/-!
Reading settings from TOML. Every field may be left out; a name that is not a
field is refused, so that a misspelt one is noticed.
-/
namespace WebSocketHost

inductive SettingsError
  | unreadable (path : String)
  | malformed
  | invalid (fault : SettingsFault)
deriving DecidableEq

namespace SettingsError

def message : SettingsError → String
  | unreadable path => s!"I/O error reading settings at {path}"
  | malformed => "failed to parse settings TOML"
  | invalid fault => s!"invalid setting: {fault.message}"

end SettingsError

open Toml (Value)

namespace Toml.Value

def text? : Value → Option String
  | text s => some s
  | _ => none

/-- An integer from zero up to a bound. -/
def natural? (max : Nat) : Value → Option Nat
  | integer (.ofNat n) => if n ≤ max then some n else none
  | _ => none

def address? (v : Value) : Option IpAddress := do IpAddress.ofText? (← v.text?)

def ports? (v : Value) : Option (List UInt16) := do
  (← v.items?).mapM fun p => do return UInt16.ofNat (← p.natural? 0xffff)

/-- The values of a record's fields: from a table by name, or from an array by
place, which may be shorter or longer than the record. -/
def fields? (names : List String) : Value → Option (List (Option Value))
  | table _ ms => if ms.all (names.contains ·.1) then some (names.map (Toml.Members.get? ms)) else none
  | v => do
    let vs ← v.items?
    return (List.range names.length).map (vs[·]?)

end Toml.Value

/-- The value of a field that may be left out. -/
def fieldOr (default : α) (read : Value → Option α) : Option Value → Option α
  | none => some default
  | some v => read v

namespace Settings

def withServer (s : Settings) (v : Value) : Option Settings := do
  match ← v.fields? ["host", "ports", "max_frame_size", "path", "close_timeout_secs",
      "handshake_timeout_secs", "backlog"] with
  | [host, ports, maxFrameSize, path, close, handshake, backlog] =>
    return { s with
      host := ← fieldOr s.host (fun v => some <$> v.address?) host
      ports := ← fieldOr s.ports Value.ports? ports
      maxFrameSize := ← fieldOr s.maxFrameSize (Value.natural? maxSize) maxFrameSize
      path := ← fieldOr s.path Value.text? path
      closeSeconds := ← fieldOr s.closeSeconds (UInt64.ofNat <$> Value.natural? maxSize ·) close
      handshakeSeconds :=
        ← fieldOr s.handshakeSeconds (UInt64.ofNat <$> Value.natural? maxSize ·) handshake
      backlog := ← fieldOr s.backlog (UInt32.ofNat <$> Value.natural? 0xffffffff ·) backlog }
  | _ => none

def withCertificate (s : Settings) (v : Value) : Option Settings := do
  match ← v.fields? ["p12_path", "embedded", "passphrase"] with
  | [path, embedded, passphrase] =>
    return { s with certificate :=
      { path := ← fieldOr none (some <$> Value.text? ·) path
        embedded := ← fieldOr none (some <$> Value.text? ·) embedded
        passphrase := ← fieldOr "" Value.text? passphrase } }
  | _ => none

def withLogging (s : Settings) (v : Value) : Option Settings := do
  match ← v.fields? ["level"] with
  | [level] => return { s with logLevel := ← fieldOr s.logLevel Value.text? level }
  | _ => none

/-- A section of a file, if it is there. -/
def withSection (read : Settings → Value → Option Settings) (v : Option Value) (s : Settings) :
    Option Settings :=
  match v with
  | none => some s
  | some v => read s v

/-- The settings of a document, not yet validated. -/
def ofDocument? (ms : Toml.Members) : Option Settings := do
  match ← (Value.table .header ms).fields? ["server", "tls", "logging"] with
  | [server, tls, logging] =>
    withSection withServer server {} >>= withSection withCertificate tls
      >>= withSection withLogging logging
  | _ => none

def ofText (text : String) : Except SettingsError Settings :=
  match Toml.read text >>= ofDocument? with
  | none => .error .malformed
  | some s =>
    match s.fault? with
    | some f => .error (.invalid f)
    | none => .ok s

/-- The settings of a file, which must be there and hold text. -/
def load (readFile : String → Option Octets) (path : String) : Except SettingsError Settings :=
  match readFile path >>= Text.ofUtf8? with
  | none => .error (.unreadable path)
  | some text => ofText text

end Settings

end WebSocketHost
