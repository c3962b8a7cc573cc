import WebSocketHost.Settings.File

/-!
The command line of the program. What it leaves out may stand in the
environment, then in a settings file, then there is a default. Arguments are
judged from left to right, but a value that stands apart from its flag is
judged only when the next known flag or the end comes.
-/
namespace WebSocketHost

/-- What a command line and the environment say. -/
structure CommandLine where
  host : Option IpAddress := none
  /-- Replaces the settings' ports if there is any. -/
  ports : List UInt16 := []
  maxFrameSize : Option Nat := none
  /-- The path of a certificate bundle. -/
  certificate : Option String := none
  passphrase : Option String := none
  /-- The path of a settings file. -/
  settings : Option String := none
  echo : Bool := false
deriving DecidableEq

namespace CommandLine

inductive Flag
  | host
  | port
  | maxFrameSize
  | certificate
  | passphrase
  | settings
  | echo
deriving DecidableEq

namespace Flag

/-- In the order in which the environment is looked at. -/
def all : List Flag := [host, port, maxFrameSize, certificate, passphrase, settings, echo]

/-- The name after two dashes. -/
def name : Flag → String
  | host => "host"
  | port => "port"
  | maxFrameSize => "max-frame-size"
  | certificate => "tls-p12"
  | passphrase => "tls-passphrase"
  | settings => "config"
  | echo => "echo"

/-- The variable of the environment that stands in for the flag. -/
def environmentName : Flag → String
  | host => "WSDOCK_HOST"
  | port => "WSDOCK_PORTS"
  | maxFrameSize => "WSDOCK_MAX_FRAME_SIZE"
  | certificate => "WSDOCK_TLS_P12"
  | passphrase => "WSDOCK_TLS_PASSPHRASE"
  | settings => "WSDOCK_CONFIG"
  | echo => "WSDOCK_ECHO"

def takesValue : Flag → Bool
  | echo => false
  | _ => true

/-- All others may be given once. -/
def repeats : Flag → Bool
  | port => true
  | _ => false

end Flag

/-- Why arguments are not taken. -/
inductive Refusal
  /-- The arguments ask for something else than to run. -/
  | help
  | version
  | unknown (argument : String)
  | missingValue (flag : Flag)
  | unexpectedValue (name : String)
  | repeated (flag : Flag)
  | badValue (flag : Flag) (value : String)
  | emptyPath (flag : Flag)
  /-- Neither `true` nor `false`. -/
  | notBoolean (flag : Flag) (value : String)
deriving DecidableEq

namespace Refusal

/-- What is said to the user. -/
def message : Refusal → String
  | help | version => ""
  | unknown argument => s!"unexpected argument '{argument}' found"
  | missingValue flag => s!"a value is required for '--{flag.name}' but none was supplied"
  | unexpectedValue name => s!"unexpected value for '--{name}' found; no more were expected"
  | repeated flag => s!"the argument '--{flag.name}' cannot be used multiple times"
  | badValue flag value => s!"invalid value '{value}' for '--{flag.name}'"
  | emptyPath flag => s!"a value is required for '--{flag.name}' but none was supplied"
  | notBoolean flag value => s!"invalid value '{value}' for '--{flag.name}'"

end Refusal

/-- The program and its options. -/
def usage : String :=
  "Embeddable WebSocket server, run standalone\n\n"
    ++ "Usage: wsdock [OPTIONS]\n\n"
    ++ "Options:\n"
    ++ "  --host <IP>               Address to bind; defaults to the machine's LAN address\n"
    ++ "  --port <PORT>             Candidate port, tried in order; repeatable\n"
    ++ "  --max-frame-size <BYTES>  Largest accepted frame and message\n"
    ++ "  --tls-p12 <PATH>          PKCS#12 bundle to terminate TLS with\n"
    ++ "  --tls-passphrase <PASS>   Passphrase for the bundle\n"
    ++ "  --config <PATH>           TOML settings file\n"
    ++ "  --echo                    Echo every received message back to its sender\n"
    ++ "  -h, --help                Print help\n"
    ++ "  -V, --version             Print version"

def versionText : String := "wsdock 0.1.0"

open Text (Reader)
open Text.Reader

/-- A number of decimal digits, with a plus before it if one likes. -/
def natural? (s : String) : Option Nat :=
  whole (do optionally (char '+'); return valueOf 10 (← takeSome (isDigit 10))) s

/-- A port may also have a minus before it, but only zero is then in range. -/
def port? (s : String) : Option UInt16 :=
  let minusZero := whole (do char '-'; return valueOf 10 (← takeSome (isDigit 10))) s = some 0
  match if minusZero then some 0 else natural? s with
  | some n => if n < UInt16.size then some (UInt16.ofNat n) else none
  | none => none

/-- Takes a flag's value in. Ports are divided by commas. -/
def set (c : CommandLine) (f : Flag) (v : String) : Except Refusal CommandLine :=
  match f with
  | .host =>
    match IpAddress.ofText? v with
    | some a => .ok { c with host := some a }
    | none => .error (.badValue f v)
  | .port =>
    match (Text.split ',' v.toList).mapM fun p => port? (String.ofList p) with
    | some ps => .ok { c with ports := c.ports ++ ps }
    | none => .error (.badValue f v)
  | .maxFrameSize =>
    match natural? v with
    | some n => if n ≤ maxSize then .ok { c with maxFrameSize := some n } else .error (.badValue f v)
    | none => .error (.badValue f v)
  | .certificate => if v = "" then .error (.emptyPath f) else .ok { c with certificate := some v }
  | .passphrase => .ok { c with passphrase := some v }
  | .settings => if v = "" then .error (.emptyPath f) else .ok { c with settings := some v }
  | .echo =>
    if v = "true" then .ok { c with echo := true }
    else if v = "false" then .ok { c with echo := false }
    else .error (.notBoolean f v)

/-- How far the arguments are read. -/
structure Reading where
  line : CommandLine := {}
  given : List Flag := []
  /-- The flag that was read last and the value that came after it, not yet judged. -/
  pending : Option (Flag × Option String) := none

namespace Reading

def take (r : Reading) (f : Flag) (v : String) : Except Refusal Reading :=
  if f ∈ r.given ∧ !f.repeats then .error (.repeated f)
  else do return { r with line := ← r.line.set f v, given := f :: r.given }

/-- Judges the value that was not judged yet. -/
def settle (r : Reading) : Except Refusal Reading :=
  match r.pending with
  | none => .ok r
  | some (f, none) => .error (.missingValue f)
  | some (f, some v) => { r with pending := none }.take f v

/-- A flag, or something else the program can be asked for. -/
inductive Name
  | flag (f : Flag)
  | stop (r : Refusal)

def name? (s : String) : Option Name :=
  if s = "help" then some (.stop .help)
  else if s = "version" then some (.stop .version)
  else (Flag.all.find? (·.name = s)).map .flag

def long (r : Reading) (argument name : String) (value : Option String) : Except Refusal Reading :=
  match name? name, value with
  | none, _ => .error (.unknown argument)
  | some (.flag f), value =>
    if f.takesValue then do
      let r ← r.settle
      match value with
      | some v => r.take f v
      | none => return { r with pending := some (f, none) }
    else
      match value with
      | some _ => .error (.unexpectedValue name)
      | none => do (← r.settle).take f "true"
  | some (.stop _), some _ => .error (.unexpectedValue name)
  | some (.stop s), none => do
    let _ ← r.settle
    .error s

def short (r : Reading) (argument : String) (letter : Char) : Except Refusal Reading := do
  let s ← match letter with
    | 'h' => .ok Refusal.help
    | 'V' => .ok Refusal.version
    | _ => .error (.unknown argument)
  let _ ← r.settle
  .error s

/-- An argument that is not a flag is the value of the flag before it. -/
def plain (r : Reading) (argument : String) : Except Refusal Reading :=
  match r.pending with
  | some (f, none) => .ok { r with pending := some (f, some argument) }
  | _ => .error (.unknown argument)

def argument (r : Reading) (a : String) : Except Refusal Reading :=
  match a.toList with
  | '-' :: '-' :: cs =>
    let name := String.ofList (cs.takeWhile (· != '='))
    match cs.dropWhile (· != '=') with
    | _ :: value => r.long a name (some (String.ofList value))
    | [] => r.long a name none
  | '-' :: c :: _ => r.short a c
  | _ => r.plain a

/-- After two dashes alone everything would be a value, and none is wanted. -/
def arguments (r : Reading) : List String → Except Refusal Reading
  | [] => r.settle
  | "--" :: rest =>
    match rest with
    | [] => r.settle
    | a :: _ => .error (.unknown a)
  | a :: rest => do (← r.argument a).arguments rest

/-- Takes a flag that was not given from the environment, if it is there. -/
def fromEnvironment (env : String → Option String) (r : Reading) (f : Flag) :
    Except Refusal Reading :=
  if f ∈ r.given then .ok r
  else
    match env f.environmentName with
    | some v => do return { r with line := ← r.line.set f v }
    | none => .ok r

end Reading

def read (env : String → Option String) (args : List String) : Except Refusal CommandLine := do
  let r ← ({} : Reading).arguments args
  return (← Flag.all.foldlM (Reading.fromEnvironment env) r).line

/-- The settings that the command line asks for. -/
def loadSettings (readFile : String → Option Octets) (c : CommandLine) :
    Except SettingsError Settings :=
  match c.settings with
  | some path => Settings.load readFile path
  | none => .ok {}

/-- What is said when a settings file is of no use. -/
def loadFailure (path : String) : String := s!"failed to load settings from {path}"

/-- A certificate given on the command line replaces the settings'; a passphrase
given there alone opens theirs. -/
def certificateSource (c : CommandLine) (s : Settings) : Option CertificateSource :=
  match c.certificate with
  | some path => some (.file path (c.passphrase.getD s.certificate.passphrase))
  | none =>
    match c.passphrase with
    | some p => s.certificate.source.map (·.withPassphrase p)
    | none => s.certificate.source

/-- The configuration of a server: the command line over the settings. -/
def toConfig (c : CommandLine) (s : Settings) : Config :=
  { s.toConfig with
    host := c.host <|> s.host
    ports := if c.ports = [] then s.ports else c.ports
    maxFrameSize := c.maxFrameSize.getD s.maxFrameSize
    certificate := c.certificateSource s }

end CommandLine

end WebSocketHost
