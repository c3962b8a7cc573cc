import WebSocketHost.Config

/-!
Settings as a file gives them, and the configuration they describe. Settings
are validated as a whole; of several faults the first in a fixed order is named.
-/
namespace WebSocketHost

/-- What a settings file says about certificates. It names one source at most. -/
structure CertificateSettings where
  path : Option String := none
  embedded : Option String := none
  passphrase : String := ""
deriving DecidableEq

namespace CertificateSettings

def source (c : CertificateSettings) : Option CertificateSource :=
  match c.path, c.embedded with
  | some path, _ => some (.file path c.passphrase)
  | none, some concealed => some (.embedded concealed c.passphrase)
  | none, none => none

end CertificateSettings

structure Settings where
  host : Option IpAddress := none
  ports : List UInt16 := ({} : Config).ports
  maxFrameSize : Nat := ({} : Config).maxFrameSize
  path : String := ({} : Config).path
  closeSeconds : UInt64 := 5
  handshakeSeconds : UInt64 := 10
  backlog : UInt32 := ({} : Config).backlog
  certificate : CertificateSettings := {}
  logLevel : String := "info"
deriving DecidableEq

/-- What is wrong with settings. -/
inductive SettingsFault
  | noPorts
  | zeroPort
  | zeroFrameSize
  | relativePath (path : String)
  | twoCertificates
deriving DecidableEq

namespace SettingsFault

def message : SettingsFault → String
  | noPorts => "server.ports must not be empty"
  | zeroPort => "server.ports must not contain 0"
  | zeroFrameSize => "server.max_frame_size must be positive"
  | relativePath path => "server.path must start with '/': " ++ Text.quoted path
  | twoCertificates => "tls.p12_path and tls.embedded are mutually exclusive"

end SettingsFault

namespace Settings

def fault? (s : Settings) : Option SettingsFault :=
  if s.ports = [] then some .noPorts
  else if 0 ∈ s.ports then some .zeroPort
  else if s.maxFrameSize = 0 then some .zeroFrameSize
  else if s.path.toList.head? ≠ some '/' then some (.relativePath s.path)
  else if s.certificate.path.isSome ∧ s.certificate.embedded.isSome then some .twoCertificates
  else none

def toConfig (s : Settings) : Config where
  host := s.host
  ports := s.ports
  maxFrameSize := s.maxFrameSize
  certificate := s.certificate.source
  path := s.path
  closeTimeout := .ofSeconds s.closeSeconds
  handshakeTimeout := .ofSeconds s.handshakeSeconds
  backlog := s.backlog

/-- Without a file everything is as in a configuration that says nothing. -/
theorem toConfig_default : ({} : Settings).toConfig = {} := rfl

end Settings

end WebSocketHost
