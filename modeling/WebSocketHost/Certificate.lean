import WebSocketHost.Base64
import WebSocketHost.Text.Blank
import WebSocketHost.Text.Quoted
import WebSocketHost.Text.Utf8

/-!
Where the certificate for encrypted connections comes from. A bundle may be
compiled into a program as concealed text: its Base64 form backwards. That
hides nothing from a reader; it only keeps the text from being taken for
another kind of file. Main statement of the pair: `reveal` undoes `conceal`.
-/
namespace WebSocketHost

/-- A bundle of certificates and a key, and the passphrase that opens it. -/
inductive CertificateSource
  | file (path : String) (passphrase : String)
  | bytes (bundle : Octets) (passphrase : String)
  | embedded (concealed : String) (passphrase : String)
deriving DecidableEq

inductive CertificateError
  | unreadableFile (path : String)
  | badEmbedding (e : Base64.DecodeError)
  /-- The bytes are no bundle, or the passphrase is wrong. -/
  | badBundle
deriving DecidableEq

namespace CertificateError

def message : CertificateError → String
  | unreadableFile path => s!"I/O error reading certificate bundle at {path}"
  | badEmbedding e => s!"embedded certificate bundle is not valid base64: {e.message}"
  | badBundle => "failed to decode PKCS#12 bundle"

end CertificateError

namespace Certificate

def conceal (bundle : Octets) : String :=
  String.ofList (Base64.toText bundle).toList.reverse

/-- The symbol that stands in place of another where that one has a meaning of its own. -/
def standardSymbol (c : Char) : Char :=
  match c with
  | '-' => '+'
  | '_' => '/'
  | c => c

/-- Concealed text turned round and brought into the canonical form as far as
that can be done: blanks left out, the other alphabet replaced, padding added. -/
def canonicalText (concealed : String) : Octets :=
  let symbols := (concealed.toList.reverse.filter fun c => !Text.isBlank c).map standardSymbol
  let b := Text.utf8 (String.ofList symbols)
  b ++ List.replicate ((4 - b.length % 4) % 4) Base64.pad

def reveal (concealed : String) : Except Base64.DecodeError Octets :=
  Base64.decode (canonicalText concealed)

end Certificate

namespace CertificateSource

def passphrase : CertificateSource → String
  | file _ p | bytes _ p | embedded _ p => p

def withPassphrase (s : CertificateSource) (p : String) : CertificateSource :=
  match s with
  | file path _ => file path p
  | bytes bundle _ => bytes bundle p
  | embedded concealed _ => embedded concealed p

/-- The bundle of a source, with the files there are. -/
def bundle (readFile : String → Option Octets) : CertificateSource → Except CertificateError Octets
  | file path _ =>
    match readFile path with
    | some b => .ok b
    | none => .error (.unreadableFile path)
  | bytes b _ => .ok b
  | embedded concealed _ =>
    match Certificate.reveal concealed with
    | .ok b => .ok b
    | .error e => .error (.badEmbedding e)

/-- What a source's bundle holds, by way of a function that opens bundles. -/
def resolve {I : Type} (readFile : String → Option Octets) (unlock : Octets → String → Option I)
    (s : CertificateSource) : Except CertificateError I :=
  match s.bundle readFile with
  | .error e => .error e
  | .ok b =>
    match unlock b s.passphrase with
    | some i => .ok i
    | none => .error .badBundle

/-- The source in logs, which show neither a passphrase nor a bundle. -/
def toLog : CertificateSource → String
  | file path _ => "File \x7b path: " ++ Text.quoted path ++ ", .. \x7d"
  | bytes b _ => "Bytes \x7b len: " ++ toString b.length ++ ", .. \x7d"
  | embedded concealed _ => "Embedded \x7b len: " ++ toString concealed.utf8ByteSize ++ ", .. \x7d"

/-- The source as part of a configuration in logs. -/
def toConfigLog (s : CertificateSource) : String :=
  let (name, field) := match s with
    | file path _ => ("Pkcs12File", "path: " ++ Text.quoted path)
    | bytes b _ => ("Pkcs12Bytes", "len: " ++ toString b.length)
    | embedded concealed _ => ("Embedded", "len: " ++ toString concealed.utf8ByteSize)
  name ++ " \x7b " ++ field ++ ", passphrase: \"<redacted>\" \x7d"

end CertificateSource

end WebSocketHost
