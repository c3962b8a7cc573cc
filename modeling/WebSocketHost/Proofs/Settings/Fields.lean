import WebSocketHost.Settings.File

/-! What a file of settings says, field by field. Each field is looked up for itself, in the table it
belongs to, and the settings that are read are made of the values found there. -/
namespace WebSocketHost

open Toml (Value Members)

namespace Toml.Value

/-- A field of a record: in a table the member of its name, in an array the item at its place. -/
def field? (name : String) (place : Nat) : Value → Option Value
  | table _ ms => Toml.Members.get? ms name
  | v => v.items?.bind (·[place]?)

theorem fields?_eq_some {names : List String} {v : Value} {fields : List (Option Value)}
    (h : v.fields? names = some fields) :
    fields = names.mapIdx fun place name => v.field? name place := by
  have hitems {items : List Value} (hfields : fields = (List.range names.length).map (items[·]?)) :
      fields = names.mapIdx fun place _ => items[place]? := by
    rw [hfields]
    exact List.ext_getElem (by simp) (by simp)
  cases v with
  | table origin ms =>
    simp only [fields?, Option.ite_none_right_eq_some, Option.some.injEq] at h
    rw [← h.2]
    exact List.ext_getElem (by simp) (by simp [field?])
  | array items => exact hitems (Option.some.inj h).symm
  | tables latestFirst => exact hitems (Option.some.inj h).symm
  | _ => cases h

/-- What is made of a record's fields is made of each by its own. -/
theorem fields?_bind_eq_some {β : Type} {names : List String} {v : Value}
    {f : List (Option Value) → Option β} {b : β} (h : (v.fields? names).bind f = some b) :
    f (names.mapIdx fun place name => v.field? name place) = some b := by
  obtain ⟨fields, hfields, h⟩ := Option.bind_eq_some_iff.mp h
  rw [← fields?_eq_some hfields]
  exact h

end Toml.Value

namespace Settings

/-- A field of a file of settings: its table, its name and its place there, how its value is read,
and what it is when it is left out. -/
structure Field (α : Type) where
  table : String
  name : String
  place : Nat
  read : Value → Option α
  standard : α

namespace Field

variable {α : Type}

/-- What a document has for a field. -/
def said? (x : Field α) (ms : Members) : Option Value :=
  (ms.get? x.table).bind (·.field? x.name x.place)

/-- The value of a field, unless what the document has for it is no value of its kind. -/
def value? (x : Field α) (ms : Members) : Option α :=
  match x.said? ms with
  | some v => x.read v
  | none => some x.standard

def host : Field (Option IpAddress) := ⟨"server", "host", 0, (some <$> ·.address?), none⟩

def ports : Field (List UInt16) := ⟨"server", "ports", 1, Value.ports?, [1024, 2048]⟩

def maxFrameSize : Field Nat :=
  ⟨"server", "max_frame_size", 2, Value.natural? maxSize, 2 * 1024 * 1024⟩

def path : Field String := ⟨"server", "path", 3, Value.text?, "/websocket"⟩

def closeSeconds : Field UInt64 :=
  ⟨"server", "close_timeout_secs", 4, (UInt64.ofNat <$> ·.natural? maxSize), 5⟩

def handshakeSeconds : Field UInt64 :=
  ⟨"server", "handshake_timeout_secs", 5, (UInt64.ofNat <$> ·.natural? maxSize), 10⟩

def backlog : Field UInt32 :=
  ⟨"server", "backlog", 6, (UInt32.ofNat <$> ·.natural? 0xffffffff), 256⟩

def certificatePath : Field (Option String) := ⟨"tls", "p12_path", 0, (some <$> ·.text?), none⟩

def embedded : Field (Option String) := ⟨"tls", "embedded", 1, (some <$> ·.text?), none⟩

def passphrase : Field String := ⟨"tls", "passphrase", 2, Value.text?, ""⟩

def logLevel : Field String := ⟨"logging", "level", 0, Value.text?, "info"⟩

section Value

variable {ms : Members}

theorem value?_of_absent (x : Field α) (h : ms.get? x.table = none) :
    x.value? ms = some x.standard := by
  rw [value?, said?, h, Option.bind_none]

theorem value?_of_present (x : Field α) {v : Value} (h : ms.get? x.table = some v) :
    x.value? ms = fieldOr x.standard x.read (v.field? x.name x.place) := by
  rw [value?, said?, h, Option.bind_some]
  cases v.field? x.name x.place <;> rfl

/-- A field without a standard value has one just if a document has it. -/
theorem isSome_said? {x : Field (Option α)} {read : Value → Option α}
    (hread : x.read = (some <$> read ·)) (hstandard : x.standard = none) {a : Option α}
    (h : x.value? ms = some a) : (x.said? ms).isSome = a.isSome := by
  unfold value? at h
  cases hv : x.said? ms with
  | none =>
    rw [hv, hstandard] at h
    cases h
    rfl
  | some v =>
    rw [hv, hread] at h
    obtain ⟨b, -, rfl⟩ := Option.map_eq_some_iff.mp h
    rfl

end Value

end Field

/-- Settings whose fields all are as a document has them. -/
structure OfDocument (ms : Members) (s : Settings) : Prop where
  host : Field.host.value? ms = some s.host
  ports : Field.ports.value? ms = some s.ports
  maxFrameSize : Field.maxFrameSize.value? ms = some s.maxFrameSize
  path : Field.path.value? ms = some s.path
  closeSeconds : Field.closeSeconds.value? ms = some s.closeSeconds
  handshakeSeconds : Field.handshakeSeconds.value? ms = some s.handshakeSeconds
  backlog : Field.backlog.value? ms = some s.backlog
  certificatePath : Field.certificatePath.value? ms = some s.certificate.path
  embedded : Field.embedded.value? ms = some s.certificate.embedded
  passphrase : Field.passphrase.value? ms = some s.certificate.passphrase
  logLevel : Field.logLevel.value? ms = some s.logLevel

section Sections

variable {ms : Members} {s s' : Settings}

theorem server_of_withSection (h : withSection withServer (ms.get? "server") {} = some s) :
    (Field.host.value? ms = some s.host ∧ Field.ports.value? ms = some s.ports ∧
      Field.maxFrameSize.value? ms = some s.maxFrameSize ∧ Field.path.value? ms = some s.path ∧
      Field.closeSeconds.value? ms = some s.closeSeconds ∧
      Field.handshakeSeconds.value? ms = some s.handshakeSeconds ∧
      Field.backlog.value? ms = some s.backlog) ∧ s.certificate = {} ∧ s.logLevel = "info" := by
  cases hv : ms.get? "server" with
  | none =>
    rw [hv] at h
    cases h
    exact ⟨⟨Field.host.value?_of_absent hv, Field.ports.value?_of_absent hv,
      Field.maxFrameSize.value?_of_absent hv, Field.path.value?_of_absent hv,
      Field.closeSeconds.value?_of_absent hv, Field.handshakeSeconds.value?_of_absent hv,
      Field.backlog.value?_of_absent hv⟩, rfl, rfl⟩
  | some v =>
    rw [hv] at h
    have h := Value.fields?_bind_eq_some h
    simp only [List.mapIdx_cons, List.mapIdx_nil, Option.bind_eq_bind, Option.bind_eq_some_iff] at h
    obtain ⟨host, hhost, ports, hports, size, hsize, path, hpath, close, hclose, handshake,
      hhandshake, backlog, hbacklog, h⟩ := h
    cases h
    exact ⟨⟨(Field.host.value?_of_present hv).trans hhost,
      (Field.ports.value?_of_present hv).trans hports,
      (Field.maxFrameSize.value?_of_present hv).trans hsize,
      (Field.path.value?_of_present hv).trans hpath,
      (Field.closeSeconds.value?_of_present hv).trans hclose,
      (Field.handshakeSeconds.value?_of_present hv).trans hhandshake,
      (Field.backlog.value?_of_present hv).trans hbacklog⟩, rfl, rfl⟩

theorem certificate_of_withSection (h : withSection withCertificate (ms.get? "tls") s = some s')
    (hs : s.certificate = {}) :
    ∃ certificate : CertificateSettings, s' = { s with certificate } ∧
      Field.certificatePath.value? ms = some certificate.path ∧
      Field.embedded.value? ms = some certificate.embedded ∧
      Field.passphrase.value? ms = some certificate.passphrase := by
  cases hv : ms.get? "tls" with
  | none =>
    rw [hv] at h
    cases h
    exact ⟨{}, by rw [← hs], Field.certificatePath.value?_of_absent hv,
      Field.embedded.value?_of_absent hv, Field.passphrase.value?_of_absent hv⟩
  | some v =>
    rw [hv] at h
    have h := Value.fields?_bind_eq_some h
    simp only [List.mapIdx_cons, List.mapIdx_nil, Option.bind_eq_bind, Option.bind_eq_some_iff] at h
    obtain ⟨path, hpath, embedded, hembedded, passphrase, hpassphrase, h⟩ := h
    cases h
    exact ⟨_, rfl, (Field.certificatePath.value?_of_present hv).trans hpath,
      (Field.embedded.value?_of_present hv).trans hembedded,
      (Field.passphrase.value?_of_present hv).trans hpassphrase⟩

theorem logLevel_of_withSection (h : withSection withLogging (ms.get? "logging") s = some s')
    (hs : s.logLevel = "info") :
    ∃ logLevel, s' = { s with logLevel } ∧ Field.logLevel.value? ms = some logLevel := by
  cases hv : ms.get? "logging" with
  | none =>
    rw [hv] at h
    cases h
    exact ⟨"info", by rw [← hs], Field.logLevel.value?_of_absent hv⟩
  | some v =>
    rw [hv] at h
    have h := Value.fields?_bind_eq_some h
    simp only [List.mapIdx_cons, List.mapIdx_nil, Option.bind_eq_bind, Option.bind_eq_some_iff] at h
    obtain ⟨level, hlevel, h⟩ := h
    cases h
    rw [hs] at hlevel
    exact ⟨level, rfl, (Field.logLevel.value?_of_present hv).trans hlevel⟩

theorem ofDocument_of_ofDocument? (h : ofDocument? ms = some s) : OfDocument ms s := by
  obtain ⟨s₂, h, hlogging⟩ := Option.bind_eq_some_iff.mp (Value.fields?_bind_eq_some h)
  obtain ⟨s₁, hserver, htls⟩ := Option.bind_eq_some_iff.mp h
  obtain ⟨⟨hhost, hports, hsize, hpath, hclose, hhandshake, hbacklog⟩, hcertificate, hlevel⟩ :=
    server_of_withSection hserver
  obtain ⟨certificate, rfl, hfile, hembedded, hpassphrase⟩ :=
    certificate_of_withSection htls hcertificate
  obtain ⟨logLevel, rfl, hlevel⟩ := logLevel_of_withSection hlogging hlevel
  exact ⟨hhost, hports, hsize, hpath, hclose, hhandshake, hbacklog, hfile, hembedded, hpassphrase,
    hlevel⟩

end Sections

end Settings

end WebSocketHost
