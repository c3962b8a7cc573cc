import WebSocketHost.Proofs.CommandLine.Validity
import WebSocketHost.Proofs.Settings.Fields
import WebSocketHost.Proofs.Text.Tokens

/-! Where the values of a configuration come from. What arguments give a flag goes before what the
environment has for it, that before what a file of settings says, and where nothing is said there
is a standard value. -/
namespace WebSocketHost.CommandLine

open Toml (Members)

/-- The values of one flag, in that order. -/
def valuesIn (l : List (Flag × String)) (f : Flag) : List String :=
  l.filterMap fun p => if p.1 = f then some p.2 else none

/-- What arguments give a flag. If they do not, it is what the environment has for it. -/
def valuesFor (env : String → Option String) (args : List String) (f : Flag) : List String :=
  match valuesIn (assignments args) f with
  | [] => (env f.environmentName).toList
  | given => given

section Values

variable {env : String → Option String} {args : List String} {l : List (Flag × String)}
  {f : Flag} {v : String}

theorem mem_valuesIn : v ∈ valuesIn l f ↔ (f, v) ∈ l := by
  simp [valuesIn]

theorem valuesIn_eq_nil_iff : valuesIn l f = [] ↔ f ∉ l.map (·.1) := by
  simp [List.eq_nil_iff_forall_not_mem, mem_valuesIn]

theorem valuesIn_cons (p : Flag × String) (l : List (Flag × String)) (f : Flag) :
    valuesIn (p :: l) f = if p.1 = f then p.2 :: valuesIn l f else valuesIn l f := by
  unfold valuesIn
  rw [List.filterMap_cons]
  split <;> simp_all

theorem length_valuesIn : (valuesIn l f).length = (l.map (·.1)).count f := by
  induction l with
  | nil => rfl
  | cons p l ih =>
    rw [valuesIn_cons, List.map_cons, List.count_cons, ← ih]
    by_cases hp : p.1 = f <;> simp [hp]

theorem lookup_eq_head? : l.lookup f = (valuesIn l f).head? := by
  induction l with
  | nil => rfl
  | cons p l ih =>
    obtain ⟨g, v⟩ := p
    rw [valuesIn_cons, List.lookup_cons, ih]
    by_cases hg : g = f
    · simp [hg]
    · rw [if_neg hg, beq_false_of_ne (Ne.symm hg)]

/-- The environment is looked at once for each flag. -/
theorem valuesIn_standIns (given : List Flag) (f : Flag) : valuesIn (standIns env given) f =
    if f ∈ given then [] else (env f.environmentName).toList := by
  have hone (x : Option String) :
      Flag.all.filterMap (fun g => if g = f then x else none) = x.toList := by
    cases f <;> cases x <;> rfl
  have heach (g : Flag) :
      ((standIn? env given g).bind fun p => if p.1 = f then some p.2 else none) =
        if g = f then (if f ∈ given then none else env f.environmentName) else none := by
    unfold standIn?
    by_cases hg : g = f
    · subst hg
      by_cases hgiven : g ∈ given
      · simp [hgiven]
      · cases henv : env g.environmentName <;> simp [hgiven]
    · cases henv : env g.environmentName <;> by_cases hgiven : g ∈ given <;> simp [hg, hgiven]
  rw [valuesIn, standIns, List.filterMap_filterMap]
  simp only [heach, hone]
  split <;> rfl

theorem valuesIn_said : valuesIn (said env args) f = valuesFor env args f := by
  have happend : valuesIn (said env args) f = valuesIn (assignments args) f ++
      if f ∈ (assignments args).map (·.1) then [] else (env f.environmentName).toList := by
    rw [← valuesIn_standIns]
    exact List.filterMap_append
  rw [happend, valuesFor]
  cases hgiven : valuesIn (assignments args) f with
  | nil => rw [if_neg (valuesIn_eq_nil_iff.mp hgiven), List.nil_append]
  | cons v given =>
    have hmem : f ∈ (assignments args).map (·.1) := by
      refine not_not.mp fun hnot => ?_
      cases hgiven.symm.trans (valuesIn_eq_nil_iff.mpr hnot)
    rw [if_pos hmem, List.append_nil]

end Values

/-- A field that a flag has as well: the flag, and how its values are read. -/
structure Setting (α : Type) extends Settings.Field α where
  flag : Flag
  parse : List String → Option α

namespace Setting

/-- The value of a field when it is read from the values of its flag if there are any, or else from
a document. -/
def value? {α : Type} (x : Setting α) (env : String → Option String) (args : List String)
    (ms : Members) : Option α :=
  match valuesFor env args x.flag with
  | [] => x.toField.value? ms
  | given => x.parse given

/-- Reads a flag that has one value. -/
def once {α : Type} (parse : String → Option α) : List String → Option α
  | [v] => parse v
  | _ => none

def host : Setting (Option IpAddress) :=
  { Settings.Field.host with flag := .host, parse := once (some <$> IpAddress.ofText? ·) }

/-- All ports that are given, in that order. -/
def ports : Setting (List UInt16) :=
  { Settings.Field.ports with flag := .port, parse := (List.flatten <$> ·.mapM portsOf?) }

def maxFrameSize : Setting Nat :=
  { Settings.Field.maxFrameSize with flag := .maxFrameSize, parse := once natural? }

def passphrase : Setting String :=
  { Settings.Field.passphrase with flag := .passphrase, parse := once some }

end Setting

/-- The file that arguments name, or else the environment. -/
def fileFor (env : String → Option String) (args : List String) : Option String :=
  (valuesFor env args .settings).head?

/-- What a file of settings says, and nothing if there is no file. -/
def document? (readFile : String → Option Octets) : Option String → Option Members
  | none => some []
  | some path => do Toml.read (← Text.ofUtf8? (← readFile path))

section Ports

/-- A port or more, in any value that is one of ports. -/
theorem portsOf?_ne_nil {v : String} {ps : List UInt16} (h : portsOf? v = some ps) : ps ≠ [] := by
  unfold portsOf? at h
  rw [Text.split_eq_splitOn] at h
  obtain ⟨piece, pieces, hpieces⟩ :=
    List.exists_cons_of_ne_nil (List.splitOn_ne_nil ',' v.toList)
  rw [hpieces, List.mapM_cons] at h
  obtain ⟨p, -, h⟩ := Option.bind_eq_some_iff.mp h
  obtain ⟨ps', -, h⟩ := Option.bind_eq_some_iff.mp h
  cases h
  exact List.cons_ne_nil p ps'

theorem portsSaid_eq (l : List (Flag × String)) :
    portsSaid l = (valuesIn l .port).flatMap fun v => (portsOf? v).getD [] := by
  induction l with
  | nil => rfl
  | cons p l ih =>
    rw [valuesIn_cons, portsSaid, List.flatMap_cons]
    split
    · rw [List.flatMap_cons, ← ih]
      rfl
    · exact ih

theorem mapM_portsOf? {vs : List String} (h : ∀ v ∈ vs, ∃ ps, portsOf? v = some ps) :
    vs.mapM portsOf? = some (vs.map fun v => (portsOf? v).getD []) := by
  induction vs with
  | nil => rfl
  | cons v vs ih =>
    obtain ⟨⟨ps, hps⟩, hrest⟩ := List.forall_mem_cons.mp h
    simp [hps, ih hrest]

end Ports

/-- The fields of all other flags are as they were. -/
structure Leaves (f : Flag) (c c' : CommandLine) : Prop where
  host : f ≠ .host → c'.host = c.host
  maxFrameSize : f ≠ .maxFrameSize → c'.maxFrameSize = c.maxFrameSize
  certificate : f ≠ .certificate → c'.certificate = c.certificate
  passphrase : f ≠ .passphrase → c'.passphrase = c.passphrase
  settings : f ≠ .settings → c'.settings = c.settings

section Read

variable {env : String → Option String} {args : List String} {c c' : CommandLine}
  {l : List (Flag × String)}

theorem Sets.leaves {f : Flag} {v : String} (h : Sets c v f c') : Leaves f c c' := by
  cases h <;> constructor <;> simp

theorem exists_sets_of_mem (h : c.setAll l = .ok c') {p : Flag × String} (hp : p ∈ l) :
    ∃ c₁ c₂, Sets c₁ p.2 p.1 c₂ := by
  induction l generalizing c with
  | nil => cases hp
  | cons q l ih =>
    rw [setAll_cons] at h
    obtain ⟨c₁, hset, h⟩ := bind_eq_ok_iff.mp h
    rcases List.mem_cons.mp hp with rfl | hp
    · exact ⟨c, c₁, sets_of_set hset⟩
    · exact ih h hp

/-- Every value of a flag was taken. -/
theorem exists_sets_of_read (h : read env args = .ok c) {f : Flag} {v : String}
    (hv : v ∈ valuesFor env args f) : ∃ c₁ c₂, Sets c₁ v f c₂ := by
  rw [← valuesIn_said] at hv
  exact exists_sets_of_mem (setAll_of_read h).1 (mem_valuesIn.mp hv)

theorem valuesFor_eq_singleton (h : read env args = .ok c) {f : Flag} (hf : f.repeats = false)
    {v : String} (hv : v ∈ valuesFor env args f) : valuesFor env args f = [v] := by
  have hle : (valuesFor env args f).length ≤ 1 := by
    rw [← valuesIn_said, length_valuesIn]
    exact (setAll_of_read h).2 f hf
  obtain ⟨w, hw⟩ := List.length_eq_one_iff.mp (Nat.le_antisymm hle (List.length_pos_of_mem hv))
  rw [hw] at hv ⊢
  rw [List.mem_singleton.mp hv]

/-- A field with a flag of its own has the value of that flag, if it has one. -/
theorem field_of_read {β : Type} (field : CommandLine → Option β) (f : Flag)
    (parse : String → Option β) (hf : f.repeats = false)
    (hown : ∀ {c c' : CommandLine} {v : String}, Sets c v f c' →
      (parse v).isSome ∧ field c' = parse v)
    (hother : ∀ {c c' : CommandLine} {g : Flag} {v : String}, Sets c v g c' → g ≠ f →
      field c' = field c)
    (hempty : field {} = none) (h : read env args = .ok c) :
    field c = (valuesFor env args f).head?.bind parse := by
  obtain ⟨hset, honce⟩ := setAll_of_read h
  have hfield := field_setAll field f parse hown hother hset (honce f hf)
  rw [hfield, hempty, Option.or_none, lookup_eq_head?, valuesIn_said]

theorem settings_of_read (h : read env args = .ok c) : c.settings = fileFor env args := by
  refine (field_of_read settings .settings some rfl (fun hsets => ?_)
    (fun hsets hf => hsets.leaves.settings hf) rfl h).trans (Option.bind_fun_some _)
  cases hsets
  exact ⟨rfl, rfl⟩

theorem certificate_of_read (h : read env args = .ok c) :
    c.certificate = (valuesFor env args .certificate).head? := by
  refine (field_of_read certificate .certificate some rfl (fun hsets => ?_)
    (fun hsets hf => hsets.leaves.certificate hf) rfl h).trans (Option.bind_fun_some _)
  cases hsets
  exact ⟨rfl, rfl⟩

end Read

section Values

variable {env : String → Option String} {args : List String} {c : CommandLine} {ms : Members}

namespace Setting

theorem value?_of_read {α : Type} {x : Setting α} {parse : String → Option α}
    (hx : x.parse = once parse) (field : CommandLine → Option α) (hf : x.flag.repeats = false)
    (hown : ∀ {c c' : CommandLine} {v : String}, Sets c v x.flag c' →
      (parse v).isSome ∧ field c' = parse v)
    (hother : ∀ {c c' : CommandLine} {g : Flag} {v : String}, Sets c v g c' → g ≠ x.flag →
      field c' = field c)
    (hempty : field {} = none) (h : read env args = .ok c) {a : α}
    (hfile : x.toField.value? ms = some a) :
    x.value? env args ms = some ((field c).getD a) := by
  have hfield := field_of_read field x.flag parse hf hown hother hempty h
  rw [hfield]
  unfold value?
  cases hgiven : valuesFor env args x.flag with
  | nil => exact hfile
  | cons v given =>
    have hmem : v ∈ valuesFor env args x.flag := by
      rw [hgiven]
      exact List.mem_cons_self
    cases hgiven.symm.trans (valuesFor_eq_singleton h hf hmem)
    obtain ⟨c₁, c₂, hsets⟩ := exists_sets_of_read h hmem
    obtain ⟨b, hb⟩ := Option.isSome_iff_exists.mp (hown hsets).1
    simp [hx, once, hb]

theorem value?_host (h : read env args = .ok c) {a : Option IpAddress}
    (hfile : Settings.Field.host.value? ms = some a) :
    host.value? env args ms = some (c.host <|> a) := by
  have hvalue := value?_of_read (x := host) rfl (fun c => some <$> c.host) rfl (fun hsets => ?_)
    (fun hsets hf => congrArg (some <$> ·) (hsets.leaves.host hf)) rfl h hfile
  · rw [hvalue]
    cases c.host <;> rfl
  · cases hsets with
    | host ha => simp [ha]

theorem value?_maxFrameSize (h : read env args = .ok c) {n : Nat}
    (hfile : Settings.Field.maxFrameSize.value? ms = some n) :
    maxFrameSize.value? env args ms = some (c.maxFrameSize.getD n) := by
  refine value?_of_read rfl CommandLine.maxFrameSize rfl (fun hsets => ?_)
    (fun hsets hf => hsets.leaves.maxFrameSize hf) rfl h hfile
  cases hsets with
  | maxFrameSize hn => simp [hn]

theorem value?_passphrase (h : read env args = .ok c) {p : String}
    (hfile : Settings.Field.passphrase.value? ms = some p) :
    passphrase.value? env args ms = some (c.passphrase.getD p) := by
  refine value?_of_read rfl CommandLine.passphrase rfl (fun hsets => ?_)
    (fun hsets hf => hsets.leaves.passphrase hf) rfl h hfile
  cases hsets
  exact ⟨rfl, rfl⟩

theorem value?_ports (h : read env args = .ok c) {ps : List UInt16}
    (hfile : Settings.Field.ports.value? ms = some ps) :
    ports.value? env args ms = some (if c.ports = [] then ps else c.ports) := by
  have hsaid : c.ports =
      (valuesFor env args ports.flag).flatMap fun v => (portsOf? v).getD [] := by
    rw [← valuesIn_said, show ports.flag = .port from rfl, ← portsSaid_eq]
    exact ports_setAll (setAll_of_read h).1
  have hparse (v : String) (hv : v ∈ valuesFor env args ports.flag) :
      ∃ ps, portsOf? v = some ps := by
    obtain ⟨c₁, c₂, hsets⟩ := exists_sets_of_read h hv
    cases hsets with
    | port hps => exact ⟨_, hps⟩
  unfold value?
  cases hgiven : valuesFor env args ports.flag with
  | nil =>
    have hnone : c.ports = [] := by rw [hsaid, hgiven, List.flatMap_nil]
    rw [if_pos hnone]
    exact hfile
  | cons v given =>
    rw [hgiven] at hsaid hparse
    obtain ⟨first, hfirst⟩ := hparse v List.mem_cons_self
    have hports : c.ports ≠ [] := by
      rw [hsaid, List.flatMap_cons, hfirst]
      exact fun hnil => portsOf?_ne_nil hfirst (List.append_eq_nil_iff.mp hnil).1
    rw [if_neg hports, hsaid, List.flatMap_def]
    exact congrArg (Option.map List.flatten) (mapM_portsOf? hparse)

end Setting

end Values

section Configuration

variable {env : String → Option String} {args : List String} {c : CommandLine} {s : Settings}
  {readFile : String → Option Octets}

theorem ofDocument_of_loadSettings (h : c.loadSettings readFile = .ok s) :
    ∃ ms, document? readFile c.settings = some ms ∧ Settings.OfDocument ms s := by
  unfold loadSettings at h
  unfold document?
  cases hname : c.settings with
  | none =>
    rw [hname] at h
    cases h
    exact ⟨[], rfl, Settings.ofDocument_of_ofDocument? rfl⟩
  | some path =>
    rw [hname] at h
    dsimp only [Settings.load] at h
    split at h
    · cases h
    · next text htext =>
      unfold Settings.ofText at h
      split at h
      · cases h
      · next t ht =>
        obtain ⟨ms, hms, ht⟩ := Option.bind_eq_some_iff.mp ht
        obtain ⟨bytes, hbytes, htext⟩ := Option.bind_eq_some_iff.mp htext
        split at h
        · cases h
        · cases h
          exact ⟨ms, by simp [hbytes, htext, hms], Settings.ofDocument_of_ofDocument? ht⟩

theorem certificateSource_eq (c : CommandLine) (s : Settings) : c.certificateSource s =
    match c.certificate <|> s.certificate.path, s.certificate.embedded with
    | some path, _ => some (.file path (c.passphrase.getD s.certificate.passphrase))
    | none, some text => some (.embedded text (c.passphrase.getD s.certificate.passphrase))
    | none, none => none := by
  unfold certificateSource CertificateSettings.source
  obtain ⟨path, embedded, passphrase⟩ := s.certificate
  cases c.certificate <;> cases c.passphrase <;> cases path <;> cases embedded <;> rfl

/-- Whatever bundle is asked for, the passphrase of a command line opens it. -/
theorem passphrase_of_certificateSource {source : CertificateSource}
    (h : c.certificateSource s = some source) :
    source.passphrase = c.passphrase.getD s.certificate.passphrase := by
  rw [certificateSource_eq] at h
  split at h <;> cases h <;> rfl

/-- Each value of the configuration that a program comes to is that of the first layer which has
one: arguments, the environment, the file of settings that one of those names, and then there is a
standard value. Ports that are given take the place of all others, in the order they are given.
Encryption is asked for just if some layer has a bundle, and a path that is given goes before
either kind of bundle in the file. The passphrase has layers of its own, whichever layer the bundle
is from. -/
theorem toConfig_by_layers (hread : read env args = .ok c)
    (hload : c.loadSettings readFile = .ok s) :
    ∃ ms, document? readFile (fileFor env args) = some ms ∧
      Setting.host.value? env args ms = some (c.toConfig s).host ∧
      Setting.ports.value? env args ms = some (c.toConfig s).ports ∧
      Setting.maxFrameSize.value? env args ms = some (c.toConfig s).maxFrameSize ∧
      Settings.Field.path.value? ms = some (c.toConfig s).path ∧
      (Settings.Field.closeSeconds.value? ms).map .ofSeconds = some (c.toConfig s).closeTimeout ∧
      (Settings.Field.handshakeSeconds.value? ms).map .ofSeconds =
        some (c.toConfig s).handshakeTimeout ∧
      Settings.Field.backlog.value? ms = some (c.toConfig s).backlog ∧
      ((c.toConfig s).wantsEncryption = true ↔ valuesFor env args .certificate ≠ [] ∨
        (Settings.Field.certificatePath.said? ms).isSome ∨
        (Settings.Field.embedded.said? ms).isSome) ∧
      (∀ path ∈ valuesFor env args .certificate,
        ∃ p, (c.toConfig s).certificate = some (.file path p)) ∧
      (valuesFor env args .certificate = [] →
        (∀ path, Settings.Field.certificatePath.value? ms = some (some path) →
          ∃ p, (c.toConfig s).certificate = some (.file path p)) ∧
        ∀ text, Settings.Field.embedded.value? ms = some (some text) →
          ∃ p, (c.toConfig s).certificate = some (.embedded text p)) ∧
      ∀ source, (c.toConfig s).certificate = some source →
        Setting.passphrase.value? env args ms = some source.passphrase := by
  obtain ⟨ms, hms, hfields⟩ := ofDocument_of_loadSettings hload
  rw [settings_of_read hread] at hms
  obtain ⟨-, -, -, -, hone⟩ := Settings.fault?_eq_none_iff.mp (fault?_of_loadSettings hload)
  have hgiven := certificate_of_read hread
  have hsource : (c.toConfig s).certificate = _ := certificateSource_eq c s
  have hpath := Settings.Field.isSome_said? rfl rfl hfields.certificatePath
  have hembedded := Settings.Field.isSome_said? rfl rfl hfields.embedded
  refine ⟨ms, hms, Setting.value?_host hread hfields.host,
    Setting.value?_ports hread hfields.ports,
    Setting.value?_maxFrameSize hread hfields.maxFrameSize, hfields.path,
    congrArg (Option.map Duration.ofSeconds) hfields.closeSeconds,
    congrArg (Option.map Duration.ofSeconds) hfields.handshakeSeconds, hfields.backlog,
    ?_, ?_, ?_, ?_⟩
  · rw [Config.wantsEncryption, hsource, hpath, hembedded, ← List.isSome_head?, ← hgiven]
    cases c.certificate <;> cases s.certificate.path <;> cases s.certificate.embedded <;> simp
  · intro path hmem
    rw [valuesFor_eq_singleton hread rfl hmem] at hgiven
    rw [hsource, hgiven]
    exact ⟨_, rfl⟩
  · intro hnone
    rw [hnone] at hgiven
    rw [hsource, hgiven, hfields.certificatePath, hfields.embedded]
    refine ⟨fun path hsome => ?_, fun text hsome => ?_⟩
    · rw [Option.some.inj hsome]
      exact ⟨_, rfl⟩
    · have hsome := Option.some.inj hsome
      have hnot : s.certificate.path = none := by simpa [hsome] using hone
      rw [hsome, hnot]
      exact ⟨_, rfl⟩
  · intro source hsome
    rw [passphrase_of_certificateSource hsome]
    exact Setting.value?_passphrase hread hfields.passphrase

/-- Ports from arguments, where the environment and the file have some too; a size from the
environment; an address and concealed text from the file that the environment names; a passphrase
from arguments for that text. -/
theorem toConfig_by_layers_all_four :
    let env (name : String) : Option String :=
      [("WSDOCK_PORTS", "9"), ("WSDOCK_MAX_FRAME_SIZE", "512"),
        ("WSDOCK_CONFIG", "a.toml")].lookup name
    let args := ["--port", "6000", "--tls-passphrase=pw", "--port=7000,8000"]
    let file := "[server]\nhost = \"10.1.2.3\"\nports = [5000]\nmax_frame_size = 100\n" ++
      "[tls]\nembedded = \"=AAA\"\npassphrase = \"old\"\n"
    let readFile (path : String) := if path = "a.toml" then some (Text.utf8 file) else none
    let c : CommandLine :=
      { ports := [6000, 7000, 8000], maxFrameSize := some 512, passphrase := some "pw",
        settings := some "a.toml" }
    let s : Settings :=
      { host := some (.v4 ⟨10, 1, 2, 3⟩), ports := [5000], maxFrameSize := 100,
        certificate := { embedded := some "=AAA", passphrase := "old" } }
    read env args = .ok c ∧ c.loadSettings readFile = .ok s ∧
      ∃ ms, document? readFile (some "a.toml") = some ms ∧
        Setting.host.value? env args ms = some (some (.v4 ⟨10, 1, 2, 3⟩)) ∧
        Setting.ports.value? env args ms = some [6000, 7000, 8000] ∧
        Setting.maxFrameSize.value? env args ms = some 512 ∧
        Settings.Field.path.value? ms = some "/websocket" ∧
        Setting.passphrase.value? env args ms = some "pw" ∧
        (c.toConfig s).certificate = some (.embedded "=AAA" "pw") := by
  intro env args file readFile c s
  have hread : read env args = .ok c := by decide +kernel
  have hload : c.loadSettings readFile = .ok s := by decide +kernel
  have hcertificate : (c.toConfig s).certificate = some (.embedded "=AAA" "pw") := rfl
  obtain ⟨ms, hms, hhost, hports, hsize, hpath, -, -, -, -, -, -, hpassphrase⟩ :=
    toConfig_by_layers hread hload
  exact ⟨hread, hload, ms, hms, hhost, hports, hsize, hpath, hpassphrase _ hcertificate,
    hcertificate⟩

end Configuration

end WebSocketHost.CommandLine
