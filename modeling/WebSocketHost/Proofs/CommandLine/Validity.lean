import WebSocketHost.Proofs.CommandLine.Assignments
import WebSocketHost.Proofs.Engine.Ports
import WebSocketHost.Proofs.Frame.RoundTrip

/-! Which configurations a program comes to. What a settings file says is validated, and what a
command line puts over it is not: of the faults that settings can have just two come back, a port
that is zero and a frame size that is zero, and only if they are said there. -/
namespace WebSocketHost

namespace Settings

variable {s : Settings} {readFile : String → Option Octets} {path : String}

theorem fault?_eq_none_iff : s.fault? = none ↔
    s.ports ≠ [] ∧ 0 ∉ s.ports ∧ s.maxFrameSize ≠ 0 ∧ s.path.toList.head? = some '/' ∧
      ¬(s.certificate.path.isSome ∧ s.certificate.embedded.isSome) := by
  unfold fault?
  repeat' split
  all_goals simp_all

/-- Settings that are loaded are faultless. -/
theorem fault?_of_load (h : load readFile path = .ok s) : s.fault? = none := by
  unfold load ofText at h
  split at h
  · cases h
  · split at h
    · cases h
    · split at h
      · cases h
      · next hfault =>
        cases h
        exact hfault

end Settings

/-! ### Listening -/

/-- Binding comes to the port that was asked for; for port zero it is the machine's choice. -/
def Surroundings.IsExact (s : Surroundings) : Prop :=
  ∀ a b, s.bind a = .bound b → a.port ≠ 0 → b.port = a.port

namespace Engine

variable {s : Surroundings} {config : Config} {e e' : Engine}

theorem port_mem_of_bindFrom {bind : SocketAddress → BindOutcome} {host : IpAddress}
    {ports rest : List UInt16} {address : SocketAddress}
    (hbind : ∀ a b, bind a = .bound b → a.port ≠ 0 → b.port = a.port) (hzero : 0 ∉ rest)
    (h : Id.run (bindFrom (fun a => pure (bind a)) host ports rest) = .ok address) :
    address.port ∈ rest := by
  induction rest with
  | nil => cases h
  | cons port rest ih =>
    obtain ⟨hport, hrest⟩ := not_or.mp (List.mem_cons.not.mp hzero)
    unfold bindFrom at h
    simp only [pure_bind] at h
    split at h
    · next b hbound =>
      cases h
      have hsame := hbind _ _ hbound
      rw [SocketAddress.port_ofIp] at hsame
      rw [hsame (Ne.symm hport)]
      exact List.mem_cons_self
    · exact List.mem_cons_of_mem _ (ih hrest h)
    · cases h

/-- One configuration is asked for, and every instance listens on one of its ports. -/
structure Lists (config : Config) (e : Engine) : Prop where
  port : ∀ i ∈ e.instances, i.address.port ∈ config.ports
  call : ∀ call other, e.call = some call → call.restart = some other → other = config

theorem Lists.of_no_call (hport : ∀ i ∈ e.instances, i.address.port ∈ config.ports)
    (hcall : e.call = none) : e.Lists config :=
  ⟨hport, fun call other hsome => by cases hcall.symm.trans hsome⟩

theorem instances_launch (config : Config) (lan : IpAddress) (isSecure : Bool)
    (bound : Except StartError SocketAddress) (e : Engine) :
    (e.launch config lan isSecure bound).instances = e.instances ++ match bound with
      | .ok address =>
        [{ address, maxFrame := config.maxFrameSize, closeTimeout := config.closeTimeout }]
      | .error _ => [] := by
  unfold launch
  cases bound with
  | error err => exact (List.append_nil _).symm
  | ok address => cases config.drainTimeout? <;> rfl

theorem bind_isExact (hs : s.IsExact) (a b : SocketAddress) (h : e.bind s a = .bound b) :
    a.port ≠ 0 → b.port = a.port := by
  unfold bind at h
  split at h
  · cases h
  · exact hs a b h

theorem Lists.openOn (hs : s.IsExact) (hzero : 0 ∉ config.ports)
    (h : ∀ i ∈ e.instances, i.address.port ∈ config.ports) :
    (e.openOn s config).Lists config := by
  refine .of_no_call ?_ (opens_openOn s config e).call_eq_none
  unfold Engine.openOn
  dsimp only
  rw [instances_launch]
  intro i hi
  rcases List.mem_append.mp hi with hold | hnew
  · exact h i hold
  · split at hnew
    · next address hbound =>
      cases List.mem_singleton.mp hnew
      unfold bindFirst at hbound
      split at hbound
      · cases hbound
      · exact port_mem_of_bindFrom (bind_isExact hs) hzero hbound
    · cases hnew

theorem Lists.older (h : e.Lists config) (ho : Older e e') (i : Instance)
    (hi : i ∈ e'.instances) : i.address.port ∈ config.ports := by
  obtain ⟨place, hplace⟩ := List.mem_iff_getElem?.mp hi
  obtain ⟨before, hbefore, hages⟩ := ho.of_getElem? hplace
  rw [hages.address]
  exact h.port before (List.mem_of_getElem? hbefore)

theorem Lists.shift {request : Option Request} (hs : s.IsExact) (hzero : 0 ∉ config.ports)
    (hasked : ∀ other, request = some (.start other) → other = config)
    (h : e.Lists config) (hshift : Shift s e request e') : e'.Lists config := by
  cases hshift with
  | aside ha ho =>
    exact ⟨h.older ho, fun call other hcall => h.call call other (ha.call.symm.trans hcall)⟩
  | waits hcall =>
    refine ⟨h.port, fun call other hcall' hrestart => ?_⟩
    cases hcall'
    exact h.call _ other hcall hrestart
  | @starts other =>
    cases hasked other rfl
    exact .openOn hs hzero h.port
  | stopsNothing | ends => exact .of_no_call h.port rfl
  | @stops request _ _ _ _ _ ho =>
    refine ⟨fun i hi => h.older ho i hi, fun call other hcall hrestart => ?_⟩
    cases hcall
    cases request with
    | start asked =>
      cases hrestart
      exact hasked other rfl
    | stop => cases hrestart
  | @restarts call _ other hcall _ hrestart =>
    cases h.call call other hcall hrestart
    exact .openOn hs hzero h.port

theorem Lists.turn {t : Turn} (hs : s.IsExact) (hzero : 0 ∉ config.ports)
    (hasked : ∀ other, t = .move (.start other) → other = config) (h : e.Lists config) :
    (e.turn s t).Lists config := by
  by_cases ht : t = .move .abandon
  · rw [ht, turn_abandon]
    exact .of_no_call h.port rfl
  · exact h.shift hs hzero (fun other hrequest => hasked other (eq_start_of_request? hrequest))
      (shift_turn s e ht)

theorem Lists.run {turns : List (Surroundings × Turn)} (hzero : 0 ∉ config.ports)
    (hturns : ∀ p ∈ turns, p.1.IsExact ∧ ∀ other, p.2 = .move (.start other) → other = config)
    (h : e.Lists config) : (e.run turns).Lists config :=
  run_preserves (fun p hp _ h => h.turn (hturns p hp).1 hzero (hturns p hp).2) h

end Engine

namespace Frame

/-- A frame that carries a byte is acceptable if there is room for one. -/
theorem exists_acceptable_iff {max : Nat} :
    (∃ f : Frame, f.payload ≠ [] ∧ f.Acceptable max) ↔ max ≠ 0 := by
  constructor
  · rintro ⟨f, hpayload, hacceptable⟩ rfl
    obtain ⟨-, -, -, -, hle⟩ := Header.fault?_eq_none_iff.mp hacceptable
    exact hpayload (List.eq_nil_of_length_eq_zero (Nat.le_zero.mp hle))
  · intro hmax
    refine ⟨.whole .binary [0], nofun, acceptable_data (.inr (.inl rfl)) rfl (by decide) ?_⟩
    exact Nat.one_le_iff_ne_zero.mpr hmax

end Frame

namespace CommandLine

variable {readFile : String → Option Octets} {env : String → Option String} {args : List String}
  {c : CommandLine} {s : Settings}

theorem fault?_of_loadSettings (h : c.loadSettings readFile = .ok s) : s.fault? = none := by
  unfold loadSettings at h
  split at h
  · exact Settings.fault?_of_load h
  · cases h
    decide +kernel

/-- Settings with the values of a command line over them. -/
def layered (c : CommandLine) (s : Settings) : Settings :=
  { s with
    host := c.host <|> s.host
    ports := if c.ports = [] then s.ports else c.ports
    maxFrameSize := c.maxFrameSize.getD s.maxFrameSize
    certificate :=
      { path := c.certificate <|> s.certificate.path
        embedded := if c.certificate.isSome then none else s.certificate.embedded
        passphrase := c.passphrase.getD s.certificate.passphrase } }

theorem toConfig_layered (c : CommandLine) (s : Settings) :
    (c.layered s).toConfig = c.toConfig s := by
  have hsource : (c.layered s).certificate.source = c.certificateSource s := by
    unfold certificateSource layered CertificateSettings.source
    obtain ⟨path, embedded, passphrase⟩ := s.certificate
    cases c.certificate <;> cases c.passphrase <;> cases path <;> cases embedded <;> rfl
  unfold Settings.toConfig toConfig
  rw [hsource]
  rfl

/-- The ports are as they are said, if any is. -/
theorem zero_mem_ports_iff (hread : read env args = .ok c)
    (hload : c.loadSettings readFile = .ok s) :
    0 ∈ (c.toConfig s).ports ↔ 0 ∈ portsSaid (said env args) := by
  obtain ⟨-, hzero, -⟩ := Settings.fault?_eq_none_iff.mp (fault?_of_loadSettings hload)
  have hports : c.ports = portsSaid (said env args) := ports_setAll (setAll_of_read hread).1
  show 0 ∈ (if c.ports = [] then s.ports else c.ports) ↔ _
  rw [← hports]
  split
  · next hnil => simp [hnil, hzero]
  · rfl

theorem ports_ne_nil (hload : c.loadSettings readFile = .ok s) : (c.toConfig s).ports ≠ [] := by
  obtain ⟨hports, -⟩ := Settings.fault?_eq_none_iff.mp (fault?_of_loadSettings hload)
  show (if c.ports = [] then s.ports else c.ports) ≠ []
  split
  · exact hports
  · next hsome => exact hsome

theorem maxFrameSize_eq_zero_iff (hread : read env args = .ok c)
    (hload : c.loadSettings readFile = .ok s) :
    (c.toConfig s).maxFrameSize = 0 ↔ sizeSaid (said env args) = some 0 := by
  obtain ⟨-, -, hpositive, -⟩ := Settings.fault?_eq_none_iff.mp (fault?_of_loadSettings hload)
  obtain ⟨hset, honce⟩ := setAll_of_read hread
  have hsize : c.maxFrameSize = sizeSaid (said env args) :=
    (maxFrameSize_setAll hset (honce .maxFrameSize rfl)).trans (Option.or_none ..)
  show c.maxFrameSize.getD s.maxFrameSize = 0 ↔ _
  rw [← hsize]
  cases c.maxFrameSize <;> simp [hpositive]

/-- The certificate of a command line takes the place of whatever the settings have. -/
theorem layered_one_certificate (hload : c.loadSettings readFile = .ok s) :
    ¬((c.layered s).certificate.path.isSome ∧ (c.layered s).certificate.embedded.isSome) := by
  obtain ⟨-, -, -, -, hone⟩ := Settings.fault?_eq_none_iff.mp (fault?_of_loadSettings hload)
  unfold layered
  cases c.certificate with
  | none => simpa using hone
  | some path => simp

/-- Of the faults that settings can have, those that are left once the settings are validated are
the zeros that are said. -/
theorem fault?_layered (hread : read env args = .ok c) (hload : c.loadSettings readFile = .ok s) :
    (c.layered s).fault? =
      if 0 ∈ portsSaid (said env args) then some .zeroPort
      else if sizeSaid (said env args) = some 0 then some .zeroFrameSize
      else none := by
  have hports : 0 ∈ (c.layered s).ports ↔ _ := zero_mem_ports_iff hread hload
  have hsize : (c.layered s).maxFrameSize = 0 ↔ _ := maxFrameSize_eq_zero_iff hread hload
  have hsome : (c.layered s).ports ≠ [] := ports_ne_nil hload
  obtain ⟨-, -, -, hpath, -⟩ := Settings.fault?_eq_none_iff.mp (fault?_of_loadSettings hload)
  have hpath : ¬(c.layered s).path.toList.head? ≠ some '/' := not_not.mpr hpath
  unfold Settings.fault?
  rw [if_neg hsome, if_neg hpath, if_neg (layered_one_certificate hload)]
  simp only [hports, hsize]

/-- What a program comes to has ports and a path, and at most one source of certificates, for the
settings are validated. But a port or a frame size that is said stands as it is said: the
configuration is one that settings without a fault describe, if no zero is said. Then the server
listens on no port that is not among those of the configuration, whatever happens to it, and some
frame that carries a byte is acceptable. -/
theorem valid_iff_no_zero_said (hread : read env args = .ok c)
    (hload : c.loadSettings readFile = .ok s) :
    (∃ t : Settings, t.toConfig = c.toConfig s ∧
      ¬(t.certificate.path.isSome ∧ t.certificate.embedded.isSome) ∧
      t.fault? =
        if 0 ∈ portsSaid (said env args) then some .zeroPort
        else if sizeSaid (said env args) = some 0 then some .zeroFrameSize
        else none) ∧
    ((∃ t : Settings, t.toConfig = c.toConfig s ∧ t.fault? = none) ↔
      0 ∉ portsSaid (said env args) ∧ sizeSaid (said env args) ≠ some 0) ∧
    (c.toConfig s).ports ≠ [] ∧
    (0 ∈ (c.toConfig s).ports ↔ 0 ∈ portsSaid (said env args)) ∧
    ((c.toConfig s).maxFrameSize = 0 ↔ sizeSaid (said env args) = some 0) ∧
    (c.toConfig s).path.toList.head? = some '/' ∧
    (0 ∉ portsSaid (said env args) → ∀ turns : List (Surroundings × Engine.Turn),
      (∀ p ∈ turns, p.1.IsExact ∧
        ∀ other, p.2 = .move (.start other) → other = c.toConfig s) →
      ∀ i ∈ (Engine.initial.run turns).instances, i.address.port ∈ (c.toConfig s).ports) ∧
    ((∃ f : Frame, f.payload ≠ [] ∧ f.Acceptable (c.toConfig s).maxFrameSize) ↔
      sizeSaid (said env args) ≠ some 0) := by
  have hports := zero_mem_ports_iff hread hload
  have hsize := maxFrameSize_eq_zero_iff hread hload
  have hfault := fault?_layered hread hload
  obtain ⟨-, -, -, hpath, -⟩ := Settings.fault?_eq_none_iff.mp (fault?_of_loadSettings hload)
  refine ⟨⟨c.layered s, toConfig_layered c s, layered_one_certificate hload, hfault⟩, ⟨?_, ?_⟩,
    ports_ne_nil hload, hports, hsize, hpath, fun hzero turns hturns => ?_, ?_⟩
  · rintro ⟨t, ht, hnone⟩
    obtain ⟨-, hport, hpositive, -⟩ := Settings.fault?_eq_none_iff.mp hnone
    rw [← hports, Ne, ← hsize, ← ht]
    exact ⟨hport, hpositive⟩
  · rintro ⟨hport, hpositive⟩
    refine ⟨c.layered s, toConfig_layered c s, ?_⟩
    rw [hfault, if_neg hport, if_neg hpositive]
  · have hinitial : Engine.initial.Lists (c.toConfig s) := .of_no_call nofun rfl
    exact (hinitial.run (hports.not.mpr hzero) hturns).port
  · rw [Frame.exists_acceptable_iff, Ne, hsize]

/-- Two ports in one value, and room for frames: nothing is zero. -/
theorem valid_iff_no_zero_said_two_ports :
    let args := ["--port", "8080,8081", "--max-frame-size", "64"]
    let c : CommandLine := { ports := [8080, 8081], maxFrameSize := some 64 }
    read (fun _ => none) args = .ok c ∧ c.loadSettings (fun _ => none) = .ok {} ∧
      ∃ t : Settings, t.toConfig = c.toConfig {} ∧ t.fault? = none := by
  intro args c
  have hread : read (fun _ => none) args = .ok c := rfl
  have hload : c.loadSettings (fun _ => none) = .ok {} := rfl
  obtain ⟨-, hvalid, -⟩ := valid_iff_no_zero_said hread hload
  exact ⟨hread, hload, hvalid.mpr ⟨by decide +kernel, by decide +kernel⟩⟩

/-- Port zero is taken from a command line: the server listens on a port that the machine chooses.
A frame size of zero is taken too: no frame that carries a byte is acceptable. -/
theorem zero_said_stands :
    let port : CommandLine := { ports := [0] }
    let size : CommandLine := { maxFrameSize := some 0 }
    (read (fun _ => none) ["--port", "0"] = .ok port ∧
      port.loadSettings (fun _ => none) = .ok {} ∧
      (¬∃ t : Settings, t.toConfig = port.toConfig {} ∧ t.fault? = none) ∧
      ∃ s : Surroundings, s.IsExact ∧
        (Engine.initial.start s (port.toConfig {})).instances.map (·.address.port) = [49152] ∧
        49152 ∉ (port.toConfig {}).ports) ∧
    read (fun _ => none) ["--max-frame-size", "0"] = .ok size ∧
      size.loadSettings (fun _ => none) = .ok {} ∧
      (¬∃ t : Settings, t.toConfig = size.toConfig {} ∧ t.fault? = none) ∧
      ¬∃ f : Frame, f.payload ≠ [] ∧ f.Acceptable (size.toConfig {}).maxFrameSize := by
  intro port size
  refine ⟨⟨rfl, rfl, ?_, ?_⟩, rfl, rfl, ?_, ?_⟩
  · rintro ⟨t, ht, hnone⟩
    obtain ⟨-, hport, -⟩ := Settings.fault?_eq_none_iff.mp hnone
    have hports : t.ports = [0] := congrArg Config.ports ht
    rw [hports] at hport
    exact hport List.mem_cons_self
  · let host : IpAddress := .v4 ⟨127, 0, 0, 1⟩
    let chosen (a : SocketAddress) : BindOutcome :=
      .bound (.ofIp host (if a.port = 0 then 49152 else a.port))
    refine ⟨{ lan := host, isUsable := fun _ => false, bind := chosen }, ?_, by decide +kernel,
      by decide +kernel⟩
    intro a b hbound hport
    cases hbound
    rw [SocketAddress.port_ofIp, if_neg hport]
  · rintro ⟨t, ht, hnone⟩
    obtain ⟨-, -, hpositive, -⟩ := Settings.fault?_eq_none_iff.mp hnone
    exact hpositive (congrArg Config.maxFrameSize ht)
  · exact Frame.exists_acceptable_iff.not.mpr (not_not.mpr rfl)

end CommandLine

end WebSocketHost
