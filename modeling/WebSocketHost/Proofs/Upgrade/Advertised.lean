import WebSocketHost.InfoPage
import WebSocketHost.Proofs.Address.Identity
import WebSocketHost.Proofs.CommandLine.Validity
import WebSocketHost.Proofs.Negotiation.Arrival
import WebSocketHost.Proofs.Upgrade.Granted

/-! The path of settings, as peers are told of it and as they come to be upgraded on it. The URL of
a server and its page have the path as it is, and a request that asks for just that is upgraded
unless there is a question mark in the path: of a request's target all from the question mark on
is left out before it is compared. -/
namespace WebSocketHost

/-! ### The path in a URL -/

section Slash

theorem slash_not_mem_toDigits {radix : Nat} (hlow : 1 < radix) (hhigh : radix ≤ 16) (n : Nat) :
    '/' ∉ Nat.toDigits radix n := by
  intro hmem
  have hdigit := Text.Reader.isDigit_of_mem_toDigits hlow hhigh hmem
  simp [Text.Reader.isDigit, Text.Reader.digitValue?] at hdigit

theorem Ipv4.slash_not_mem (a : Ipv4) : '/' ∉ a.toText.toList := by
  simp [toList_toText, slash_not_mem_toDigits]

theorem Ipv6.slash_not_mem_joinGroups (gs : List UInt16) : '/' ∉ (joinGroups gs).toList := by
  cases gs with
  | nil => decide
  | cons g gs => simp [toList_joinGroups_cons, colonGroups, slash_not_mem_toDigits]

theorem Ipv6.slash_not_mem (a : Ipv6) : '/' ∉ a.toText.toList := by
  have hwritten := a.isWritten_toText
  generalize a.toText = text at hwritten
  cases hwritten with
  | mapped v4 => simp [v4.slash_not_mem]
  | full => exact slash_not_mem_joinGroups a.groups
  | compressed => simp [slash_not_mem_joinGroups]

theorem SocketAddress.slash_not_mem (a : SocketAddress) : '/' ∉ a.toText.toList := by
  cases a with
  | v4 ip port => simp [toList_v4, ip.slash_not_mem, slash_not_mem_toDigits]
  | v6 ip scope port =>
    rw [toList_v6]
    split <;> simp [ip.slash_not_mem, slash_not_mem_toDigits]

end Slash

namespace Endpoint

/-- What stands in a URL from the first slash on that is not one of the two behind the scheme. -/
def pathOf (url : String) : String :=
  String.ofList (((url.toList.dropWhile (· ≠ ':')).drop 3).dropWhile (· ≠ '/'))

theorem pathOf_url {e : Endpoint} (h : e.path.toList.head? = some '/') : pathOf e.url = e.path := by
  obtain ⟨cs, hcs⟩ : ∃ cs, e.path.toList = '/' :: cs := List.head?_eq_some_iff.mp h
  have hscheme : (e.url.toList.dropWhile (· ≠ ':')).drop 3 =
      e.advertised.toText.toList ++ e.path.toList := by
    unfold url baseUrl
    cases e.isSecure <;> simp
  have hslash : ∀ c ∈ e.advertised.toText.toList, decide (c ≠ '/') = true :=
    fun c hc => decide_eq_true fun heq => e.advertised.slash_not_mem (heq ▸ hc)
  rw [pathOf, hscheme, List.dropWhile_append_of_pos hslash, hcs,
    List.dropWhile_cons_of_neg (by simp), ← hcs, String.ofList_toList]

end Endpoint

namespace Engine

/-- A server is reached on one path, and so it will be after what is still to come. -/
structure IsOn (path : String) (e : Engine) : Prop where
  endpoint : ∀ endpoint, e.endpoint = some endpoint → endpoint.path = path
  restart : ∀ call config, e.call = some call → call.restart = some config → config.path = path

section IsOn

variable {s : Surroundings} {path : String} {config : Config} {e e' : Engine}

theorem IsOn.of_no_call (h : ∀ endpoint, e.endpoint = some endpoint → endpoint.path = path)
    (hcall : e.call = none) : e.IsOn path :=
  ⟨h, fun call config hsome => by cases hcall.symm.trans hsome⟩

theorem Opens.isOn (ho : Opens s config e e') (hconfig : config.path = path)
    (h : ∀ endpoint, e.endpoint = some endpoint → endpoint.path = path) : e'.IsOn path := by
  refine .of_no_call ?_ ho.call_eq_none
  cases ho with
  | fails | overflows => exact h
  | listens =>
    rintro endpoint ⟨rfl⟩
    exact hconfig

theorem IsOn.passage {request : Option Request} (h : e.IsOn path)
    (hasked : ∀ config, request = some (.start config) → config.path = path)
    (hp : Passage s e request e') : e'.IsOn path := by
  cases hp with
  | aside ha =>
    exact ⟨fun endpoint hsome => h.endpoint endpoint (ha.endpoint ▸ hsome),
      fun call config hcall => h.restart call config (ha.call ▸ hcall)⟩
  | waits hcall =>
    refine ⟨h.endpoint, fun call config hwaits hrestart => ?_⟩
    cases hwaits
    exact h.restart _ config hcall hrestart
  | starts _ _ ho => exact ho.isOn (hasked _ rfl) h.endpoint
  | stopsNothing => exact .of_no_call h.endpoint rfl
  | @stops request =>
    refine ⟨h.endpoint, fun call config hcall hrestart => ?_⟩
    cases hcall
    cases request with
    | start asked =>
      cases hrestart
      exact hasked config rfl
    | stop => cases hrestart
  | ends => exact .of_no_call nofun rfl
  | restarts hcall hrestart ho => exact ho.isOn (h.restart _ _ hcall hrestart) nofun

theorem IsOn.turn {t : Turn} (h : e.IsOn path)
    (hasked : ∀ config, t = .move (.start config) → config.path = path) :
    (e.turn s t).IsOn path := by
  by_cases ht : t = .move .abandon
  · rw [ht, turn_abandon]
    exact .of_no_call h.endpoint rfl
  · exact h.passage (fun config hrequest => hasked config (eq_start_of_request? hrequest))
      (shift_turn s e ht).passage

theorem IsOn.run {turns : List (Surroundings × Turn)} (h : e.IsOn path)
    (hasked : ∀ p ∈ turns, ∀ config, p.2 = .move (.start config) → config.path = path) :
    (e.run turns).IsOn path :=
  run_preserves (fun p hp _ h => h.turn (hasked p hp)) h

theorem isOn_initial (path : String) : initial.IsOn path := by
  have hnone : initial.endpoint = none := rfl
  exact .of_no_call (fun endpoint hsome => by cases hnone.symm.trans hsome) rfl

end IsOn

end Engine

/-! ### A request for the path -/

namespace Upgrade

/-- A request for the upgrade of just one target, with a key. -/
structure Asks (h : RequestHead) (target key : String) : Prop where
  method : h.method = "GET"
  target : h.target = target
  version : h.minorVersion = 1
  upgrade : HasToken h "Upgrade" "websocket"
  connection : HasToken h "Connection" "upgrade"
  protocol : IsFirst h "Sec-WebSocket-Version" "13"
  first : IsFirst h "Sec-WebSocket-Key" key
  sixteen : ∃ bytes : Octets, bytes.length = 16 ∧ Text.trim key = Base64.toText bytes

variable {h : RequestHead} {path key : String}

theorem asks_iff : Asks h path key ↔ h.method = "GET" ∧ h.target = path ∧ h.minorVersion = 1 ∧
    h.hasToken "Upgrade" "websocket" = true ∧ h.hasToken "Connection" "upgrade" = true ∧
    h.header? "Sec-WebSocket-Version" = some "13" ∧ h.header? "Sec-WebSocket-Key" = some key ∧
    isKey key = true := by
  rw [hasToken_iff (by decide) (by decide), hasToken_iff (by decide) (by decide),
    RequestHead.header?_eq_some_iff, RequestHead.header?_eq_some_iff, isKey_iff]
  constructor
  · rintro ⟨hmethod, htarget, hversion, hupgrade, hconnection, hprotocol, hkey, hbytes⟩
    exact ⟨hmethod, htarget, hversion, hupgrade, hconnection, hprotocol, hkey, hbytes⟩
  · rintro ⟨hmethod, htarget, hversion, hupgrade, hconnection, hprotocol, hkey, hbytes⟩
    exact ⟨hmethod, htarget, hversion, hupgrade, hconnection, hprotocol, hkey, hbytes⟩

instance : Decidable (Asks h path key) := decidable_of_iff' _ asks_iff

theorem ofHead_of_question_mark (hpath : '?' ∈ path.toList) (h : RequestHead) :
    ofHead h path = .notUpgrade := by
  have hunwanted : isWanted h path = false := by
    refine Bool.eq_false_iff.mpr fun hwanted => ?_
    obtain ⟨-, -, -, htarget⟩ := isWanted_iff.mp hwanted
    exact (RequestHead.path_eq_iff.mp htarget).1 hpath
  simp [ofHead, hunwanted]

theorem Asks.ofHead_eq (hasks : Asks h path key) :
    ofHead h path = if '?' ∈ path.toList then .notUpgrade else .valid key := by
  split
  · next hpath => exact ofHead_of_question_mark hpath h
  · next hpath =>
    exact granted_iff.mpr {
      method := hasks.method
      upgrade := hasks.upgrade
      connection := hasks.connection
      target := ⟨hpath, .inl hasks.target⟩
      version := hasks.version
      protocol := hasks.protocol
      first := hasks.first
      sixteen := hasks.sixteen }

end Upgrade

namespace Negotiation

open RequestHead Upgrade

/-- What a peer gets that asks for the very path: the upgrade, with all that it sent after its
request still to be read, or the page if there is a question mark in the path. -/
inductive Gets (path key : String) (behind : Octets) : Ending → Prop
  | upgrade {leftover : Octets} {unread : List Octets} (hpath : '?' ∉ path.toList)
    (hbehind : leftover ++ unread.flatten = behind) :
    Gets path key behind
      ⟨.ok (.upgraded leftover), Response.Literal.switchingProtocols key, unread⟩
  | page {unread : List Octets} (hpath : '?' ∈ path.toList) :
    Gets path key behind ⟨.ok .pageServed, Response.Literal.infoPage path, unread⟩

theorem gets_of_asks {path key : String} {p : Peer} {h : RequestHead} {rest : Octets}
    (hp : p.writeFails = false) (hread : read p.chunks.flatten = .ok (h, rest))
    (hasks : Asks h path key) : Gets path key rest (run path p) := by
  have hanswered := run_answered path hp
  have hofHead := hasks.ofHead_eq
  generalize run path p = e at hanswered
  cases hanswered with
  | upgraded hread' hup =>
    cases hread.symm.trans hread'
    rw [hofHead] at hup
    split at hup
    · cases hup
    · next hpath =>
      cases hup
      exact .upgrade hpath rfl
  | pageServed hread' hup =>
    cases hread.symm.trans hread'
    rw [hofHead] at hup
    split at hup
    · next hpath => exact .page hpath
    · cases hup
  | methodNotAllowed hread' _ hget =>
    cases hread.symm.trans hread'
    simp [isGet, hasks.method] at hget
  | refused hread' hup =>
    cases hread.symm.trans hread'
    rw [hofHead] at hup
    split at hup <;> cases hup
  | unreadable hread' => cases hread.symm.trans hread'
  | failed hread' => cases hread.symm.trans hread'

end Negotiation

namespace Settings

/-- Wherever a server with the path of accepted settings listens, its URL ends in that path, and the
page opens a connection to it. Who asks for just that path gets the upgrade, unless there is a
question mark in it. Then no request is one for an upgrade, and who asks gets the page. -/
theorem path_is_upgraded_without_question_mark {s : Settings} (hs : s.fault? = none) :
    (∀ turns : List (Surroundings × Engine.Turn),
      (∀ p ∈ turns, ∀ config, p.2 = .move (.start config) → config.path = s.path) →
      ∀ url, (Engine.initial.run turns).url = some url → Endpoint.pathOf url = s.path) ∧
    (∃ before after, InfoPage.html s.path = before ++ InfoPage.call s.path ++ after) ∧
    (∀ h key, Upgrade.Asks h s.path key →
      Upgrade.ofHead h s.path = if '?' ∈ s.path.toList then .notUpgrade else .valid key) ∧
    ('?' ∈ s.path.toList → ∀ h, Upgrade.ofHead h s.path = .notUpgrade) ∧
    ∀ (p : Peer) (h : RequestHead) (rest : Octets) (key : String), p.writeFails = false →
      RequestHead.read p.chunks.flatten = .ok (h, rest) → Upgrade.Asks h s.path key →
      Negotiation.Gets s.path key rest (Negotiation.run s.path p) := by
  obtain ⟨-, -, -, hslash, -⟩ := fault?_eq_none_iff.mp hs
  refine ⟨fun turns hasked url hurl => ?_, ?_, fun h key hasks => hasks.ofHead_eq,
    Upgrade.ofHead_of_question_mark, fun p h rest key hp hread hasks =>
      Negotiation.gets_of_asks hp hread hasks⟩
  · obtain ⟨endpoint, hendpoint, rfl⟩ := Option.map_eq_some_iff.mp hurl
    have hpath : endpoint.path = s.path :=
      ((Engine.isOn_initial s.path).run hasked).endpoint endpoint hendpoint
    rw [Endpoint.pathOf_url (by rw [hpath, hslash]), hpath]
  · exact ⟨InfoPage.beforeCall, InfoPage.afterCall, InfoPage.html_eq s.path⟩

/-- A server on the path of settings, its page, and a request for that path with other tokens beside
those that are wanted and the first byte of a frame behind it. -/
theorem path_is_upgraded_without_question_mark_keep_alive :
    let s : Settings := { path := "/ws" }
    let host : IpAddress := .v4 .loopback
    let free : Surroundings :=
      { lan := host, isUsable := fun _ => false, bind := fun a => .bound a }
    let server := Engine.initial.run [(free, .move (.start s.toConfig))]
    let key := "dGhlIHNhbXBsZSBub25jZQ=="
    let request := "GET /ws HTTP/1.1\r\nUpgrade: websocket\r\n" ++
      "Connection: keep-alive, Upgrade\r\nSec-WebSocket-Version: 13\r\n" ++
      "Sec-WebSocket-Key: dGhlIHNhbXBsZSBub25jZQ==\r\n\r\n"
    let h : RequestHead := ⟨"GET", "/ws", 1,
      [("Upgrade", "websocket"), ("Connection", "keep-alive, Upgrade"),
        ("Sec-WebSocket-Version", "13"), ("Sec-WebSocket-Key", key)]⟩
    let p : Peer := ⟨[Text.utf8 request ++ [0x89]], false, false⟩
    s.fault? = none ∧ server.url = some "ws://127.0.0.1:1024/ws" ∧
      Endpoint.pathOf "ws://127.0.0.1:1024/ws" = s.path ∧
      (∃ before after, InfoPage.html s.path =
        before ++ "new WebSocket(scheme + location.host + \"/ws\")" ++ after) ∧
      Upgrade.Asks h s.path key ∧ Upgrade.ofHead h s.path = .valid key ∧
      Negotiation.Gets s.path key [0x89] (Negotiation.run s.path p) := by
  intro s host free server key request h p
  have hs : s.fault? = none := by decide +kernel
  have hurl : server.url = some "ws://127.0.0.1:1024/ws" := by decide +kernel
  have hasks : Upgrade.Asks h s.path key := by decide +kernel
  have hread : RequestHead.read p.chunks.flatten = .ok (h, [0x89]) := by decide +kernel
  obtain ⟨hreached, hcalls, hofHead, -, hgets⟩ := path_is_upgraded_without_question_mark hs
  have hasked : ∀ t ∈ [(free, Engine.Turn.move (.start s.toConfig))],
      ∀ config, t.2 = .move (.start config) → config.path = s.path := by
    intro t ht config hstart
    cases List.mem_singleton.mp ht
    cases hstart
    rfl
  exact ⟨hs, hurl, hreached _ hasked _ hurl, hcalls, hasks,
    (hofHead h key hasks).trans (by decide), hgets p h [0x89] key rfl hread hasks⟩

/-- A path that is accepted, and a request for just that path which is answered with the page. The
URL of the server ends in the path all the same. -/
theorem path_with_question_mark_is_not_upgraded :
    let s : Settings := { path := "/a?b" }
    let key := "dGhlIHNhbXBsZSBub25jZQ=="
    let request := "GET /a?b HTTP/1.1\r\nUpgrade: websocket\r\nConnection: Upgrade\r\n" ++
      "Sec-WebSocket-Version: 13\r\nSec-WebSocket-Key: dGhlIHNhbXBsZSBub25jZQ==\r\n\r\n"
    let h : RequestHead := ⟨"GET", "/a?b", 1,
      [("Upgrade", "websocket"), ("Connection", "Upgrade"), ("Sec-WebSocket-Version", "13"),
        ("Sec-WebSocket-Key", key)]⟩
    let p : Peer := ⟨[Text.utf8 request], false, false⟩
    let host : IpAddress := .v4 .loopback
    let free : Surroundings :=
      { lan := host, isUsable := fun _ => false, bind := fun a => .bound a }
    s.fault? = none ∧ RequestHead.read p.chunks.flatten = .ok (h, []) ∧
      Upgrade.Asks h s.path key ∧ Upgrade.ofHead h s.path = .notUpgrade ∧
      (Negotiation.run s.path p).kind = .pageServed ∧
      (Engine.initial.start free s.toConfig).url = some "ws://127.0.0.1:1024/a?b" := by
  decide +kernel

end Settings

end WebSocketHost
