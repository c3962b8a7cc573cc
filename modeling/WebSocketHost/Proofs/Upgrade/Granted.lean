import WebSocketHost.Proofs.Upgrade.Rewording

/-! When an upgrade is granted, said of the request alone: its method, its version, and what
stands in its target and in its headers. -/
namespace WebSocketHost.Upgrade

/-- Some header of a name has a token between its commas, in any case and with any blanks. -/
def HasToken (h : RequestHead) (name token : String) : Prop :=
  ∃ f ∈ h.headers, named name f = true ∧
    ∃ ts, f.2 = ",".intercalate ts ∧ ∃ t ∈ ts, Text.Respaced token t

/-- The first header of a name has a value. -/
def IsFirst (h : RequestHead) (name value : String) : Prop :=
  ∃ before n after, h.headers = before ++ (n, value) :: after ∧ named name (n, value) = true ∧
    ∀ f ∈ before, named name f = false

/-- A request for the upgrade of one path, with a key. -/
structure Granted (h : RequestHead) (path key : String) : Prop where
  method : h.method = "GET"
  upgrade : HasToken h "Upgrade" "websocket"
  connection : HasToken h "Connection" "upgrade"
  target : '?' ∉ path.toList ∧ (h.target = path ∨ ∃ query, h.target = path ++ "?" ++ query)
  version : h.minorVersion = 1
  protocol : IsFirst h "Sec-WebSocket-Version" "13"
  first : IsFirst h "Sec-WebSocket-Key" key
  sixteen : ∃ bytes : Octets, bytes.length = 16 ∧ Text.trim key = Base64.toText bytes

theorem isKey_iff {key : String} : isKey key = true ↔
    ∃ bytes : Octets, bytes.length = 16 ∧ Text.trim key = Base64.toText bytes := by
  unfold isKey
  constructor
  · intro h
    split at h
    case h_1 bytes hdecode =>
      refine ⟨bytes, of_decide_eq_true h, Text.utf8_injective ?_⟩
      rw [Base64.utf8_toText]
      exact Base64.decode_eq_ok_iff.mp hdecode
    case h_2 => contradiction
  · rintro ⟨bytes, hlen, hkey⟩
    rw [hkey, Base64.utf8_toText, Base64.decode_eq_ok_iff.mpr rfl]
    exact decide_eq_true hlen

theorem hasToken_iff {h : RequestHead} {name token : String} (htrim : Text.trim token = token)
    (hcomma : ',' ∉ token.toList) : h.hasToken name token = true ↔ HasToken h name token := by
  simp only [RequestHead.hasToken_iff, HasToken,
    ← RequestHead.exists_mem_items_iff htrim hcomma]

theorem ofHead_eq_valid_iff {h : RequestHead} {path key : String} :
    ofHead h path = .valid key ↔ isWanted h path = true ∧ h.minorVersion = 1 ∧
      h.header? "Sec-WebSocket-Version" = some protocolVersion ∧
      h.header? "Sec-WebSocket-Key" = some key ∧ isKey key = true := by
  unfold ofHead
  cases isWanted h path with
  | false => simp
  | true =>
    by_cases hversion : h.minorVersion = 1
    case neg => simp [hversion]
    by_cases hprotocol : h.header? "Sec-WebSocket-Version" = some protocolVersion
    case neg => simp [hversion, hprotocol]
    cases h.header? "Sec-WebSocket-Key" with
    | none => simp [hversion, hprotocol]
    | some k =>
      have hkey : (if isKey k then Upgrade.valid k else .invalid .key) = .valid key ↔
          k = key ∧ isKey key = true := by
        by_cases hk : isKey k = true
        · rw [if_pos hk, Upgrade.valid.injEq]
          exact ⟨fun heq => ⟨heq, heq ▸ hk⟩, And.left⟩
        · rw [if_neg hk]
          simp only [reduceCtorEq, false_iff, not_and]
          rintro rfl
          exact hk
      simpa [hversion, hprotocol] using hkey

theorem isWanted_iff {h : RequestHead} {path : String} :
    isWanted h path = true ↔ h.method = "GET" ∧ HasToken h "Upgrade" "websocket" ∧
      HasToken h "Connection" "upgrade" ∧ h.path = path := by
  rw [← hasToken_iff (by decide) (by decide), ← hasToken_iff (by decide) (by decide)]
  simp [isWanted, RequestHead.isGet, and_assoc]

theorem granted_iff {h : RequestHead} {path key : String} :
    ofHead h path = .valid key ↔ Granted h path key := by
  rw [ofHead_eq_valid_iff, isWanted_iff, isKey_iff, RequestHead.path_eq_iff,
    RequestHead.header?_eq_some_iff, RequestHead.header?_eq_some_iff]
  constructor
  · rintro ⟨⟨hmethod, hupgrade, hconnection, htarget⟩, hversion, hprotocol, hkey, hbytes⟩
    exact ⟨hmethod, hupgrade, hconnection, htarget, hversion, hprotocol, hkey, hbytes⟩
  · rintro ⟨hmethod, hupgrade, hconnection, htarget, hversion, hprotocol, hkey, hbytes⟩
    exact ⟨⟨hmethod, hupgrade, hconnection, htarget⟩, hversion, hprotocol, hkey, hbytes⟩

/-- Requests that are worded differently get the same answer, and an upgrade is granted to those
that ask for it, with the key they name. -/
theorem ofHead_follows_meaning :
    (∀ h h' path, Relation.EqvGen Rewording h h' → ofHead h path = ofHead h' path) ∧
      ∀ h path key, ofHead h path = .valid key ↔ Granted h path key :=
  ⟨fun _ _ path hr => (Rewording.alike_of_eqvGen hr).ofHead_eq path, fun _ _ _ => granted_iff⟩

/-- Two `Connection` headers become one, its tokens in other cases and with a blank in front, the
other headers change places, and a query is put behind the path. Both requests are granted the
upgrade. -/
theorem ofHead_follows_meaning_reworded :
    let key := "dGhlIHNhbXBsZSBub25jZQ=="
    let h : RequestHead := ⟨"GET", "/ws", 1,
      [("Upgrade", "websocket"), ("Connection", "keep-alive"), ("Connection", "Upgrade"),
        ("Sec-WebSocket-Version", "13"), ("Sec-WebSocket-Key", key)]⟩
    let h' : RequestHead := ⟨"GET", "/ws?a", 1,
      [("Upgrade", "websocket"), ("connection", "Keep-Alive, upgrade"),
        ("Sec-WebSocket-Key", key), ("Sec-WebSocket-Version", "13")]⟩
    ofHead h "/ws" = .valid key ∧ ofHead h' "/ws" = .valid key ∧ Granted h "/ws" key ∧
      Granted h' "/ws" key := by
  intro key h h'
  obtain ⟨hreworded, hgranted⟩ := ofHead_follows_meaning
  have hvalid : ofHead h "/ws" = .valid key := by decide +kernel
  let joined : RequestHead := ⟨"GET", "/ws", 1,
    [("Upgrade", "websocket"), ("connection", "keep-alive,Upgrade"),
      ("Sec-WebSocket-Version", "13"), ("Sec-WebSocket-Key", key)]⟩
  let respaced : RequestHead := ⟨"GET", "/ws", 1,
    [("Upgrade", "websocket"), ("connection", "Keep-Alive, upgrade"),
      ("Sec-WebSocket-Version", "13"), ("Sec-WebSocket-Key", key)]⟩
  let swapped : RequestHead := ⟨"GET", "/ws", 1,
    [("Upgrade", "websocket"), ("connection", "Keep-Alive, upgrade"),
      ("Sec-WebSocket-Key", key), ("Sec-WebSocket-Version", "13")]⟩
  have hjoin : Rewording h joined := @Rewording.join h "Connection" "connection"
    [("Connection", "keep-alive"), ("Connection", "Upgrade")] [("Upgrade", "websocket")]
    [("Sec-WebSocket-Version", "13"), ("Sec-WebSocket-Key", key)]
    (by decide) (by decide) (by decide) (by decide) (by decide) (by decide)
  have hblank : Text.isBlank ' ' = true := by decide
  have htokens : List.Forall₂ Text.Respaced ["keep-alive", "Upgrade"] ["Keep-Alive", " upgrade"] :=
    .cons ⟨"", "Keep-Alive", "", rfl, by decide, by simp, by simp⟩
      (.cons ⟨" ", "upgrade", "", rfl, by decide, by simp [hblank], by simp⟩ .nil)
  have hrespace : Rewording joined respaced :=
    @Rewording.respace joined "Connection" "connection" _ _ [("Upgrade", "websocket")]
      [("Sec-WebSocket-Version", "13"), ("Sec-WebSocket-Key", key)]
      (by decide) (by decide) rfl (by decide) htokens
  have hswap : Rewording respaced swapped :=
    @Rewording.swap respaced ("Sec-WebSocket-Version", "13") ("Sec-WebSocket-Key", key)
      [("Upgrade", "websocket"), ("connection", "Keep-Alive, upgrade")] [] rfl (by decide)
  have hquery : Rewording swapped h' := @Rewording.query swapped "a" (by decide)
  have hsame : ofHead h "/ws" = ofHead h' "/ws" :=
    hreworded h h' "/ws" (.trans _ _ _ (.rel _ _ hjoin) (.trans _ _ _ (.rel _ _ hrespace)
      (.trans _ _ _ (.rel _ _ hswap) (.rel _ _ hquery))))
  have hvalid' : ofHead h' "/ws" = .valid key := hsame ▸ hvalid
  exact ⟨hvalid, hvalid', (hgranted h "/ws" key).mp hvalid, (hgranted h' "/ws" key).mp hvalid'⟩

end WebSocketHost.Upgrade
