import WebSocketHost.Proofs.Frame.RoundTrip
import WebSocketHost.Proofs.Text.Boundary
import WebSocketHost.Session

/-! The frame that starts a closing handshake: how much of the reason it carries, its bytes, and
that the other end takes it for what it is. -/
namespace WebSocketHost

namespace CloseNotice

theorem prefix_fit {front : List Char} (cs : List Char) (room : Nat) (h : front <+: cs)
    (hroom : (Text.utf8 (String.ofList front)).length ≤ room) : front <+: fit room cs := by
  induction cs generalizing front room with
  | nil => exact h
  | cons c cs ih =>
    cases front with
    | nil => exact List.nil_prefix
    | cons c' front =>
      rw [List.cons_prefix_cons] at h
      obtain ⟨rfl, hfront⟩ := h
      rw [Text.length_utf8_ofList_cons] at hroom
      rw [fit, if_pos (by omega), List.prefix_cons_inj]
      exact ih _ hfront (by omega)

/-- A notice carries as much of the reason as there is room for. -/
theorem isLongestFront (code : CloseCode) (reason : String) :
    Text.IsLongestFront maxReason reason (ofReason code reason).reason where
  split := by
    obtain ⟨rest, hrest⟩ := fit_prefix maxReason reason.toList
    refine ⟨.ofList rest, ?_⟩
    rw [ofReason, ← String.ofList_append, hrest, String.ofList_toList]
  fits := length_utf8_fit_le maxReason reason.toList
  longest := by
    intro front rest hs hroom
    have hfront : front.toList <+: reason.toList := by
      rw [hs, String.toList_append]
      exact List.prefix_append _ _
    obtain ⟨more, hmore⟩ :=
      prefix_fit reason.toList maxReason hfront (by rwa [String.ofList_toList])
    rw [ofReason, ← hmore, String.ofList_append, String.ofList_toList, Text.utf8_append,
      List.length_append]
    omega

theorem payload_eq (n : CloseNotice) :
    n.payload = UInt8.ofNat (n.code.value.toNat / 256) :: UInt8.ofNat n.code.value.toNat ::
      Text.utf8 n.reason := by
  rw [payload, CloseCode.toOctets_eq]
  rfl

theorem length_payload (n : CloseNotice) : n.payload.length = 2 + (Text.utf8 n.reason).length := by
  rw [payload, List.length_append, CloseCode.length_toOctets]

theorem length_payload_le (code : CloseCode) (reason : String) :
    (ofReason code reason).payload.length ≤ Frame.maxControlPayload := by
  have hfits := (isLongestFront code reason).fits
  have hroom : 2 + maxReason = Frame.maxControlPayload := rfl
  rw [length_payload]
  omega

/-- The length of a control frame has its place in the second byte. -/
theorem encode_frame {n : CloseNotice} (h : n.payload.length ≤ Frame.maxControlPayload) :
    n.frame.encode = 0x88 :: UInt8.ofNat n.payload.length :: n.payload := by
  have hshort : n.payload.length < 126 := Nat.lt_succ_of_le h
  have hfield : Frame.Header.lengthField n.payload.length = (n.payload.length, []) :=
    if_pos hshort
  have hheader : n.frame.header.encode = [0x88, UInt8.ofNat n.payload.length] := by
    simp only [Frame.Header.encode, Frame.header, frame, Frame.whole, hfield]
    rw [show (none : Option MaskKey).isSome.toNat * 128 + n.payload.length = n.payload.length from
      Nat.zero_add _]
    rfl
  rw [Frame.encode, hheader]
  rfl

end CloseNotice

namespace Session

/-- A close frame carries the longest front of the reason that fits beside the code, however many
bytes its characters take; a search back from the end of the room finds where that front ends. The
other end reads the code, the front and nothing else out of the frame. -/
theorem initiateClose_cuts_reason (code : CloseCode) (reason : String) :
    let notice := CloseNotice.ofReason code reason
    let payload := notice.payload
    (Text.IsLongestFront 123 reason notice.reason ∧
      ((Text.utf8 reason).length ≤ 123 → notice.reason = reason)) ∧
    (∃ turns ≤ 3, ∀ turns' found,
      Text.Search (Text.utf8 reason) (min (Text.utf8 reason).length 123) turns' found ↔
        turns' = turns ∧ found = (Text.utf8 notice.reason).length) ∧
    (payload = UInt8.ofNat (code.value.toNat / 256) :: UInt8.ofNat code.value.toNat ::
        Text.utf8 notice.reason ∧
      payload.length ≤ 125 ∧ Text.ofUtf8? (payload.drop 2) = some notice.reason ∧
      CloseCode.ofPayload? payload = some code) ∧
    ∀ s : Session, s.awaitingClose = false →
      ∃ sent, (s.initiateClose code reason).1 = some sent ∧
        sent = 0x88 :: UInt8.ofNat payload.length :: payload ∧
        ∀ max rest, 125 ≤ max →
          Frame.decode max (sent ++ rest) = .ok (⟨.close, payload, true, 0, none⟩, rest) := by
  intro notice payload
  have hfront : Text.IsLongestFront 123 reason notice.reason :=
    CloseNotice.isLongestFront code reason
  have hpayload : payload = _ := notice.payload_eq
  have hlen : payload.length ≤ 125 := CloseNotice.length_payload_le code reason
  refine ⟨⟨hfront, hfront.eq_of_fits⟩, hfront.search, ⟨hpayload, hlen, ?_, ?_⟩, ?_⟩
  · rw [hpayload]
    exact Text.ofUtf8?_utf8 _
  · exact notice.ofPayload?_payload
  · intro s hopen
    refine ⟨notice.frame.encode, ?_, CloseNotice.encode_frame hlen, fun max rest hmax => ?_⟩
    · rw [initiateClose, hopen]
      rfl
    · have hok : notice.frame.Acceptable max :=
        Frame.acceptable_control (.inl rfl) rfl rfl hlen (hlen.trans hmax)
      exact Frame.decode_encode_append hok rest

/-- Sixty-two characters of two bytes each: the last one would end one byte too late, so the search
takes one turn and finds byte 122. -/
theorem initiateClose_cuts_reason_inside_character :
    let reason := String.ofList (List.replicate 62 'é')
    let notice := CloseNotice.ofReason .normal reason
    notice.reason = String.ofList (List.replicate 61 'é') ∧
      (∀ turns found, Text.Search (Text.utf8 reason) 123 turns found ↔ turns = 1 ∧ found = 122) ∧
      ∃ sent, ((ofMaxFrame 1024).initiateClose .normal reason).1 = some sent ∧
        sent.take 4 = [0x88, 124, 0x03, 0xE8] ∧
        Frame.decode 125 sent = .ok (⟨.close, notice.payload, true, 0, none⟩, []) := by
  intro reason notice
  obtain ⟨_, ⟨turns, _, hsearch⟩, ⟨hpayload, _⟩, hsent⟩ := initiateClose_cuts_reason .normal reason
  have hkept : notice.reason = String.ofList (List.replicate 61 'é') := by decide +kernel
  have hbytes : (Text.utf8 notice.reason).length = 122 := by
    rw [hkept]
    decide +kernel
  have hstart : min (Text.utf8 reason).length 123 = 123 := by decide +kernel
  rw [hstart, hbytes] at hsearch
  have hturn : Text.Search (Text.utf8 reason) 123 1 122 :=
    .back (by decide +kernel) (.stop (by decide +kernel))
  obtain ⟨sent, hcall, hwire, hdecode⟩ := hsent (ofMaxFrame 1024) rfl
  have hread := hdecode 125 [] (Nat.le_refl 125)
  rw [List.append_nil] at hread
  have hlen : (CloseNotice.ofReason .normal reason).payload.length = 124 := by
    rw [CloseNotice.length_payload, hbytes]
  obtain ⟨rfl, _⟩ := (hsearch 1 122).mp hturn
  refine ⟨hkept, hsearch, sent, hcall, ?_, hread⟩
  rw [hwire, hlen, hpayload]
  rfl

end Session

end WebSocketHost
