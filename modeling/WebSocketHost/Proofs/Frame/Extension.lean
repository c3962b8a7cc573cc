import WebSocketHost.Frame.Wire

/-! What has been read from the front of a buffer stays as it is when more
bytes arrive. Only `incomplete` can change: every other verdict of `decode` is
final, also one given before the payload is there. -/
namespace WebSocketHost.Frame

theorem Header.cut?_eq_some_iff {n : Nat} {b front rest : Octets} :
    cut? n b = some (front, rest) ↔ b = front ++ rest ∧ front.length = n := by
  constructor
  · exact cut?_eq_some
  · rintro ⟨rfl, rfl⟩
    simp [cut?]

theorem Header.cut?_append {n : Nat} {b front rest : Octets} (more : Octets)
    (h : cut? n b = some (front, rest)) : cut? n (b ++ more) = some (front, rest ++ more) := by
  obtain ⟨rfl, hlen⟩ := cut?_eq_some_iff.mp h
  rw [cut?_eq_some_iff]
  exact ⟨List.append_assoc .., hlen⟩

theorem Header.readLength?_append {short length : Nat} {b rest : Octets} (more : Octets)
    (h : readLength? short b = some (length, rest)) :
    readLength? short (b ++ more) = some (length, rest ++ more) := by
  have long (n : Nat)
      (hc : (cut? n b).map (fun p => (Octets.toNat p.1, p.2)) = some (length, rest)) :
      (cut? n (b ++ more)).map (fun p => (Octets.toNat p.1, p.2)) =
        some (length, rest ++ more) := by
    obtain ⟨⟨long, r⟩, hcut, heq⟩ := Option.map_eq_some_iff.mp hc
    cases heq
    rw [cut?_append more hcut]
    rfl
  unfold readLength? at h ⊢
  split
  · next hs => exact long 2 (by rwa [if_pos hs] at h)
  · next hs =>
    rw [if_neg hs] at h
    split
    · next hs => exact long 8 (by rwa [if_pos hs] at h)
    · next hs =>
      rw [if_neg hs] at h
      cases h
      rfl

theorem Header.readKey?_append {masked : Bool} {key : Option MaskKey} {b rest : Octets}
    (more : Octets) (h : readKey? masked b = some (key, rest)) :
    readKey? masked (b ++ more) = some (key, rest ++ more) := by
  cases masked with
  | false =>
    cases h
    rfl
  | true =>
    simp only [readKey?, if_true, Option.bind_eq_bind, Option.bind_eq_some_iff] at h ⊢
    obtain ⟨⟨bytes, r⟩, hcut, k, hk, heq⟩ := h
    cases heq
    exact ⟨_, cut?_append more hcut, k, hk, rfl⟩

theorem Header.read?_append {b rest : Octets} {h : Header} (more : Octets)
    (hr : read? b = some (h, rest)) : read? (b ++ more) = some (h, rest ++ more) := by
  match b with
  | [] | [_] => simp [read?] at hr
  | first :: second :: b =>
    simp only [List.cons_append, read?, Option.bind_eq_bind, Option.bind_eq_some_iff] at hr ⊢
    obtain ⟨⟨length, b₁⟩, hlength, ⟨mask, b₂⟩, hkey, heq⟩ := hr
    cases heq
    exact ⟨_, readLength?_append more hlength, _, readKey?_append more hkey, rfl⟩

theorem decode_eq_ok_iff {max : Nat} {b rest : Octets} {f : Frame} :
    decode max b = .ok (f, rest) ↔
      ∃ h sent, Header.read? b = some (h, sent ++ rest) ∧ h.fault? max = none ∧
        sent.length = h.length ∧ f = h.complete sent := by
  unfold decode
  constructor
  · intro h
    split at h
    · cases h
    · next hd b' hread =>
      split at h
      · cases h
      · next hfault =>
        split at h
        · cases h
        · next sent r hcut =>
          cases h
          obtain ⟨rfl, hlen⟩ := Header.cut?_eq_some_iff.mp hcut
          exact ⟨hd, sent, hread, hfault, hlen, rfl⟩
  · rintro ⟨hd, sent, hread, hfault, hlen, rfl⟩
    rw [hread]
    dsimp only
    rw [hfault]
    dsimp only
    rw [Header.cut?_eq_some_iff.mpr ⟨rfl, hlen⟩]

theorem decode_eq_refusal_iff {max : Nat} {b : Octets} {e : DecodeError}
    (he : ∀ available, e ≠ .incomplete available) :
    decode max b = .error e ↔
      ∃ h rest, Header.read? b = some (h, rest) ∧ h.fault? max = some e := by
  unfold decode
  constructor
  · intro h
    split at h
    · cases h
      exact absurd rfl (he _)
    · next hd b' hread =>
      split at h
      · next hfault =>
        cases h
        exact ⟨hd, b', hread, hfault⟩
      · split at h
        · cases h
          exact absurd rfl (he _)
        · cases h
  · rintro ⟨hd, rest, hread, hfault⟩
    rw [hread]
    dsimp only
    rw [hfault]

theorem decode_append_of_ok {max : Nat} {b rest : Octets} {f : Frame} (more : Octets)
    (h : decode max b = .ok (f, rest)) : decode max (b ++ more) = .ok (f, rest ++ more) := by
  obtain ⟨hd, sent, hread, hfault, hlen, rfl⟩ := decode_eq_ok_iff.mp h
  rw [decode_eq_ok_iff]
  refine ⟨hd, sent, ?_, hfault, hlen, rfl⟩
  rw [← List.append_assoc]
  exact Header.read?_append more hread

/-- Also where the payload is not there yet: the header alone was refused. -/
theorem decode_append_of_refusal {max : Nat} {b : Octets} {e : DecodeError} (more : Octets)
    (he : ∀ available, e ≠ .incomplete available) (h : decode max b = .error e) :
    decode max (b ++ more) = .error e := by
  obtain ⟨hd, rest, hread, hfault⟩ := (decode_eq_refusal_iff he).mp h
  exact (decode_eq_refusal_iff he).mpr ⟨hd, _, Header.read?_append more hread, hfault⟩

theorem Header.fault?_ne_incomplete (h : Header) (max available : Nat) :
    h.fault? max ≠ some (.incomplete available) := by
  unfold fault?
  intro hf
  repeat' split at hf
  all_goals simp at hf

theorem available_of_incomplete {max available : Nat} {b : Octets}
    (h : decode max b = .error (.incomplete available)) : available = b.length := by
  unfold decode at h
  split at h
  · cases h
    rfl
  · split at h
    · next hfault =>
      cases h
      exact absurd hfault (Header.fault?_ne_incomplete _ _ _)
    · split at h
      · cases h
        rfl
      · cases h

@[simp] theorem decode_nil (max : Nat) : decode max [] = .error (.incomplete 0) := rfl

end WebSocketHost.Frame
