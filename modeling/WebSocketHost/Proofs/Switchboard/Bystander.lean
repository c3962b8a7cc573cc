import WebSocketHost.Proofs.Switchboard.Given
import WebSocketHost.Proofs.Switchboard.Places

/-! What a move leaves as it was, for a connection that alone has its id. -/
namespace WebSocketHost

namespace Registry

variable {H : Type} {r : Registry H}

theorem mem_of_lookup {id : SessionId} {a : H} (h : r.lookup id = some a) :
    (id, a) ∈ r.entries := by
  obtain ⟨first, later, hentries, -⟩ := List.lookup_eq_some_iff.mp h
  rw [hentries]
  simp

theorem not_mem_of_lookup_eq_none {id : SessionId} (h : r.lookup id = none) (a : H) :
    (id, a) ∉ r.entries := by
  intro hmem
  have hne := List.lookup_eq_none_iff.mp h _ hmem
  simp at hne

theorem mem_of_mem_insert {e : SessionId × H} {id : SessionId} {a : H}
    (h : e ∈ (r.insert id a).entries) : e = (id, a) ∨ e ∈ r.entries := by
  rcases List.mem_cons.mp h with h | h
  · exact .inl h
  · exact .inr (List.mem_of_mem_filter h)

theorem mem_of_mem_unregisterIf {e : SessionId × H} {id : SessionId} {p : H → Bool}
    (h : e ∈ (r.unregisterIf id p).2.entries) : e ∈ r.entries := by
  unfold unregisterIf at h
  split at h
  · split at h
    · exact List.mem_of_mem_filter h
    · exact h
  · exact h

end Registry

namespace Switchboard

variable {b c : Switchboard} {id : SessionId} {n k : Nat}

/-! ### Ids -/

def Move.opens? : Move → Option SessionId
  | openConnection id .. => some id
  | _ => none

theorem ids_wake (b : Switchboard) (n : Nat) : (b.wake n).ids = b.ids := by
  unfold Switchboard.wake
  split <;> rfl

theorem getElem?_ids (b : Switchboard) (n : Nat) : b.ids[n]? = (b.connection? n).map (·.id) :=
  List.getElem?_map

/-- Connections come last, and keep their ids. -/
theorem ids_move (b : Switchboard) (m : Move) : (b.move m).ids = b.ids ++ m.opens?.toList := by
  cases hm : m.isOpening with
  | true =>
    cases m with
    | openConnection id =>
      refine (ids_wake _ _).trans ?_
      simp [ids, Move.opens?, Connection.opened]
    | _ => cases hm
  | false =>
    have hnone : m.opens? = none := by
      cases m with
      | openConnection => cases hm
      | _ => rfl
    rw [hnone, Option.toList_none, List.append_nil]
    apply List.ext_getElem?
    intro k
    rw [getElem?_ids, getElem?_ids]
    cases hc : b.connection? k with
    | some c =>
      obtain ⟨d, hd, hid, -⟩ := (b.outcome_move m).connection? hc
      simp [hd, hid]
    | none =>
      have hlength := b.length_move hm
      have hk : b.connections.length ≤ k := List.getElem?_eq_none_iff.mp hc
      have hd : (b.move m).connection? k = none := by
        apply List.getElem?_eq_none
        omega
      rw [hd]

/-- A number is that of the one connection of an id. -/
structure IsSole (b : Switchboard) (id : SessionId) (n : Nat) : Prop where
  has : b.ids[n]? = some id
  only : ∀ k, b.ids[k]? = some id → k = n

theorem IsSole.move (h : b.IsSole id n) {m : Move} (hm : m.opens? ≠ some id) :
    (b.move m).IsSole id n := by
  have hn : n < b.ids.length := (List.getElem?_eq_some_iff.mp h.has).1
  constructor
  · rw [ids_move, List.getElem?_append_left hn]
    exact h.has
  · intro k hk
    rw [ids_move] at hk
    by_cases hlt : k < b.ids.length
    · rw [List.getElem?_append_left hlt] at hk
      exact h.only k hk
    · rw [List.getElem?_append_right (Nat.le_of_not_lt hlt)] at hk
      have hmem := List.mem_of_getElem? hk
      exact absurd (Option.mem_toList.mp hmem) hm

/-! ### The registry -/

/-- Who is registered is there, under its own id. -/
def Owned (b : Switchboard) : Prop := ∀ e ∈ b.hub.registry.entries, b.ids[e.2]? = some e.1

theorem Owned.lookup (h : b.Owned) (hk : b.lookup id = some k) : b.ids[k]? = some id :=
  h _ (Registry.mem_of_lookup hk)

theorem owned_move (h : b.Owned) (m : Move) : (b.move m).Owned := by
  have hids : ∀ e : SessionId × Nat, b.ids[e.2]? = some e.1 → (b.move m).ids[e.2]? = some e.1 := by
    intro e he
    rw [ids_move, List.getElem?_append_left (List.getElem?_eq_some_iff.mp he).1]
    exact he
  have houtcome := b.outcome_move m
  intro e he
  rw [houtcome.hub] at he
  cases hdeed : b.deed? m with
  | none =>
    rw [hdeed] at he
    exact hids e (h e he)
  | some deed =>
    rw [hdeed] at he houtcome
    cases deed with
    | cleared => cases he
    | task k i effect =>
      cases effect with
      | emit => exact hids e (h e he)
      | unregister => exact hids e (h e (Registry.mem_of_mem_unregisterIf he))
      | register =>
        rcases Registry.mem_of_mem_insert he with rfl | he
        · obtain ⟨c, hc, hid, -⟩ := houtcome.connection?_of_task
          apply hids
          rw [getElem?_ids, hc, ← hid]
          rfl
        · exact hids e (h e he)

/-! ### A connection that a move is not about -/

/-- A move that is not about the connection of a number and an id, nor about all there are. -/
def Move.Spares (id : SessionId) (n : Nat) : Move → Prop
  | step k | arrive k _ | horizon k _ | outlet k _ | collect k | send k _ | cancel k | hold k
  | release k => k ≠ n
  | openConnection i .. => i ≠ id
  | skip | advance _ => True
  | evict | shutdown => False

theorem Move.Spares.opens?_ne {m : Move} (h : m.Spares id n) : m.opens? ≠ some id := by
  cases m with
  | openConnection => exact fun heq => h (Option.some.inj heq)
  | _ => nofun

theorem IsSole.id_ne (h : b.IsSole id n) (hk : k ≠ n) {c : Connection}
    (hc : b.connection? k = some c) : c.id ≠ id := by
  intro hid
  apply hk
  apply h.only k
  rw [getElem?_ids, hc, ← hid]
  rfl

theorem connection?_foldl_wake (b : Switchboard) (ns : List Nat) (n : Nat) :
    (ns.foldl Switchboard.wake b).connection? n = b.connection? n := by
  induction ns generalizing b with
  | nil => rfl
  | cons k ns ih => exact (ih (b.wake k)).trans (connection?_wake b k n)

theorem connection?_touch_of_ne (b : Switchboard) (f : Connection → Connection) (h : k ≠ n) :
    (b.touch k f).connection? n = b.connection? n := by
  rw [connection?_touch]
  simp [h]

theorem connection?_apply_of_ne {effect : Effect}
    (h : effect = .register → b.lookup id ≠ some n) :
    (b.apply k id effect).connection? n = b.connection? n := by
  cases effect with
  | emit | unregister => rfl
  | register =>
    unfold Switchboard.apply Registry.register
    dsimp only
    split
    · next stale hstale =>
      have hne : stale ≠ n := by
        rintro rfl
        exact h rfl hstale
      exact connection?_touch_of_ne _ _ hne
    · rfl

theorem connection?_set_of_ne (b : Switchboard) (d : Connection) (h : k ≠ n) :
    connection? { b with connections := b.connections.set k d } n = b.connection? n :=
  List.getElem?_set_ne h

theorem connection?_step_of_ne (howned : b.Owned) (hsole : b.IsSole id n) (hk : k ≠ n) :
    (b.move (.step k)).connection? n = b.connection? n := by
  unfold move stepAt
  dsimp only
  cases hc : b.connection? k with
  | none => rfl
  | some c =>
    dsimp only
    cases c.step b.now (b.isHeld k) with
    | none => rfl
    | some p =>
      obtain ⟨effect, d⟩ := p
      cases effect with
      | none => exact connection?_set_of_ne b d hk
      | some effect =>
        -- Who is put out of the place of another id has that id.
        have hstale : b.lookup c.id ≠ some n := by
          intro hn
          have hid := (howned.lookup hn).symm.trans hsole.has
          exact hsole.id_ne hk hc (Option.some.inj hid)
        refine (connection?_apply_of_ne fun _ => ?_).trans (connection?_set_of_ne b d hk)
        exact hstale

section Spares

variable {m : Move}

theorem connection?_of_spares (howned : b.Owned) (hsole : b.IsSole id n) (h : m.Spares id n) :
    (b.move m).connection? n = b.connection? n := by
  cases m with
  | step k => exact connection?_step_of_ne howned hsole h
  | arrive k | horizon k | outlet k | cancel k => exact connection?_touch_of_ne b _ h
  | skip | hold => rfl
  | collect k =>
    unfold move takeWritten
    dsimp only
    split
    · rfl
    · split
      · rfl
      · exact connection?_set_of_ne b _ h
  | send k m =>
    unfold move send
    dsimp only
    split
    · exact (connection?_wake _ _ _).trans (connection?_set_of_ne b _ h)
    · rfl
  | release k => exact connection?_wake _ k n
  | advance nanos => exact connection?_foldl_wake { b with now := b.now + nanos } _ n
  | openConnection i =>
    have hn : n < b.connections.length := by
      have := (List.getElem?_eq_some_iff.mp hsole.has).1
      rwa [ids, List.length_map] at this
    refine (connection?_wake _ _ n).trans ?_
    exact List.getElem?_append_left hn
  | evict | shutdown => exact h.elim

theorem lookup_of_deed?_eq_none (hdeed : b.deed? m = none) :
    (b.move m).lookup id = b.lookup id := by
  unfold lookup
  rw [(b.outcome_move m).hub, hdeed]
  rfl

theorem effect?_eq_some {deed : Deed} (h : b.effect? k = some deed) :
    ∃ c effect d, b.connection? k = some c ∧
      c.step b.now (b.isHeld k) = some (some effect, d) ∧ deed = .task k c.id effect := by
  unfold effect? at h
  obtain ⟨c, hc, h⟩ := Option.bind_eq_some_iff.mp h
  obtain ⟨p, hstep, h⟩ := Option.bind_eq_some_iff.mp h
  obtain ⟨effect, d⟩ := p
  obtain ⟨effect, rfl, rfl⟩ := Option.map_eq_some_iff.mp h
  exact ⟨c, effect, d, hc, hstep, rfl⟩

theorem lookup_of_spares (hsole : b.IsSole id n) (h : m.Spares id n) :
    (b.move m).lookup id = b.lookup id := by
  cases hdeed : b.deed? m with
  | none => exact lookup_of_deed?_eq_none hdeed
  | some deed =>
    cases m with
    | step k =>
      obtain ⟨c, effect, d, hc, -, rfl⟩ := effect?_eq_some hdeed
      have hid := hsole.id_ne h hc
      unfold lookup
      rw [(b.outcome_move _).hub, hdeed]
      cases effect with
      | emit => rfl
      | register => exact (Registry.lookup_insert ..).trans (if_neg (Ne.symm hid))
      | unregister =>
        exact (Registry.lookup_unregisterIf ..).trans (if_neg fun hboth => hid hboth.1)
    | evict => exact h.elim
    | _ => cases hdeed

theorem count_outside_of_spares (h : m.Spares id n) :
    (b.move m).outside.count n = b.outside.count n := by
  rw [(b.kept_move m).outside]
  cases m with
  | hold k => exact List.count_cons_of_ne h
  | release k => exact List.count_erase_of_ne (Ne.symm h)
  | _ => rfl

theorem aboutOf_entries_of_spares (h : m.Spares id n) : aboutOf n (b.entries m) = [] := by
  cases m with
  | step k =>
    unfold entries
    dsimp only
    split
    · rfl
    · split
      · rfl
      · rw [aboutOf_map, if_neg h]
  | send k m =>
    unfold entries
    dsimp only
    split
    · rfl
    · next c hc => exact (aboutOf_map k n [.offer m (c.enqueue? m).isSome]).trans (if_neg h)
  | _ => rfl

end Spares

theorem lt_of_mem_entries {m : Move} {e : Nat × Entry} (h : e ∈ b.entries m) :
    e.1 < b.connections.length := by
  have hlt : ∀ {k c}, b.connection? k = some c → k < b.connections.length := fun hc =>
    (List.getElem?_eq_some_iff.mp hc).1
  cases m with
  | step k =>
    unfold entries at h
    dsimp only at h
    split at h
    · cases h
    next c hc =>
    split at h
    · cases h
    · obtain ⟨entry, -, rfl⟩ := List.mem_map.mp h
      exact hlt hc
  | send k m =>
    unfold entries at h
    dsimp only at h
    split at h
    · cases h
    next c hc =>
    cases List.mem_singleton.mp h
    exact hlt hc
  | _ => cases h

/-! ### What is told by a step -/

theorem told_account (c : Connection) (now : Nat) (effect : Option Effect) (d : Connection) :
    (c.account now effect d).told = (effect.bind Effect.event?).toList := by
  unfold Log.told
  rw [Connection.effects_account]
  cases effect with
  | none => rfl
  | some effect => cases effect <;> rfl

theorem toldAs_map (id : SessionId) (n : Nat) (log : Log) :
    toldAs id (log.map (n, ·)) = log.told.filter (·.sessionId = id) := by
  unfold toldAs Log.told Log.effects
  rw [List.filterMap_map, List.filterMap_filterMap]
  rfl

/-- A step tells of the connection that takes it. -/
theorem toldAs_step {c d : Connection} {now : Nat} {isHeld : Bool} {effect : Option Effect}
    (hstep : c.step now isHeld = some (effect, d)) (id : SessionId) (k : Nat) :
    toldAs id ((c.account now effect d).map (k, ·)) =
      if c.id = id then (effect.bind Effect.event?).toList else [] := by
  rw [toldAs_map, told_account]
  have hid := (Connection.transition_of_step hstep).id_eq.2.2
  cases effect with
  | none => simp
  | some effect =>
    cases effect with
    | register | unregister => simp [Effect.event?]
    | emit e =>
      have hid := hid e rfl
      by_cases hc : c.id = id <;> simp [Effect.event?, hid, hc]

theorem toldAs_entries_of_no_step {m : Move} (h : ∀ k, m ≠ .step k) :
    toldAs id (b.entries m) = [] := by
  cases m with
  | step k => exact absurd rfl (h k)
  | send k m =>
    unfold entries
    dsimp only
    split <;> rfl
  | _ => rfl

theorem written_entries_of_no_step {m : Move} (h : ∀ k, m ≠ .step k) (n : Nat) :
    (aboutOf n (b.entries m)).written = [] := by
  cases m with
  | step k => exact absurd rfl (h k)
  | send k m =>
    unfold entries
    dsimp only
    split
    · rfl
    · next c hc =>
      refine (congrArg Log.written (aboutOf_map k n [.offer m (c.enqueue? m).isSome])).trans ?_
      split <;> rfl
  | _ => rfl

theorem toldAs_entries_of_ne (hk : ∀ c, b.connection? k = some c → c.id ≠ id) :
    toldAs id (b.entries (.step k)) = [] := by
  unfold entries
  dsimp only
  split
  · rfl
  next c hc =>
  split
  · rfl
  next effect d hstep =>
  rw [toldAs_step hstep, if_neg (hk c hc)]

theorem toldAs_entries_of_spares (hsole : b.IsSole id n) {m : Move} (h : m.Spares id n) :
    toldAs id (b.entries m) = [] := by
  cases m with
  | step k => exact toldAs_entries_of_ne fun c hc => hsole.id_ne h hc
  | _ => exact toldAs_entries_of_no_step nofun

end Switchboard

end WebSocketHost
