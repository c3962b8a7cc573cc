import WebSocketHost.Proofs.Switchboard.Bystander
import WebSocketHost.Proofs.Switchboard.View

/-! A view kept of the one connection of an id in a run with many: what is given to the
connection changes the view, and nothing else does. -/
namespace WebSocketHost

open Switchboard (Act Move Touch)

namespace Switchboard

variable (b : Switchboard) (n : Nat)

theorem connection?_touch_self (f : Connection → Connection) :
    (b.touch n f).connection? n = (b.connection? n).map f := by
  rw [connection?_touch]
  simp

theorem connection?_collect :
    (b.takeWritten n).2.connection? n = (b.connection? n).map Connection.collected := by
  unfold takeWritten
  cases hc : b.connection? n with
  | none => exact hc
  | some c =>
    unfold Connection.collected
    dsimp only [Option.map_some]
    split
    · exact hc
    · exact (connection?_set hc n).trans (if_pos rfl)

theorem connection?_send (m : Message) :
    (b.send n m).2.connection? n = (b.connection? n).map (·.offered m) := by
  unfold send
  cases hc : b.connection? n with
  | none => exact hc
  | some c =>
    unfold Connection.offered
    dsimp only [Option.bind_some, Option.map_some]
    cases c.enqueue? m with
    | none => exact hc
    | some d => exact (connection?_wake _ n n).trans ((connection?_set hc n).trans (if_pos rfl))

theorem connection?_foldl_cancel (ns : List Nat) :
    (ns.foldl cancel b).connection? n =
      (b.connection? n).map fun c => if n ∈ ns then c.cancel else c := by
  induction ns generalizing b with
  | nil => simp
  | cons k ns ih =>
    rw [List.foldl_cons, ih, cancel, connection?_touch, Option.map_map]
    apply congrArg (Option.map · _)
    funext c
    by_cases hk : k = n <;> by_cases hn : n ∈ ns <;> simp [hk, hn, Ne.symm, Connection.cancel]

theorem connection?_apply_self {b : Switchboard} {n : Nat} {c : Connection}
    (hc : b.connection? n = some c) (id : SessionId) (effect : Effect) :
    (b.apply n id effect).connection? n =
      some (if effect = .register ∧ b.lookup id = some n then c.cancel else c) := by
  cases effect with
  | emit | unregister => exact hc
  | register =>
    unfold apply Registry.register lookup
    dsimp only
    cases b.hub.registry.lookup id with
    | none => exact hc
    | some stale =>
      dsimp only
      rw [cancel, connection?_touch]
      show (b.connection? n).map _ = _
      rw [hc]
      simp

/-- What a step comes to. -/
structure Stepped (b : Switchboard) (n : Nat) (c : Connection) (effect : Option Effect)
    (d : Connection) : Prop where
  deed : b.deed? (.step n) = effect.map (.task n c.id)
  entries : b.entries (.step n) = (c.account b.now effect d).map (n, ·)
  connection : (b.move (.step n)).connection? n =
    some (if effect = some .register ∧ b.lookup c.id = some n then d.cancel else d)

theorem stepped {b : Switchboard} {n : Nat} {c d : Connection} {effect : Option Effect}
    (hc : b.connection? n = some c) (hstep : c.step b.now (b.isHeld n) = some (effect, d)) :
    Stepped b n c effect d where
  deed := by simp [deed?, effect?, hc, hstep]
  entries := by simp [entries, hc, hstep]
  connection := by
    have hset : connection? { b with connections := b.connections.set n d } n = some d :=
      (connection?_set hc n).trans (if_pos rfl)
    cases effect with
    | none => simpa [move, stepAt, hc, hstep] using hset
    | some effect =>
      have happly := connection?_apply_self hset c.id effect
      cases effect <;> simpa [move, stepAt, hc, hstep, lookup] using happly

theorem connection?_shutdown : b.shutdown.connection? n = (b.connection? n).map .cancel := by
  unfold shutdown
  rw [connection?_foldl_cancel]
  show (b.connection? n).map _ = _
  cases hc : b.connection? n with
  | none => rfl
  | some c =>
    have hn : n < b.connections.length := (List.getElem?_eq_some_iff.mp hc).1
    simp [hn]

end Switchboard

/-- A move from outside, at one moment, that leaves the registry as it is. -/
def Switchboard.Move.isOuter : Move → Bool
  | .step _ | .openConnection .. | .evict | .advance _ => false
  | _ => true

namespace View

/-! ### A view of a run -/

/-- A view shows the one connection of an id, opened at a time `start`, and `t` has passed. -/
structure Shows (id : SessionId) (n start : Nat) (v : View) (t : Nat) (j : Journal) : Prop where
  owned : j.board.Owned
  sole : j.board.IsSole id n
  connection : j.board.connection? n = some (v.connection.retimed (start + ·))
  clock : j.board.now = start + t
  lookup : j.board.lookup id = if v.isRegistered then some n else none
  handles : j.board.outside.count n = v.handles
  told : toldAs id j.entries = v.told
  written : (j.of n).written = v.written

namespace Shows

variable {id : SessionId} {n start t : Nat} {v w : View} {j : Journal} {m : Move}

theorem id_eq (h : Shows id n start v t j) : v.connection.id = id := by
  have hid := h.sole.has
  rw [Switchboard.getElem?_ids, h.connection] at hid
  exact Option.some.inj hid

theorem isHeld (h : Shows id n start v t j) :
    j.board.isHeld n = (v.isRegistered || decide (0 < v.handles)) := by
  have hentries : j.board.hub.registry.entries.any (·.2 = n) = v.isRegistered := by
    have hlookup := h.lookup
    cases hv : v.isRegistered with
    | true =>
      rw [hv] at hlookup
      exact List.any_eq_true.mpr ⟨_, Registry.mem_of_lookup hlookup, decide_eq_true rfl⟩
    | false =>
      rw [hv] at hlookup
      apply List.any_eq_false.mpr
      intro e he hn
      have hn : e.2 = n := of_decide_eq_true hn
      have hid := h.owned e he
      rw [hn, h.sole.has] at hid
      have hmem : (id, n) ∈ j.board.hub.registry.entries := by
        rw [Option.some.inj hid, ← hn]
        exact he
      exact Registry.not_mem_of_lookup_eq_none hlookup n hmem
  have houtside : j.board.outside.contains n = decide (0 < v.handles) := by
    rw [← h.handles, Bool.eq_iff_iff]
    simp [List.count_pos_iff]
  unfold Switchboard.isHeld
  rw [hentries, houtside]

theorem ofId (h : Shows id n start v t j) : j.ofId id = j.of n := by
  unfold Journal.ofId Journal.of aboutOf
  apply List.filterMap_congr
  intro e _
  have hn : j.board.ids[e.1]? = some id ↔ e.1 = n := by
    constructor
    · exact h.sole.only e.1
    · rintro rfl
      exact h.sole.has
  simp [hn]

theorem sight (h : Shows id n start v t j) : j.sight id = v.sight := by
  have hlookup : j.board.hub.registry.lookup id = if v.isRegistered then some n else none :=
    h.lookup
  have hopen : j.board.isOpen n = v.connection.isOpen := by
    unfold Switchboard.isOpen
    rw [h.connection]
    exact v.connection.isOpen_retimed _
  unfold Journal.sight View.sight Switchboard.isActive Registry.isActive Registry.contains
  rw [h.told, h.ofId, h.written, hlookup]
  cases v.isRegistered with
  | true => simp [hopen]
  | false => rfl

/-- What a view has to show of a move, for it to show what comes of it. -/
theorem of_move (h : Shows id n start v t j) {t' : Nat} (hopens : m.opens? ≠ some id)
    (hconnection : (j.board.move m).connection? n = some (w.connection.retimed (start + ·)))
    (hclock : m.clock (start + t) = start + t')
    (hlookup : (j.board.move m).lookup id = if w.isRegistered then some n else none)
    (hhandles : (m.outside j.board.outside).count n = w.handles)
    (htold : w.told = v.told ++ toldAs id (j.board.entries m))
    (hwritten : w.written = v.written ++ (aboutOf n (j.board.entries m)).written) :
    Shows id n start w t' (j.move m) where
  owned := Switchboard.owned_move h.owned m
  sole := h.sole.move hopens
  connection := hconnection
  clock := by
    show (j.board.move m).now = _
    rw [(j.board.kept_move m).now]
    show m.clock j.board.now = _
    rw [h.clock, hclock]
  lookup := hlookup
  handles := by
    show (j.board.move m).outside.count n = _
    rw [(j.board.kept_move m).outside]
    exact hhandles
  told := by
    show toldAs id (j.entries ++ _) = _
    rw [htold, ← h.told]
    unfold toldAs
    rw [List.filterMap_append, List.filter_append]
  written := by
    rw [Journal.of_move, Log.written_append, h.written, hwritten]

/-- Moves that are not about the connection leave the view as it is. -/
theorem spares (h : Shows id n start v t j) (hm : m.Spares id n) :
    Shows id n start v (m.clock t) (j.move m) := by
  apply h.of_move hm.opens?_ne
  · rw [Switchboard.connection?_of_spares h.owned h.sole hm]
    exact h.connection
  · cases m with
    | advance => exact Nat.add_assoc ..
    | _ => rfl
  · rw [Switchboard.lookup_of_spares h.sole hm]
    exact h.lookup
  · rw [← h.handles]
    have hcount := Switchboard.count_outside_of_spares (b := j.board) hm
    rw [(j.board.kept_move m).outside] at hcount
    exact hcount
  · rw [Switchboard.toldAs_entries_of_spares h.sole hm, List.append_nil]
  · rw [Switchboard.aboutOf_entries_of_spares hm]
    exact (List.append_nil _).symm

/-- Moves from outside change a connection, or the handles to it. -/
theorem outer (h : Shows id n start v t j) (m : Move) (hm : m.isOuter = true)
    {f : Connection → Connection} {handles : Nat} (hf : Connection.IsTimeless f)
    (hconnection : (j.board.move m).connection? n = (j.board.connection? n).map f)
    (hhandles : (m.outside j.board.outside).count n = handles) :
    Shows id n start { v.change f with handles } t (j.move m) := by
  have hstep : ∀ k, m ≠ .step k := by
    rintro k rfl
    cases hm
  apply h.of_move
  · cases m with
    | openConnection => cases hm
    | _ => nofun
  · rw [hconnection, h.connection]
    exact congrArg some (hf.retimed _ _)
  · cases m with
    | advance => cases hm
    | _ => rfl
  · have hdeed : j.board.deed? m = none := by
      cases m with
      | step | evict => cases hm
      | _ => rfl
    rw [Switchboard.lookup_of_deed?_eq_none hdeed]
    exact h.lookup
  · exact hhandles
  · rw [Switchboard.toldAs_entries_of_no_step hstep]
    exact (List.append_nil _).symm
  · rw [Switchboard.written_entries_of_no_step hstep]
    exact (List.append_nil _).symm

theorem send (h : Shows id n start v t j) (message : Message) :
    Shows id n start (v.change (·.offered message)) t (j.move (.send n message)) :=
  h.outer (.send n message) rfl (Connection.isTimeless_offered message)
    (j.board.connection?_send n message) h.handles

theorem onTransport (h : Shows id n start v t j) (m : Move) (hm : m.isOuter = true)
    {f : Transport → Transport}
    (hmove : j.board.move m = j.board.touch n (Switchboard.onTransport f))
    (houtside : m.outside j.board.outside = j.board.outside) :
    Shows id n start (v.change (Switchboard.onTransport f)) t (j.move m) := by
  apply h.outer m hm (Connection.isTimeless_onTransport f)
  · rw [hmove]
    exact j.board.connection?_touch_self n _
  · rw [houtside]
    exact h.handles

theorem touch (h : Shows id n start v t j) (x : Touch) :
    Shows id n start (v.touch x) t (j.move (x.move n)) := by
  cases x with
  | arrive chunk => exact h.onTransport (.arrive n chunk) rfl rfl rfl
  | horizon x => exact h.onTransport (.horizon n x) rfl rfl rfl
  | outlet x => exact h.onTransport (.outlet n x) rfl rfl rfl
  | cancel =>
    exact h.outer (.cancel n) rfl Connection.isTimeless_cancel
      (j.board.connection?_touch_self n _) h.handles
  | collect =>
    exact h.outer (.collect n) rfl Connection.isTimeless_collected
      (j.board.connection?_collect n) h.handles
  | send m => exact h.send m
  | release =>
    have hhandles : (j.board.outside.erase n).count n = v.handles - 1 := by
      rw [List.count_erase_self, h.handles]
    refine h.outer (.release n) rfl Connection.isTimeless_self ?_ hhandles
    rw [Option.map_id']
    exact Switchboard.connection?_wake _ n n

theorem keep (h : Shows id n start v t j) :
    Shows id n start { v with handles := v.handles + 1 } t (j.move (.hold n)) := by
  have hhandles : (n :: j.board.outside).count n = v.handles + 1 := by
    rw [List.count_cons_self, h.handles]
  refine h.outer (.hold n) rfl Connection.isTimeless_self ?_ hhandles
  rw [Option.map_id']
  rfl

theorem shutdown (h : Shows id n start v t j) :
    Shows id n start (v.change .cancel) t (j.move .shutdown) :=
  h.outer .shutdown rfl Connection.isTimeless_cancel (j.board.connection?_shutdown n) h.handles

theorem evict (h : Shows id n start v t j) :
    Shows id n start { v with isRegistered := false } t (j.move .evict) := by
  apply h.of_move
  · nofun
  · rw [← h.connection]
    exact Switchboard.connection?_foldl_wake _ _ n
  · rfl
  · unfold Switchboard.lookup
    rw [(j.board.outcome_move .evict).hub]
    rfl
  · exact h.handles
  · exact (List.append_nil _).symm
  · exact (List.append_nil _).symm

/-- A step of the connection is a step of the view. -/
theorem step (h : Shows id n start v t j) :
    Shows id n start (v.step t) t (j.move (.step n)) := by
  have hdue (d : Nat) : start + d ≤ start + t ↔ d ≤ t := Nat.add_le_add_iff_left
  have hset : start + (t + v.connection.closeTimeout.nanos) =
      start + t + v.connection.closeTimeout.nanos := (Nat.add_assoc ..).symm
  have hstep := v.connection.step_retimed (j.board.isHeld n) hset fun d _ => hdue d
  rw [← h.clock, h.isHeld] at hstep
  unfold View.step
  cases hown : v.connection.step t (v.isRegistered || decide (0 < v.handles)) with
  | none =>
    rw [hown, Option.map_none] at hstep
    have hmove : j.move (.step n) = j := by
      simp [Journal.move, Switchboard.move, Switchboard.stepAt, Switchboard.entries, h.connection,
        h.isHeld, hstep]
    rw [hmove]
    exact h
  | some p =>
    obtain ⟨effect, d⟩ := p
    rw [hown, Option.map_some, ← h.isHeld] at hstep
    have hstepped := Switchboard.stepped h.connection hstep
    dsimp only
    apply h.of_move
    · simp [Move.opens?]
    · have hlookup : j.board.lookup id = some n ↔ v.isRegistered = true := by
        rw [h.lookup]
        cases v.isRegistered <;> simp
      rw [hstepped.connection, Connection.retimed_id, h.id_eq]
      simp only [hlookup]
      split <;> rfl
    · rfl
    · have hdeed := hstepped.deed
      have hlookup := h.lookup
      unfold Switchboard.lookup at hlookup ⊢
      rw [(j.board.outcome_move (.step n)).hub, hdeed, Connection.retimed_id, h.id_eq]
      cases effect with
      | none => exact hlookup
      | some effect =>
        cases effect with
        | emit => exact hlookup
        | register => exact (Registry.lookup_insert ..).trans (if_pos rfl)
        | unregister =>
          refine (Registry.lookup_unregisterIf ..).trans ?_
          rw [hlookup]
          cases v.isRegistered <;> simp
    · exact h.handles
    · rw [hstepped.entries, Switchboard.toldAs_step hstep, Connection.retimed_id, if_pos h.id_eq]
    · rw [hstepped.entries, aboutOf_map, if_pos rfl, Connection.written_account,
        Connection.written_account, h.clock, v.connection.write?_retimed fun d _ => hdue d]

/-- What is sent to another id, or kept of it, goes to another connection. -/
theorem ne_of_lookup (h : Shows id n start v t j) {i : SessionId} {k : Nat} (hi : i ≠ id)
    (hk : j.board.lookup i = some k) : k ≠ n := by
  rintro rfl
  have hids := (h.owned.lookup hk).symm.trans h.sole.has
  exact hi (Option.some.inj hids)

theorem act_to_other (h : Shows id n start v t j) {a : Act} {i : SessionId} {f : Nat → Move}
    (ha : a.move? j.board = (j.board.lookup i).map f) (hi : i ≠ id)
    (hspares : ∀ k, k ≠ n → (f k).Spares id n) (hclock : ∀ k, (f k).clock t = t) :
    Shows id n start v t (j.act a) := by
  unfold Journal.act
  rw [ha]
  cases hk : j.board.lookup i with
  | none => exact h
  | some k =>
    rw [← hclock k]
    exact h.spares (hspares k (h.ne_of_lookup hi hk))

theorem act_to_own (h : Shows id n start v t j) {a : Act} {f : Nat → Move}
    (ha : a.move? j.board = (j.board.lookup id).map f)
    (hw : Shows id n start w t (j.move (f n))) :
    Shows id n start (if v.isRegistered then w else v) t (j.act a) := by
  unfold Journal.act
  rw [ha, h.lookup]
  cases v.isRegistered with
  | true => exact hw
  | false => exact h

/-- What an act gives to the connection, it gives to the view. -/
theorem act (h : Shows id n start v t j) {a : Act} (ha : a.isOpeningOf id = false) :
    Shows id n start ((a.given? id n t).elim v v.give) (a.elapsed t) (j.act a) := by
  cases a with
  | step k =>
    by_cases hk : k = n
    · subst hk
      simp only [Act.given?, if_pos]
      exact h.step
    · simp only [Act.given?, hk, if_false]
      exact h.spares (m := .step k) hk
  | touch k x =>
    by_cases hk : k = n
    · subst hk
      simp only [Act.given?, if_pos]
      exact h.touch x
    · simp only [Act.given?, hk, if_false]
      have hspares : (x.move k).Spares id n := by cases x <;> exact hk
      have hclock : (x.move k).clock t = t := by cases x <;> rfl
      have hshows := h.spares hspares
      rwa [hclock] at hshows
  | openConnection i o =>
    have hi : i ≠ id := of_decide_eq_false ha
    exact h.spares (m := .openConnection i o.maxFrame o.closeTimeout o.leftover o.isCancelled) hi
  | sendTo i m =>
    by_cases hi : i = id
    · subst hi
      simp only [Act.given?, if_pos]
      exact h.act_to_own rfl (h.send m)
    · simp only [Act.given?, hi, if_false]
      exact h.act_to_other rfl hi (fun _ hk => hk) fun _ => rfl
  | keep i =>
    by_cases hi : i = id
    · subst hi
      simp only [Act.given?, if_pos]
      exact h.act_to_own rfl h.keep
    · simp only [Act.given?, hi, if_false]
      exact h.act_to_other rfl hi (fun _ hk => hk) fun _ => rfl
  | evict => exact h.evict
  | shutdown => exact h.shutdown
  | advance nanos => exact h.spares (m := .advance nanos) trivial

end Shows

end View

end WebSocketHost
