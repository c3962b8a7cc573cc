import WebSocketHost.Proofs.Engine.Passage

/-! What each thing that happens does to the instances there are. They are never taken away:
they grow older, and one that has ceased to accept has all the visitors it will have. -/
namespace WebSocketHost

namespace Engine

/-- How an instance may change: accepting may end, visitors may come while it lasts, and a
negotiation may come to its end. -/
structure Ages (i j : Instance) : Prop where
  address : j.address = i.address
  isAccepting : j.isAccepting = true → i.isAccepting = true
  visitor : ∀ (k : Nat) (v : Visitor), i.visitors[k]? = some v →
    ∃ w, j.visitors[k]? = some w ∧ (w = v ∨ ∃ id, v = .negotiating id)
  closed : i.isAccepting = false → j.visitors.length = i.visitors.length

/-- Every instance is still there, and has grown older at most. -/
def Retains (e e' : Engine) : Prop :=
  ∀ (place : Nat) (i : Instance), e.instances[place]? = some i →
    ∃ j, e'.instances[place]? = some j ∧ Ages i j

/-- Nor is there any new one. -/
structure Older (e e' : Engine) : Prop where
  length : e'.instances.length = e.instances.length
  instances : Retains e e'

/-- What a turn does to calls and to instances. A call waits for visitors only when the
accepting has ended. -/
inductive Shift (s : Surroundings) (e : Engine) : Option Request → Engine → Prop
  | aside {e' : Engine} (h : Aside e e') (ho : Older e e') : Shift s e none e'
  | waits {call : Call} {deadline : Nat} (hcall : e.call = some call)
    (hwait : call.wait = .accepting)
    (hdone : (e.instances[call.running.place]?).any Instance.isAccepting = false) :
    Shift s e none { e with call := some { call with wait := .visitors deadline } }
  | starts {config : Config} (hcall : e.call = none) (hrunning : e.running = none) :
    Shift s e (some (.start config)) (e.openOn s config)
  | stopsNothing {board : Switchboard} (hcall : e.call = none) (hrunning : e.running = none) :
    Shift s e (some .stop) { e with
      state := .idle
      history := e.state :: e.history
      call := none
      answers := .stopped (.ok ()) :: e.answers
      board }
  | stops {request : Request} {running : Running} {instances : List Instance}
    {board : Switchboard} (hcall : e.call = none) (hrunning : e.running = some running)
    (ho : Older e { e with instances }) :
    Shift s e (some request) { e with
      state := .stopping
      history := e.state :: e.history
      running := none
      call := some ⟨running, .accepting, request.restart⟩
      instances
      board }
  | ends {call : Call} {deadline : Nat} {result : Except StopError Unit}
    (hcall : e.call = some call) (hwait : call.wait = .visitors deadline)
    (hrestart : call.restart = none)
    (hresult : result = .ok () → e.present call.running.place = []) :
    Shift s e none { e with
      state := .idle
      history := e.state :: e.history
      endpoint := none
      call := none
      answers := .stopped result :: e.answers }
  | restarts {call : Call} {deadline : Nat} {config : Config} (hcall : e.call = some call)
    (hwait : call.wait = .visitors deadline) (hrestart : call.restart = some config) :
    Shift s e none (openOn s config { e with
      state := .idle, history := e.state :: e.history, endpoint := none })

/-! ### Growing older -/

namespace Ages

variable {i j k : Instance}

theorem refl (i : Instance) : Ages i i :=
  ⟨rfl, id, fun _ v hv => ⟨v, hv, .inl rfl⟩, fun _ => rfl⟩

theorem ceased (h : Ages i j) (hi : i.isAccepting = false) : j.isAccepting = false := by
  cases hj : j.isAccepting with
  | false => rfl
  | true => cases hi.symm.trans (h.isAccepting hj)

theorem trans (h : Ages i j) (h' : Ages j k) : Ages i k where
  address := h'.address.trans h.address
  isAccepting := h.isAccepting ∘ h'.isAccepting
  visitor n v hv := by
    obtain ⟨w, hw, hvw⟩ := h.visitor n v hv
    obtain ⟨x, hx, hwx⟩ := h'.visitor n w hw
    refine ⟨x, hx, ?_⟩
    rcases hvw with rfl | hnegotiating
    · exact hwx
    · exact .inr hnegotiating
  closed hi := (h'.closed (h.ceased hi)).trans (h.closed hi)

theorem cancelled (i : Instance) : Ages i { i with isCancelled := true } :=
  ⟨rfl, id, fun _ v hv => ⟨v, hv, .inl rfl⟩, fun _ => rfl⟩

theorem accepted (hi : i.isAccepting = true) (v : Visitor) :
    Ages i { i with visitors := i.visitors ++ [v] } where
  address := rfl
  isAccepting _ := hi
  visitor n w hw := by
    refine ⟨w, ?_, .inl rfl⟩
    rw [List.getElem?_append_left (List.getElem?_eq_some_iff.mp hw).1]
    exact hw
  closed h := by cases hi.symm.trans h

theorem ended (i : Instance) : Ages i { i with isAccepting := false } :=
  ⟨rfl, nofun, fun _ v hv => ⟨v, hv, .inl rfl⟩, fun _ => rfl⟩

/-- A negotiation has come to its end. -/
theorem negotiated {visitor : Nat} {id : SessionId}
    (hvisitor : i.visitors[visitor]? = some (.negotiating id)) (v : Visitor) :
    Ages i { i with visitors := i.visitors.set visitor v } where
  address := rfl
  isAccepting h := h
  visitor n w hw := by
    by_cases hn : visitor = n
    · subst hn
      cases hvisitor.symm.trans hw
      exact ⟨v, List.getElem?_set_self (List.getElem?_eq_some_iff.mp hw).1, .inr ⟨id, rfl⟩⟩
    · exact ⟨w, (List.getElem?_set_ne hn).trans hw, .inl rfl⟩
  closed _ := List.length_set

end Ages

namespace Older

variable {e e' e'' : Engine}

theorem of_eq (h : e'.instances = e.instances) : Older e e' :=
  ⟨by rw [h], fun place i hi => ⟨i, by rw [h]; exact hi, .refl i⟩⟩

theorem board (e : Engine) (board : Switchboard) : Older e { e with board } := of_eq rfl

theorem trans (h : Older e e') (h' : Older e' e'') : Older e e'' where
  length := h'.length.trans h.length
  instances place i hi := by
    obtain ⟨j, hj, hij⟩ := h.instances place i hi
    obtain ⟨k, hk, hjk⟩ := h'.instances place j hj
    exact ⟨k, hk, hij.trans hjk⟩

theorem onInstance (e : Engine) (place : Nat) {f : Instance → Instance}
    (hf : ∀ i, e.instances[place]? = some i → Ages i (f i)) : Older e (e.onInstance place f) where
  length := List.length_modify ..
  instances k i hi := by
    have hmodify : (e.instances.modify place f)[k]? = some (if place = k then f i else i) := by
      rw [List.getElem?_modify]
      split <;> exact congrArg _ hi
    refine ⟨_, hmodify, ?_⟩
    split
    · next hk =>
      subst hk
      exact hf i hi
    · exact .refl i

theorem cancelInstance (e : Engine) (place : Nat) : Older e (e.cancelInstance place) :=
  (onInstance e place fun i _ => .cancelled i).trans (.of_eq rfl)

theorem quiesce (e : Engine) : Older e e.quiesce where
  length := List.length_map _
  instances place i hi := by
    unfold Engine.quiesce
    rw [List.getElem?_map, hi]
    refine ⟨_, rfl, ?_⟩
    dsimp only
    split
    · refine ⟨rfl, nofun, fun k v hv => ?_, fun _ => List.length_map _⟩
      rw [List.getElem?_map, hv]
      cases v with
      | negotiating id => exact ⟨_, rfl, .inr ⟨id, rfl⟩⟩
      | serving | gone => exact ⟨_, rfl, .inl rfl⟩
    · exact .refl i

/-- An instance that is there was there before. -/
theorem of_getElem? (h : Older e e') {place : Nat} {j : Instance}
    (hj : e'.instances[place]? = some j) : ∃ i, e.instances[place]? = some i ∧ Ages i j := by
  have hlt : place < e.instances.length := h.length ▸ (List.getElem?_eq_some_iff.mp hj).1
  obtain ⟨j', hj', hages⟩ := h.instances place _ (List.getElem?_eq_getElem hlt)
  cases hj.symm.trans hj'
  exact ⟨_, List.getElem?_eq_getElem hlt, hages⟩

end Older

/-! ### Turns -/

theorem visitor?_eq_some {e : Engine} {place visitor : Nat} {i : Instance} {v : Visitor}
    (h : e.visitor? place visitor = some (i, v)) :
    e.instances[place]? = some i ∧ i.visitors[visitor]? = some v := by
  obtain ⟨j, hj, h⟩ := Option.bind_eq_some_iff.mp h
  obtain ⟨w, hw, h⟩ := Option.bind_eq_some_iff.mp h
  cases h
  exact ⟨hj, hw⟩

variable {s : Surroundings} {e e' : Engine}

theorem shift_beginStop {running : Running} (request : Request) (hcall : e.call = none)
    (hrunning : e.running = some running) :
    Shift s e (some request) (e.beginStop s request.restart) := by
  unfold beginStop
  rw [hrunning]
  exact .stops hcall hrunning (.onInstance e running.place fun i _ => .cancelled i)

theorem shift_endStop {call : Call} {deadline : Nat} {result : Except StopError Unit}
    (hcall : e.call = some call) (hwait : call.wait = .visitors deadline)
    (hresult : result = .ok () → e.present call.running.place = []) :
    Shift s e none (e.endStop s call.restart result) := by
  unfold endStop afterStop
  cases hrestart : call.restart with
  | none => exact .ends hcall hwait hrestart hresult
  | some config => exact .restarts hcall hwait hrestart

theorem shift_proceed (h : e.proceed? s = some e') : Shift s e none e' := by
  unfold proceed? at h
  split at h
  · cases h
  next call hcall =>
  split at h
  · next hwait =>
    split at h
    · cases h
    · next hdone =>
      cases h
      exact .waits hcall hwait (Bool.eq_false_iff.mpr hdone)
  · next deadline hwait =>
    dsimp only at h
    split at h
    · next hnone =>
      cases h
      exact shift_endStop hcall hwait fun _ => List.eq_nil_of_length_eq_zero hnone
    · split at h
      · cases h
        exact shift_endStop hcall hwait nofun
      · cases h

theorem shift_step {m : Move} (hm : m ≠ .abandon) (h : e.step? s m = some e') :
    Shift s e (e.request? (.move m)) e' := by
  cases m with
  | start config =>
    unfold step? at h
    dsimp only at h
    split at h
    · next hnone =>
      cases h
      have hcall := Option.isNone_iff_eq_none.mp hnone
      rw [show e.request? (.move (.start config)) = some (.start config) from if_pos hnone]
      unfold requestStart
      split
      · next hsome =>
        obtain ⟨running, hrunning⟩ := Option.isSome_iff_exists.mp hsome
        exact shift_beginStop (.start config) hcall hrunning
      · next hstill => exact .starts hcall (Option.not_isSome_iff_eq_none.mp hstill)
    · cases h
  | stop =>
    unfold step? at h
    dsimp only at h
    split at h
    · next hnone =>
      cases h
      have hcall := Option.isNone_iff_eq_none.mp hnone
      rw [show e.request? (.move .stop) = some .stop from if_pos hnone]
      cases hrunning : e.running with
      | some running => exact shift_beginStop .stop hcall hrunning
      | none =>
        unfold requestStop beginStop
        split
        · exact .stopsNothing hcall hrunning
        · next hsome => cases hrunning.symm.trans hsome
    · cases h
  | proceed => exact shift_proceed h
  | abandon => exact absurd rfl hm
  | accept place id =>
    unfold step? at h
    dsimp only at h
    split at h
    · next haccepting =>
      cases h
      refine .aside (.onInstance e place fun i _ => .visitors i _) (.onInstance e place ?_)
      intro i hi
      rw [hi] at haccepting
      exact .accepted haccepting _
    · cases h
  | endAccepting place =>
    unfold step? at h
    dsimp only at h
    split at h
    · next hcancelled =>
      cases h
      refine .aside (.onInstance e place fun i hi => ⟨rfl, rfl, fun hfree => ?_⟩)
        (.onInstance e place fun i _ => .ended i)
      rw [hi] at hcancelled
      simp [hfree] at hcancelled
    · cases h
  | upgrade place visitor leftover =>
    unfold step? upgrade? at h
    dsimp only at h
    split at h
    · next i id hvisitor =>
      cases h
      obtain ⟨hi, hv⟩ := visitor?_eq_some hvisitor
      refine .aside ((Aside.board e _).trans (.onInstance _ place fun i _ => .visitors i _))
        ((Older.board e _).trans (.onInstance _ place ?_))
      intro j hj
      cases hi.symm.trans hj
      exact .negotiated hv _
    · cases h
  | dismiss place visitor =>
    unfold step? at h
    dsimp only at h
    split at h
    · next i id hvisitor =>
      cases h
      obtain ⟨hi, hv⟩ := visitor?_eq_some hvisitor
      refine .aside (.onInstance e place fun i _ => .visitors i _) (.onInstance e place ?_)
      intro j hj
      cases hi.symm.trans hj
      exact .negotiated hv _
    · cases h
  | step connection =>
    obtain ⟨board, -, hboard⟩ := Option.bind_eq_some_iff.mp h
    cases hboard
    exact .aside (.board e board) (.board e board)
  | arrive | horizon | outlet | send | wait =>
    cases h
    exact .aside (.board e _) (.board e _)

/-- A turn is one of the shifts, unless it abandons a call. -/
theorem shift_turn (s : Surroundings) (e : Engine) {t : Turn} (ht : t ≠ .move .abandon) :
    Shift s e (e.request? t) (e.turn s t) := by
  cases t with
  | quiesce => exact .aside (.quiesce e) (.quiesce e)
  | move m =>
    show Shift s e _ ((e.step? s m).getD e)
    cases hstep : e.step? s m with
    | some e' => exact shift_step (fun hm => ht (congrArg Turn.move hm)) hstep
    | none =>
      rw [request?_of_step?_eq_none hstep]
      exact .aside (.refl e) (.of_eq rfl)

theorem Shift.passage {request : Option Request} (h : Shift s e request e') :
    Passage s e request e' := by
  cases h with
  | aside ha => exact .aside ha
  | waits hcall => exact .waits hcall
  | starts hcall hrunning => exact .starts hcall hrunning (opens_openOn ..)
  | stopsNothing hcall hrunning => exact .stopsNothing hcall hrunning
  | stops hcall hrunning => exact .stops hcall hrunning
  | ends hcall _ hrestart => exact .ends hcall hrestart
  | restarts hcall _ hrestart => exact .restarts hcall hrestart (opens_openOn ..)

/-- To abandon a call leaves all else as it is. -/
theorem turn_abandon (s : Surroundings) (e : Engine) :
    e.turn s (.move .abandon) = { e with call := none } := by
  show (if e.call.isSome then some e.abandon else none).getD e = _
  split
  · rfl
  · next hnone =>
    have hcall : e.call = none := Option.not_isSome_iff_eq_none.mp hnone
    obtain ⟨state, history, endpoint, instances, running, call, answers, board⟩ := e
    cases hcall
    rfl

/-! ### All instances -/

namespace Retains

variable {s : Surroundings} {e e' : Engine} {request : Option Request}

theorem of_eq (h : e'.instances = e.instances) : Retains e e' :=
  (Older.of_eq h).instances

theorem stays (h : Retains e e') {place : Nat} (hi : ∃ i, e.instances[place]? = some i) :
    ∃ j, e'.instances[place]? = some j := by
  obtain ⟨i, hi⟩ := hi
  obtain ⟨j, hj, -⟩ := h place i hi
  exact ⟨j, hj⟩

theorem openOn (s : Surroundings) (config : Config) (e : Engine) :
    Retains e (e.openOn s config) := by
  have happended : ∀ opened : Instance, Retains e { e with instances := e.instances ++ [opened] } :=
    fun _ _ i hi =>
      ⟨i, (List.getElem?_append_left (List.getElem?_eq_some_iff.mp hi).1).trans hi, .refl i⟩
  unfold Engine.openOn launch
  dsimp only
  split
  · exact of_eq rfl
  · split <;> exact happended _

theorem of_shift (h : Shift s e request e') : Retains e e' := by
  cases h with
  | aside _ ho => exact ho.instances
  | stops _ _ ho => exact ho.instances
  | waits | stopsNothing | ends => exact of_eq rfl
  | starts | restarts => exact fun place i hi => openOn _ _ _ place i hi

end Retains

end Engine

end WebSocketHost
