import WebSocketHost.Proofs.Switchboard.Given

/-! A connection by itself: what there is to see of it, given this and that. The times at
which it takes its steps make no difference but by the deadlines that have passed. -/
namespace WebSocketHost

open Switchboard (Given Opening Touch)

namespace Connection

/-- Once what it has written was collected. -/
def collected (c : Connection) : Connection :=
  if c.transport.takeWritten.1 = [] then c
  else { c with transport := c.transport.takeWritten.2.withOutlet .stalled }

/-- Once a message was offered to it. -/
def offered (c : Connection) (m : Message) : Connection := (c.enqueue? m).getD c

/-- A change that has nothing to do with deadlines. -/
structure IsTimeless (F : Connection → Connection) : Prop where
  retimed : ∀ (c : Connection) (f : Nat → Nat), F (c.retimed f) = (F c).retimed f
  deadline : ∀ c, (F c).deadline? = c.deadline?
  timeout : ∀ c, (F c).closeTimeout = c.closeTimeout

theorem isTimeless_self : IsTimeless fun c => c := ⟨fun _ _ => rfl, fun _ => rfl, fun _ => rfl⟩

theorem isTimeless_cancel : IsTimeless cancel := ⟨fun _ _ => rfl, fun _ => rfl, fun _ => rfl⟩

theorem isTimeless_onTransport (f : Transport → Transport) :
    IsTimeless (Switchboard.onTransport f) :=
  ⟨fun _ _ => rfl, fun _ => rfl, fun _ => rfl⟩

theorem isTimeless_collected : IsTimeless collected where
  retimed c f := by
    unfold collected
    rw [show (c.retimed f).transport = c.transport from rfl]
    split <;> rfl
  deadline c := by
    unfold collected
    split <;> rfl
  timeout c := by
    unfold collected
    split <;> rfl

theorem isTimeless_offered (m : Message) : IsTimeless (·.offered m) where
  retimed c f := by
    unfold offered
    rw [enqueue?_retimed]
    cases c.enqueue? m <;> rfl
  deadline c := by
    unfold offered
    cases hd : c.enqueue? m with
    | none => rfl
    | some d =>
      obtain ⟨-, rfl⟩ := eq_of_enqueue? hd
      rfl
  timeout c := by
    unfold offered
    cases hd : c.enqueue? m with
    | none => rfl
    | some d =>
      obtain ⟨-, rfl⟩ := eq_of_enqueue? hd
      rfl

end Connection

/-- A connection by itself, with the time counted from its opening. -/
structure View where
  connection : Connection
  isRegistered : Bool := false
  /-- Handles to it outside of the registry. -/
  handles : Nat := 0
  told : List Event := []
  written : List Octets := []

namespace View

def opened (id : SessionId) (o : Opening) : View where
  connection := .opened id o.maxFrame o.closeTimeout o.leftover o.isCancelled

def change (v : View) (f : Connection → Connection) : View :=
  { v with connection := f v.connection }

def step (v : View) (t : Nat) : View :=
  match v.connection.step t (v.isRegistered || decide (0 < v.handles)) with
  | none => v
  | some (effect, d) =>
    { v with
      connection := if effect = some .register ∧ v.isRegistered = true then d.cancel else d
      isRegistered := match effect with
        | some .register => true
        | some .unregister => false
        | _ => v.isRegistered
      told := v.told ++ (effect.bind Effect.event?).toList
      written := v.written ++ (v.connection.account t effect d).written }

def touch (v : View) : Touch → View
  | .arrive chunk => v.change (Switchboard.onTransport (·.arrive chunk))
  | .horizon h => v.change (Switchboard.onTransport (·.withHorizon h))
  | .outlet o => v.change (Switchboard.onTransport (·.withOutlet o))
  | .collect => v.change .collected
  | .send m => v.change (·.offered m)
  | .cancel => v.change .cancel
  | .release => { v with handles := v.handles - 1 }

def give (v : View) : Given → View
  | .step t => v.step t
  | .touch t => v.touch t
  | .sendTo m => if v.isRegistered then v.change (·.offered m) else v
  | .keep => if v.isRegistered then { v with handles := v.handles + 1 } else v
  | .evict => { v with isRegistered := false }

def sight (v : View) : Sight where
  told := v.told
  written := v.written
  isRegistered := v.isRegistered
  isActive := v.isRegistered && v.connection.isOpen

def sights : View → List Given → List Sight
  | v, [] => [v.sight]
  | v, g :: gs => v.sight :: (v.give g).sights gs

end View

/-! ### Views under two clocks -/

namespace View

/-- Two views of what is given alike: they differ in no more than when a deadline is, which
was set by a step at some time in the one and at some time in the other. -/
structure Matches (timeout : Nat) (past : List (Nat × Nat)) (v w : View) : Prop where
  timeout_eq : v.connection.closeTimeout.nanos = timeout
  retimed : ∃ f, w = v.change (·.retimed f) ∧
    ∀ d, v.connection.deadline? = some d → ∃ p ∈ past, d = p.1 + timeout ∧ f d = p.2 + timeout

namespace Matches

variable {timeout : Nat} {past : List (Nat × Nat)} {v w : View}

theorem opened (id : SessionId) (o : Opening) :
    Matches o.closeTimeout.nanos [] (.opened id o) (.opened id o) :=
  ⟨rfl, fun d => d, rfl, nofun⟩

theorem sight (h : Matches timeout past v w) : v.sight = w.sight := by
  obtain ⟨-, f, rfl, -⟩ := h
  simp [View.sight, View.change]

theorem change (h : Matches timeout past v w) {F : Connection → Connection}
    (hF : Connection.IsTimeless F) : Matches timeout past (v.change F) (w.change F) := by
  obtain ⟨htimeout, f, rfl, hdeadline⟩ := h
  refine ⟨?_, f, ?_, ?_⟩
  · exact (congrArg Duration.nanos (hF.timeout _)).trans htimeout
  · simp only [View.change, hF.retimed]
  · intro d hd
    exact hdeadline d ((hF.deadline _).symm.trans hd)

theorem give (h : Matches timeout past v w) {g : Given} (hg : ∀ t, g ≠ .step t) :
    Matches timeout past (v.give g) (w.give g) := by
  have hsame := h
  obtain ⟨htimeout, f, rfl, hdeadline⟩ := h
  cases g with
  | step t => exact absurd rfl (hg t)
  | touch x =>
    cases x with
    | arrive | horizon | outlet => exact hsame.change (Connection.isTimeless_onTransport _)
    | collect => exact hsame.change Connection.isTimeless_collected
    | send m => exact hsame.change (Connection.isTimeless_offered m)
    | cancel => exact hsame.change Connection.isTimeless_cancel
    | release => exact ⟨htimeout, f, rfl, hdeadline⟩
  | sendTo m =>
    by_cases hregistered : v.isRegistered = true
    · have hv : v.give (.sendTo m) = v.change (·.offered m) := if_pos hregistered
      have hw : (v.change (·.retimed f)).give (.sendTo m) = _ := if_pos hregistered
      rw [hv, hw]
      exact hsame.change (Connection.isTimeless_offered m)
    · have hv : v.give (.sendTo m) = v := if_neg hregistered
      have hw : (v.change (·.retimed f)).give (.sendTo m) = _ := if_neg hregistered
      rw [hv, hw]
      exact hsame
  | keep =>
    by_cases hregistered : v.isRegistered = true
    · have hv : v.give .keep = { v with handles := v.handles + 1 } := if_pos hregistered
      have hw : (v.change (·.retimed f)).give .keep = _ := if_pos hregistered
      rw [hv, hw]
      exact ⟨htimeout, f, rfl, hdeadline⟩
    · have hv : v.give .keep = v := if_neg hregistered
      have hw : (v.change (·.retimed f)).give .keep = _ := if_neg hregistered
      rw [hv, hw]
      exact hsame
  | evict => exact ⟨htimeout, f, rfl, hdeadline⟩

/-- A step finds the deadline passed in both views or in neither. -/
theorem step (h : Matches timeout past v w) {t t' : Nat}
    (hdue : ∀ p ∈ past, (p.1 + timeout ≤ t ↔ p.2 + timeout ≤ t')) :
    Matches timeout ((t, t') :: past) (v.step t) (w.step t') := by
  obtain ⟨htimeout, f, rfl, hdeadline⟩ := h
  have hpassed : ∀ d, v.connection.deadline? = some d → (f d ≤ t' ↔ d ≤ t) := by
    intro d hd
    obtain ⟨p, hp, rfl, hf⟩ := hdeadline d hd
    rw [hf]
    exact (hdue p hp).symm
  have hset : t' + timeout = t' + v.connection.closeTimeout.nanos := by rw [htimeout]
  have hstep := v.connection.step_retimed (v.isRegistered || decide (0 < v.handles))
    (g := fun _ => t' + timeout) hset hpassed
  unfold View.step View.change
  dsimp only
  rw [hstep]
  cases hown : v.connection.step t (v.isRegistered || decide (0 < v.handles)) with
  | none =>
    refine ⟨htimeout, f, rfl, fun d hd => ?_⟩
    obtain ⟨p, hp, hboth⟩ := hdeadline d hd
    exact ⟨p, List.mem_cons_of_mem _ hp, hboth⟩
  | some p =>
    obtain ⟨effect, d⟩ := p
    have htransition := Connection.transition_of_step hown
    have hwritten : ((v.connection.retimed f).account t' effect (d.retimed fun _ => t' + timeout)
        ).written = (v.connection.account t effect d).written := by
      rw [Connection.written_account, Connection.written_account,
        v.connection.write?_retimed hpassed]
    dsimp only [Option.map_some]
    rw [hwritten]
    refine ⟨?_, fun _ => t' + timeout, ?_, ?_⟩
    · have hsame := (congrArg Duration.nanos htransition.closeTimeout_eq).trans htimeout
      dsimp only
      split <;> exact hsame
    · simp only [View.change]
      congr 1
      split <;> rfl
    · intro x hx
      have hx : d.deadline? = some x := by
        dsimp only at hx
        split at hx <;> exact hx
      have hlate := htransition.deadline x hx
      rw [htimeout] at hlate
      exact ⟨(t, t'), List.mem_cons_self, hlate, rfl⟩

/-- Views of what is given alike have the same to see. -/
theorem sights (h : Matches timeout past v w) {gs gs' : List Given}
    (halike : Switchboard.alike timeout past gs gs' = true) : v.sights gs = w.sights gs' := by
  fun_induction Switchboard.alike timeout past gs gs' generalizing v w with
  | case1 past => exact congrArg (fun s => [s]) h.sight
  | case2 past t gs t' gs' ih =>
    obtain ⟨hdue, hlater⟩ := Bool.and_eq_true_iff.mp halike
    have hnext := h.step fun p hp => of_decide_eq_true (List.all_eq_true.mp hdue p hp)
    rw [View.sights, View.sights, h.sight]
    exact congrArg _ (ih hnext hlater)
  | case3 past g gs g' gs' hsteps ih =>
    obtain ⟨hsame, hlater⟩ := Bool.and_eq_true_iff.mp halike
    have hsame : g = g' := of_decide_eq_true hsame
    subst hsame
    have hnext := h.give fun t ht => hsteps t t ht ht
    rw [View.sights, View.sights, h.sight]
    exact congrArg _ (ih hnext hlater)
  | case4 => cases halike

end Matches

end View

end WebSocketHost
