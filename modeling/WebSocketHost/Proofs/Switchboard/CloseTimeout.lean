import WebSocketHost.Proofs.Connection.Deadline
import WebSocketHost.Proofs.Switchboard.Bystander
import WebSocketHost.Proofs.Switchboard.Telling

/-! How long a connection takes to end once it is cancelled. Only the close frame and the shutting
down have a deadline, and each may take the close timeout once; so a task that is cancelled ends
within twice that time, and as much more as it spends in a write that has none. -/
namespace WebSocketHost

/-- Close timeouts that may have passed by a phase since a task was free to end. -/
def Phase.spent : Phase → Nat
  | farewell _ _ _ => 1
  | shutting _ _ | leaving _ | parting _ | finished => 2
  | entering | greeting | acting | writing _ _ | waiting | draining => 0

theorem Phase.spent_le (phase : Phase) : phase.spent ≤ 2 := by
  cases phase <;> simp [spent]

namespace Connection

/-- Whether the task is at a write that may take as long as it takes. -/
def isWriting (c : Connection) : Bool :=
  match c.phase with
  | .writing _ _ => true
  | _ => false

/-- A task that is cancelled keeps its time, counted from when it was free to end. -/
structure KeepsTime (timeout : Duration) (start now : Nat) (c : Connection) : Prop where
  isCancelled : c.isCancelled = true
  closeTimeout : c.closeTimeout = timeout
  deadline : ∀ deadline, c.deadline? = some deadline →
    deadline ≤ start + c.phase.spent * timeout.nanos
  now : c.phase ≠ .finished → now ≤ start + c.phase.spent * timeout.nanos

section Step

variable {c d : Connection} {timeout : Duration} {start now : Nat} {isHeld : Bool}
  {effect : Option Effect} {log : Log}

theorem spent_sendMessage (c : Connection) (m : Message) (resume : Resume) :
    (c.sendMessage m resume).phase.spent = 0 := by
  unfold sendMessage
  split
  · rfl
  · cases resume <;> rfl

/-- A deadline that is set is one more. -/
theorem Transition.spent (h : c.Transition now isHeld effect d) :
    c.phase.spent ≤ d.phase.spent ∧
      (d.deadline?.isSome = true → c.phase.spent < d.phase.spent) := by
  cases h with
  | deliver hp => exact ⟨Nat.le_refl _, by simp [deadline?, hp]⟩
  | take hp | flush hp =>
    rw [hp, spent_sendMessage, deadline?_sendMessage]
    exact ⟨Nat.le_refl 0, by simp⟩
  | @write bytes resume hp =>
    rw [hp]
    cases resume <;> simp [Phase.spent, deadline?, Resume.phase]
  | _ hp =>
    rw [hp]
    simp [Phase.spent, deadline?, shut, sayFarewell]

theorem KeepsTime.step (h : KeepsTime timeout start now c)
    (ht : c.Transition now isHeld effect d) : KeepsTime timeout start now d := by
  have hnow := h.now ht.phase_ne_finished
  obtain ⟨hspent, hmore⟩ := ht.spent
  have hmono := Nat.mul_le_mul_right timeout.nanos hspent
  refine ⟨ht.id_eq.2.1.trans h.isCancelled, ht.closeTimeout_eq.trans h.closeTimeout,
    fun deadline hd => ?_, fun _ => by omega⟩
  have hset : deadline = now + timeout.nanos := h.closeTimeout ▸ ht.deadline deadline hd
  have hone : (c.phase.spent + 1) * timeout.nanos ≤ d.phase.spent * timeout.nanos :=
    Nat.mul_le_mul_right _ (hmore (by rw [hd]; rfl))
  rw [Nat.succ_mul] at hone
  omega

theorem KeepsTime.fate (h : KeepsTime timeout start now c) (hfate : c.Fate now isHeld log d) :
    KeepsTime timeout start now d := by
  cases hfate with
  | step ht => exact h.step ht
  | cancel => exact ⟨rfl, h.closeTimeout, h.deadline, h.now⟩
  | transport | refuse => exact ⟨h.isCancelled, h.closeTimeout, h.deadline, h.now⟩
  | accept m hd =>
    obtain ⟨-, rfl⟩ := eq_of_enqueue? hd
    exact ⟨h.isCancelled, h.closeTimeout, h.deadline, h.now⟩

theorem KeepsTime.fates (h : KeepsTime timeout start now c)
    (hfates : Fates now isHeld c log d) : KeepsTime timeout start now d := by
  induction hfates with
  | refl c => exact h
  | cons hfate _ ih => exact ih (h.fate hfate)

/-- A task that is cancelled waits for nothing but its transport. -/
theorem waits_for (hcancelled : c.isCancelled = true) (h : c.step now isHeld = none) :
    c.isWriting = true ∨ c.deadline?.isSome = true ∨ c.phase = .finished := by
  unfold step wait at h
  unfold isWriting deadline?
  cases hp : c.phase <;> simp_all

/-- Time passes while a task waits. If nothing limits what it waits for, its time counts from so
much later. -/
theorem KeepsTime.pass (h : KeepsTime timeout start now c) {nanos : Nat}
    (hwaits : c.step now isHeld = none)
    (hdue : ∀ deadline, c.deadline? = some deadline → now + nanos ≤ deadline) :
    KeepsTime timeout (start + if c.isWriting then nanos else 0) (now + nanos) c := by
  refine ⟨h.isCancelled, h.closeTimeout, fun deadline hd => ?_, fun hp => ?_⟩
  · exact Nat.le_trans (h.deadline deadline hd) (Nat.add_le_add_right (Nat.le_add_right ..) _)
  rcases waits_for h.isCancelled hwaits with hwriting | hlimited | hfinished
  · have hnow := h.now hp
    rw [hwriting, if_pos rfl]
    omega
  · obtain ⟨deadline, hd⟩ := Option.isSome_iff_exists.mp hlimited
    have hlimit := h.deadline deadline hd
    have hpass := hdue deadline hd
    omega
  · exact absurd hfinished hp

/-- A task is stuck that writes what its peer does not take: it takes no step at any time. -/
theorem step_of_stuck (hwriting : c.isWriting = true) (hstalled : c.transport.outlet = .stalled)
    (now : Nat) (isHeld : Bool) : c.step now isHeld = none ∧ c.deadline? = none := by
  unfold isWriting at hwriting
  unfold step deadline? Transport.write
  split at hwriting
  · next hp => simp [hp, hstalled]
  · cases hwriting

end Step

end Connection

/-- Behind what a task has told before it ends there is no last event. -/
theorem Tells.isTerminal_of_isWriting {c : Connection} {log : Log} {messages : List Message}
    {ending : Ending} (h : Tells c log messages ending) (hwriting : c.isWriting = true) :
    ∀ e ∈ log.told, e.isTerminal = false := by
  have htold : log.told = .connected c.id :: messages.map (·.event c.id) := by
    unfold Connection.isWriting at hwriting
    rw [Log.told, h.effects]
    split at hwriting
    · next hp =>
      simp [hp, Phase.life, List.filterMap_cons, Effect.event?, List.filterMap_map,
        Function.comp_def]
    · cases hwriting
  intro e he
  rw [htold] at he
  rcases List.mem_cons.mp he with rfl | he
  · rfl
  · obtain ⟨m, -, rfl⟩ := List.mem_map.mp he
    cases m <;> rfl

namespace Switchboard

open Connection (KeepsTime Fates)

/-- Time that passes by a move. -/
def Move.elapsed : Move → Nat
  | advance nanos => nanos
  | _ => 0

/-- Time may pass: a connection has to wait, and is not left waiting beyond its deadline. -/
def mayPass (b : Switchboard) (n nanos : Nat) : Bool :=
  (b.connection? n).all fun c =>
    (c.step b.now (b.isHeld n)).isNone && c.deadline?.all (b.now + nanos ≤ ·)

/-- Whether the clock keeps to a connection: it stands still while the connection has something
to do, and stops at its deadline. -/
def isTimely (n : Nat) (b : Switchboard) : List Move → Bool
  | [] => true
  | m :: moves => (m.elapsed = 0 || b.mayPass n m.elapsed) && isTimely n (b.move m) moves

/-- Time that a connection spends in writes that have no deadline. -/
def stuck (n : Nat) (b : Switchboard) : List Move → Nat
  | [] => 0
  | m :: moves =>
    (if (b.connection? n).any Connection.isWriting then m.elapsed else 0) +
      stuck n (b.move m) moves

/-- Every deadline is at most a close timeout away. -/
def IsDated (b : Switchboard) : Prop :=
  ∀ n c deadline, b.connection? n = some c → c.deadline? = some deadline →
    deadline ≤ b.now + c.closeTimeout.nanos

section Moves

variable {b : Switchboard} {n : Nat} {c d : Connection} {timeout : Duration} {start nanos : Nat}

theorem now_move (b : Switchboard) (m : Move) : (b.move m).now = b.now + m.elapsed := by
  rw [(b.kept_move m).now]
  cases m <;> rfl

theorem connection?_advance (b : Switchboard) (nanos n : Nat) :
    (b.move (.advance nanos)).connection? n = b.connection? n :=
  connection?_foldl_wake { b with now := b.now + nanos } _ n

theorem dated_of_fates {now : Nat} {isHeld : Bool} {log : Log} (hfates : Fates now isHeld c log d)
    (hc : ∀ deadline, c.deadline? = some deadline → deadline ≤ now + c.closeTimeout.nanos) :
    ∀ deadline, d.deadline? = some deadline → deadline ≤ now + d.closeTimeout.nanos := by
  induction hfates with
  | refl c => exact hc
  | cons hfate _ ih =>
    refine ih ?_
    cases hfate with
    | step ht =>
      intro deadline hd
      rw [ht.closeTimeout_eq]
      exact Nat.le_of_eq (ht.deadline deadline hd)
    | cancel | transport | refuse => exact hc
    | accept m hd =>
      obtain ⟨-, rfl⟩ := Connection.eq_of_enqueue? hd
      exact hc

theorem IsDated.move (h : b.IsDated) (m : Move) : (b.move m).IsDated := by
  intro n d deadline hd hdeadline
  have hnow := now_move b m
  rcases b.fates_move m hd with ⟨c, hc, hfates⟩ | ⟨-, -, _, _, _, _, _, rfl⟩
  · have hdated := dated_of_fates hfates (h n c · hc) deadline hdeadline
    omega
  · cases hdeadline

theorem IsDated.run (h : b.IsDated) (moves : List Move) :
    (moves.foldl Switchboard.move b).IsDated := by
  induction moves generalizing b with
  | nil => exact h
  | cons m moves ih => exact ih (h.move m)

theorem isDated_ofCapacity {capacity : Nat} {hcapacity : 0 < capacity} :
    (ofCapacity capacity hcapacity).IsDated :=
  fun n c deadline hc => by cases hc

theorem mayPass_iff (hc : b.connection? n = some c) :
    b.mayPass n nanos = true ↔ c.step b.now (b.isHeld n) = none ∧
      ∀ deadline, c.deadline? = some deadline → b.now + nanos ≤ deadline := by
  simp [mayPass, hc, Option.all_eq_true]

/-- A connection that is cancelled keeps its time over a move, but for what it is stuck. -/
theorem keepsTime_move (hc : b.connection? n = some c) (h : KeepsTime timeout start b.now c)
    {m : Move} (hmay : m.elapsed = 0 ∨ b.mayPass n m.elapsed = true) :
    ∃ d, (b.move m).connection? n = some d ∧
      KeepsTime timeout (start + if c.isWriting then m.elapsed else 0) (b.move m).now d := by
  rw [now_move]
  by_cases hm : m.elapsed = 0
  · obtain ⟨d, hd, -⟩ := (outcome_move b m).connection? hc
    refine ⟨d, hd, ?_⟩
    rw [hm, ite_self]
    rcases b.fates_move m hd with ⟨c', hc', hfates⟩ | ⟨hnone, -⟩
    · cases hc.symm.trans hc'
      exact h.fates hfates
    · cases hc.symm.trans hnone
  · obtain ⟨nanos, rfl⟩ : ∃ nanos, m = .advance nanos := by
      cases m with
      | advance nanos => exact ⟨nanos, rfl⟩
      | _ => exact absurd rfl hm
    obtain ⟨hwaits, hdue⟩ := (mayPass_iff hc).mp (hmay.resolve_left hm)
    exact ⟨c, (connection?_advance b nanos n).trans hc, h.pass hwaits hdue⟩

theorem keepsTime_run (hc : b.connection? n = some c) (h : KeepsTime timeout start b.now c)
    (moves : List Move) (htimely : b.isTimely n moves = true) :
    ∃ d, (moves.foldl move b).connection? n = some d ∧
      KeepsTime timeout (start + b.stuck n moves) (moves.foldl move b).now d := by
  induction moves generalizing b c start with
  | nil => exact ⟨c, hc, h⟩
  | cons m moves ih =>
    obtain ⟨hmay, htimely⟩ := Bool.and_eq_true_iff.mp htimely
    obtain ⟨d, hd, hkeeps⟩ := keepsTime_move hc h (m := m) (by simpa using hmay)
    rw [stuck, hc, ← Nat.add_assoc]
    exact ih hd hkeeps htimely

/-- From when a connection is cancelled it keeps its time. -/
theorem IsDated.keepsTime (h : b.IsDated) (hc : b.connection? n = some c)
    (hcancelled : c.isCancelled = true) : KeepsTime c.closeTimeout b.now b.now c := by
  refine ⟨hcancelled, rfl, fun deadline hd => ?_, fun _ => Nat.le_add_right ..⟩
  have hdated := h n c deadline hc hd
  have hspent : 1 ≤ c.phase.spent := by
    unfold Connection.deadline? at hd
    split at hd
    · next hp => simp [hp, Phase.spent]
    · next hp => simp [hp, Phase.spent]
    · cases hd
  have := Nat.mul_le_mul_right c.closeTimeout.nanos hspent
  omega

theorem isTimely_append (b : Switchboard) (n : Nat) (first second : List Move) :
    b.isTimely n (first ++ second) =
      (b.isTimely n first && (first.foldl move b).isTimely n second) := by
  induction first generalizing b with
  | nil => rfl
  | cons m first ih => simp only [List.cons_append, isTimely, List.foldl_cons, ih, Bool.and_assoc]

end Moves

end Switchboard

namespace Journal

open Switchboard

variable (capacity : Nat) (hcapacity : 0 < capacity) (before after : List Switchboard.Move)

theorem run_run (j : Journal) (first second : List Switchboard.Move) :
    (j.run first).run second = j.run (first ++ second) :=
  List.foldl_append.symm

/-- From when a connection is cancelled, whatever its peer and all others do, and whatever is
queued or unread: it has told its end once more than twice its close timeout has passed, not
counting the time it was stuck in writes that have no deadline. But such a write has no end of its
own: a connection that is stuck in one is so after any time. -/
theorem cancelled_ends_unless_stuck {n : Nat} {c : Connection}
    (hc : ((ofCapacity capacity hcapacity).run before).board.connection? n = some c)
    (hcancelled : c.isCancelled = true)
    (htimely : ((ofCapacity capacity hcapacity).run before).board.isTimely n after = true) :
    let j := (ofCapacity capacity hcapacity).run before
    let j' := j.run after
    ∃ d, j'.board.connection? n = some d ∧
      (j.board.now + 2 * c.closeTimeout.nanos + j.board.stuck n after < j'.board.now →
        d.isFinished = true ∧ ∃ (messages : List Message) (ending : Ending), (j'.of n).told =
          .connected d.id :: messages.map (·.event d.id) ++ [ending.event d.id]) ∧
      (d.isWriting = true → d.transport.outlet = .stalled → ∀ nanos,
        let later := j'.run [.advance nanos]
        j.board.isTimely n (after ++ [.advance nanos]) = true ∧
          later.board.now = j'.board.now + nanos ∧ later.board.connection? n = some d ∧
          ∀ e ∈ (later.of n).told, e.isTerminal = false) := by
  intro j j'
  have hboard : j'.board = after.foldl Switchboard.move j.board := board_run j after
  have hdated : j.board.IsDated := by
    rw [board_run]
    exact isDated_ofCapacity.run before
  obtain ⟨d, hd, hkeeps⟩ :=
    keepsTime_run (b := j.board) hc (hdated.keepsTime hc hcancelled) after htimely
  rw [← hboard] at hd hkeeps
  refine ⟨d, hd, fun hlate => ?_, fun hwriting hstalled nanos => ?_⟩
  · have hfinished : d.phase = .finished := by
      by_contra hp
      have hnow := hkeeps.now hp
      have hspent := Nat.mul_le_mul_right c.closeTimeout.nanos d.phase.spent_le
      omega
    have hrun : j' = (ofCapacity capacity hcapacity).run (before ++ after) := run_run ..
    rw [hrun] at hd ⊢
    obtain ⟨messages, ending, htells⟩ := Tells.lasting.run capacity hcapacity _ hd
    refine ⟨decide_eq_true hfinished, messages, ending, ?_⟩
    rw [Log.told, htells.effects, hfinished]
    exact life_told ..
  · obtain ⟨hwaits, hfree⟩ := Connection.step_of_stuck hwriting hstalled j'.board.now
      (j'.board.isHeld n)
    have hmay : j'.board.mayPass n nanos = true :=
      (mayPass_iff hd).mpr ⟨hwaits, fun deadline hdeadline => by cases hfree.symm.trans hdeadline⟩
    have hlater : (j'.run [.advance nanos]).board.connection? n = some d :=
      (connection?_advance j'.board nanos n).trans hd
    have hrun : j'.run [.advance nanos] = (ofCapacity capacity hcapacity).run
        (before ++ after ++ [.advance nanos]) := by
      rw [← run_run, ← run_run]
    refine ⟨?_, now_move .., hlater, ?_⟩
    · rw [isTimely_append, ← hboard, htimely]
      simp [isTimely, Move.elapsed, hmay]
    · rw [hrun] at hlater ⊢
      obtain ⟨messages, ending, htells⟩ := Tells.lasting.run capacity hcapacity _ hlater
      exact htells.isTerminal_of_isWriting hwriting

/-- The peer of a connection that waits takes nothing more, neither the close frame nor the end of
the stream. -/
theorem cancelled_ends_unless_stuck_deaf_peer :
    let timeout := Duration.ofSeconds 1
    let before : List Switchboard.Move := [.openConnection "a:1" 125 timeout [] false,
      .step 0, .step 0, .step 0, .outlet 0 .stalled, .cancel 0]
    let after : List Switchboard.Move := [.step 0, .step 0, .advance 1000000000, .step 0,
      .advance 1000000000, .step 0, .step 0, .step 0, .advance 1]
    let j := (ofCapacity 1 Nat.one_pos).run before
    j.board.isTimely 0 after = true ∧ j.board.stuck 0 after = 0 ∧
      ((j.run after).board.connection? 0).any Connection.isFinished = true ∧
      ∃ (messages : List Message) (ending : Ending), ((j.run after).of 0).told =
        .connected "a:1" :: messages.map (·.event "a:1") ++ [ending.event "a:1"] := by
  intro timeout before after j
  have hconnection : (j.board.connection? 0).any
      (fun c => c.isCancelled && c.closeTimeout = timeout) := by decide +kernel
  have hid : ((j.run after).board.connection? 0).any (·.id = "a:1") := by decide +kernel
  have htimely : j.board.isTimely 0 after = true := by decide +kernel
  have hstuck : j.board.stuck 0 after = 0 := by decide +kernel
  obtain ⟨c, hc, hgood⟩ := (Option.any_eq_true _ _).mp hconnection
  obtain ⟨hcancelled, htimeout⟩ := Bool.and_eq_true_iff.mp hgood
  obtain ⟨d, hd, hends, -⟩ := cancelled_ends_unless_stuck 1 Nat.one_pos before after hc
    hcancelled htimely
  rw [hd] at hid
  have hlate : j.board.now + 2 * c.closeTimeout.nanos + j.board.stuck 0 after <
      (j.run after).board.now := by
    rw [hstuck, of_decide_eq_true htimeout]
    decide +kernel
  obtain ⟨hfinished, messages, ending, htold⟩ := hends hlate
  refine ⟨htimely, hstuck, by rw [hd]; exact hfinished, messages, ending, ?_⟩
  rw [← of_decide_eq_true hid]
  exact htold

/-- The peer takes nothing more while a ping is answered. -/
theorem cancelled_is_stuck_in_pong :
    let timeout := Duration.ofSeconds 1
    let before : List Switchboard.Move := [.openConnection "a:1" 125 timeout [0x89, 0] false,
      .step 0, .step 0, .step 0, .outlet 0 .stalled, .cancel 0]
    let after : List Switchboard.Move := [.advance 1000000000, .advance 1000000000, .advance 1]
    let j := (ofCapacity 1 Nat.one_pos).run before
    let j' := j.run after
    (j.board.connection? 0).any (fun c => c.isCancelled && c.closeTimeout = timeout) = true ∧
      j.board.isTimely 0 after = true ∧ j.board.now + 2 * timeout.nanos < j'.board.now ∧
      (j'.board.connection? 0).any (fun c => c.isWriting && !c.isFinished) = true ∧
      (j'.of 0).told = [.connected "a:1"] := by
  decide +kernel

end Journal

end WebSocketHost
