import WebSocketHost.Hub

/-! Subscribers of a hub, each at its own pace, with a record of what they were given. What a
subscriber has got stands for the items of its stream from its subscription on, in their
order; a lag stands for as many of them as it says, and comes only to those who have left
more unread than the channel keeps. -/
namespace WebSocketHost

namespace Broadcast

variable {α : Type} {b : Broadcast α} {items : List α}

/-- What a channel holds after some items. -/
structure Carries (b : Broadcast α) (items : List α) : Prop where
  sent : b.sent = items.length
  kept : b.kept = items.reverse.take b.capacity

theorem carries_ofCapacity (capacity : Nat) (h : 0 < capacity) :
    (ofCapacity capacity h : Broadcast α).Carries [] :=
  ⟨rfl, List.take_nil.symm⟩

theorem Carries.send (h : b.Carries items) (a : α) : (b.send a).Carries (items ++ [a]) where
  sent := by simp [Broadcast.send, h.sent]
  kept := by
    simp only [Broadcast.send, h.kept, List.reverse_append, List.reverse_singleton,
      List.singleton_append]
    cases b.capacity <;> simp [List.take_take]

/-- What a receiver gets next that has left some items unread. -/
def deliveryOf (capacity : Nat) : List α → Delivery α
  | [] => .empty
  | a :: rest =>
    if rest.length < capacity then .item a else .lagged (rest.length + 1 - capacity)

/-- The items that a delivery takes off those unread. -/
def taken (capacity : Nat) : List α → Nat
  | [] => 0
  | _ :: rest => if rest.length < capacity then 1 else rest.length + 1 - capacity

theorem Carries.receive {read unread : List α} (h : b.Carries (read ++ unread)) :
    b.receive ⟨read.length⟩ =
      (deliveryOf b.capacity unread, ⟨read.length + taken b.capacity unread⟩) := by
  have hsent := h.sent
  have hkept := h.kept
  cases unread with
  | nil =>
    have hlate : ¬ read.length < b.sent - b.capacity := by simp at hsent; omega
    have hend : ¬ read.length < b.sent := by simp at hsent; omega
    simp [Broadcast.receive, deliveryOf, taken, hlate, hend]
  | cons a rest =>
    have hsent : b.sent = read.length + rest.length + 1 := by simpa [Nat.add_assoc] using hsent
    have hbehind : read.length < b.sent := by omega
    by_cases hroom : rest.length < b.capacity
    · have hlate : ¬ read.length < b.sent - b.capacity := by omega
      have hplace : b.sent - 1 - read.length = rest.length := by omega
      have hitem : b.kept[rest.length]? = some a := by
        simp [hkept, hroom]
      simp [Broadcast.receive, deliveryOf, taken, hlate, hbehind, hroom, hplace, hitem]
    · have hlate : read.length < b.sent - b.capacity := by omega
      have hmissed : b.sent - b.capacity - read.length = rest.length + 1 - b.capacity := by omega
      have hnext : b.sent - b.capacity = read.length + (rest.length + 1 - b.capacity) := by omega
      simp only [Broadcast.receive, deliveryOf, taken, hlate, hroom, if_true, if_false, hmissed]
      rw [hnext]

/-- Deliveries stand for items, in their order: an item for itself, a lag for as many as it
says, and nothing for none. -/
inductive StandFor : List (Delivery α) → List α → Prop
  | nil : StandFor [] []
  | item (a : α) {ds : List (Delivery α)} {items : List α} (h : StandFor ds items) :
    StandFor (.item a :: ds) (a :: items)
  | lagged (skipped : List α) (hsome : skipped ≠ []) {ds : List (Delivery α)} {items : List α}
    (h : StandFor ds items) : StandFor (.lagged skipped.length :: ds) (skipped ++ items)
  | empty {ds : List (Delivery α)} {items : List α} (h : StandFor ds items) :
    StandFor (.empty :: ds) items

theorem StandFor.append {ds es : List (Delivery α)} {items more : List α}
    (h : StandFor ds items) (h' : StandFor es more) : StandFor (ds ++ es) (items ++ more) := by
  induction h with
  | nil => exact h'
  | item a _ ih => exact .item a ih
  | lagged skipped hsome _ ih =>
    rw [List.append_assoc]
    exact .lagged skipped hsome ih
  | empty _ ih => exact .empty ih

@[simp] theorem length_take_taken (capacity : Nat) (unread : List α) :
    (unread.take (taken capacity unread)).length = taken capacity unread := by
  cases unread with
  | nil => rfl
  | cons a rest =>
    by_cases hroom : rest.length < capacity
    · simp [taken, hroom]
    · simp [taken, hroom]

theorem standFor_deliveryOf (capacity : Nat) (unread : List α) :
    StandFor [deliveryOf capacity unread] (unread.take (taken capacity unread)) := by
  cases unread with
  | nil => exact .empty .nil
  | cons a rest =>
    by_cases hroom : rest.length < capacity
    · simp only [deliveryOf, taken, hroom, if_true]
      exact .item a .nil
    · have hsome : (a :: rest).take (taken capacity (a :: rest)) ≠ [] := by
        apply List.ne_nil_of_length_pos
        rw [length_take_taken]
        simp only [taken, hroom, if_false]
        omega
      have hskip := StandFor.lagged _ hsome .nil
      rw [length_take_taken, List.append_nil] at hskip
      simpa only [deliveryOf, taken, hroom, if_false] using hskip

theorem deliveryOf_ne_lagged {capacity : Nat} {unread : List α}
    (h : unread.length ≤ capacity) (n : Nat) : deliveryOf capacity unread ≠ .lagged n := by
  cases unread with
  | nil => simp [deliveryOf]
  | cons a rest =>
    have hroom : rest.length < capacity := h
    simp [deliveryOf, hroom]

end Broadcast

open Broadcast (Carries Cursor Delivery StandFor)

/-- The streams of a hub. -/
inductive Stream
  | events
  | statuses
  | messages
deriving DecidableEq

namespace Stream

def Item : Stream → Type
  | events => Event
  | statuses => Status
  | messages => Received

/-- What an event puts on a stream. -/
def item? : (s : Stream) → Event → Option s.Item
  | events => some
  | statuses => Event.status?
  | messages => Event.received?

def channel (h : Hub) : (s : Stream) → Broadcast s.Item
  | events => h.events
  | statuses => h.bus.statuses
  | messages => h.bus.messages

/-- The items of a stream, one rule for each kind of event that has one there. -/
inductive Shown : (s : Stream) → Event → s.Item → Prop
  | raw (e : Event) : Shown events e e
  | connected (id : SessionId) : Shown statuses (.connected id) ⟨id, true⟩
  | disconnected (id : SessionId) : Shown statuses (.disconnected id) ⟨id, false⟩
  | closed (id : SessionId) (code : CloseCode) : Shown statuses (.closed id code) ⟨id, false⟩
  | text (id : SessionId) (content : String) : Shown messages (.text id content) ⟨id, content⟩
  | binary (id : SessionId) (content : String) :
    Shown messages (.binary id (Text.utf8 content)) ⟨id, content⟩

theorem shown_of_item? {s : Stream} {e : Event} {i : s.Item} (h : s.item? e = some i) :
    s.Shown e i := by
  cases s with
  | events =>
    cases h
    exact .raw e
  | statuses =>
    cases e with
    | connected => cases h; exact .connected _
    | disconnected => cases h; exact .disconnected _
    | closed => cases h; exact .closed _ _
    | text | binary => cases h
  | messages =>
    cases e with
    | connected | disconnected | closed => cases h
    | text => cases h; exact .text _ _
    | binary id data =>
      obtain ⟨content, hdata, rfl⟩ := Option.map_eq_some_iff.mp h
      rw [← Text.ofUtf8?_eq_some_iff.mp hdata]
      exact .binary id content

theorem item?_eq_some_iff (s : Stream) (e : Event) (i : s.Item) :
    s.item? e = some i ↔ s.Shown e i := by
  constructor
  · exact shown_of_item?
  · intro h
    cases h with
    | raw | connected | disconnected | closed | text => rfl
    | binary id content =>
      show (Text.ofUtf8? (Text.utf8 content)).map _ = _
      rw [Text.ofUtf8?_utf8]
      rfl

theorem channel_emit (h : Hub) (e : Event) (s : Stream) :
    s.channel (h.emit e) =
      match s.item? e with
      | some i => (s.channel h).send i
      | none => s.channel h := by
  cases s with
  | events => rfl
  | statuses =>
    simp only [channel, item?, Hub.emit, Bus.publish]
    cases e.status? with
    | some => rfl
    | none => cases e.received? <;> rfl
  | messages =>
    simp only [channel, item?, Hub.emit, Bus.publish]
    cases hstatus : e.status? with
    | some =>
      rw [Event.received?_eq_none_of_status? hstatus]
    | none => cases e.received? <;> rfl

end Stream

namespace Hub

/-- What a hub holds once some events have been emitted. -/
structure Tells (h : Hub) (capacity : Nat) (told : List Event) : Prop where
  carries : ∀ s : Stream, (s.channel h).Carries (told.filterMap s.item?)
  capacity_eq : ∀ s : Stream, (s.channel h).capacity = ceilPow2 capacity
  latestStatus : h.bus.latestStatus.value = (told.filterMap Event.status?).getLast?
  latestMessage : h.bus.latestMessage.value = (told.filterMap Event.received?).getLast?

variable {capacity : Nat} {told : List Event} {h : Hub}

theorem tells_ofCapacity (hpos : 0 < capacity) : (ofCapacity capacity hpos).Tells capacity [] where
  carries s := by cases s <;> exact Broadcast.carries_ofCapacity capacity hpos
  capacity_eq s := by cases s <;> rfl
  latestStatus := rfl
  latestMessage := rfl

theorem Tells.emit (ht : h.Tells capacity told) (e : Event) :
    (h.emit e).Tells capacity (told ++ [e]) where
  carries s := by
    have hc := ht.carries s
    rw [Stream.channel_emit, List.filterMap_append, List.filterMap_cons, List.filterMap_nil]
    cases s.item? e with
    | none => simpa using hc
    | some i => exact hc.send i
  capacity_eq s := by
    rw [Stream.channel_emit]
    cases s.item? e with
    | none => exact ht.capacity_eq s
    | some i => exact ht.capacity_eq s
  latestStatus := by
    have hlatest := ht.latestStatus
    simp only [Hub.emit, Bus.publish]
    cases hstatus : e.status? with
    | some s => simp [hstatus, Watch.replace]
    | none => cases e.received? <;> simpa [hstatus] using hlatest
  latestMessage := by
    have hlatest := ht.latestMessage
    simp only [Hub.emit, Bus.publish]
    cases hstatus : e.status? with
    | some s => simpa [Event.received?_eq_none_of_status? hstatus] using hlatest
    | none =>
      cases hmessage : e.received? with
      | some m => simp [hmessage, Watch.replace]
      | none => simpa [hmessage] using hlatest

end Hub

/-- One who reads a stream, and all it was given so far. -/
structure Subscriber (s : Stream) where
  cursor : Cursor
  got : List (Delivery s.Item) := []

namespace Subscriber

variable {s : Stream}

def new (h : Hub) (s : Stream) : Subscriber s := { cursor := (s.channel h).subscribe }

/-- Asks for the next item. -/
def receive (h : Hub) (u : Subscriber s) : Subscriber s :=
  let answer := (s.channel h).receive u.cursor
  ⟨answer.2, u.got ++ [answer.1]⟩

/-- How far a subscriber is with the items that came `since` it subscribed, those that
came `before` being none of its. -/
structure Stands (u : Subscriber s) (before since : List Event) (read unread : List s.Item) :
    Prop where
  items : since.filterMap s.item? = read ++ unread
  place : u.cursor = ⟨(before.filterMap s.item? ++ read).length⟩
  got : StandFor u.got read

variable {capacity : Nat} {before since : List Event} {h : Hub} {u : Subscriber s}
  {read unread : List s.Item}

theorem stands_new (ht : h.Tells capacity before) (s : Stream) :
    (new h s).Stands before [] [] [] where
  items := rfl
  place := by
    rw [List.append_nil]
    exact congrArg Cursor.mk (ht.carries s).sent
  got := .nil

theorem Stands.emit (hu : u.Stands before since read unread) (e : Event) :
    u.Stands before (since ++ [e]) read (unread ++ [e].filterMap s.item?) where
  items := by rw [List.filterMap_append, hu.items, List.append_assoc]
  place := hu.place
  got := hu.got

theorem Stands.next (hu : u.Stands before since read unread)
    (ht : h.Tells capacity (before ++ since)) :
    (s.channel h).receive u.cursor =
      (Broadcast.deliveryOf (ceilPow2 capacity) unread,
        ⟨(before.filterMap s.item? ++ read).length +
          Broadcast.taken (ceilPow2 capacity) unread⟩) := by
  have hcarries := ht.carries s
  rw [List.filterMap_append, hu.items, ← List.append_assoc] at hcarries
  rw [hu.place, hcarries.receive, ht.capacity_eq]

theorem Stands.receive (hu : u.Stands before since read unread)
    (ht : h.Tells capacity (before ++ since)) :
    (u.receive h).Stands before since
      (read ++ unread.take (Broadcast.taken (ceilPow2 capacity) unread))
      (unread.drop (Broadcast.taken (ceilPow2 capacity) unread)) where
  items := by rw [hu.items, List.append_assoc, List.take_append_drop]
  place := by
    rw [Subscriber.receive, hu.next ht]
    simp only [List.length_append, Broadcast.length_take_taken, Nat.add_assoc]
  got := by
    rw [Subscriber.receive, hu.next ht]
    exact hu.got.append (Broadcast.standFor_deliveryOf _ unread)

end Subscriber

/-- A hub and all who read its streams. -/
structure Audience where
  hub : Hub
  subscribers : List ((s : Stream) × Subscriber s) := []

namespace Audience

inductive Move
  | emit (e : Event)
  | subscribe (s : Stream)
  /-- The subscriber of that number asks for its next item. -/
  | receive (k : Nat)

def ofCapacity (capacity : Nat) (h : 0 < capacity) : Audience where
  hub := .ofCapacity capacity h

def move (a : Audience) : Move → Audience
  | .emit e => { a with hub := a.hub.emit e }
  | .subscribe s => { a with subscribers := a.subscribers ++ [⟨s, .new a.hub s⟩] }
  | .receive k =>
    { a with subscribers := a.subscribers.modify k fun p => ⟨p.1, p.2.receive a.hub⟩ }

def run (a : Audience) (moves : List Move) : Audience := moves.foldl move a

/-- The events of some moves, in their order. -/
def emitted (moves : List Move) : List Event :=
  moves.filterMap fun
    | .emit e => some e
    | _ => none

theorem run_append (a : Audience) (first later : List Move) :
    a.run (first ++ later) = (a.run first).run later :=
  List.foldl_append

theorem emitted_cons (m : Move) (moves : List Move) :
    emitted (m :: moves) = emitted [m] ++ emitted moves :=
  List.filterMap_append (l := [m])

variable {capacity : Nat} {told before since : List Event} {a : Audience}

theorem tells_move (ht : a.hub.Tells capacity told) (m : Move) :
    (a.move m).hub.Tells capacity (told ++ emitted [m]) := by
  cases m with
  | emit e => exact ht.emit e
  | subscribe | receive => simpa [emitted, move] using ht

theorem tells_run (ht : a.hub.Tells capacity told) (moves : List Move) :
    (a.run moves).hub.Tells capacity (told ++ emitted moves) := by
  induction moves generalizing a told with
  | nil => simpa [emitted, run] using ht
  | cons m moves ih =>
    have hnext := ih (tells_move ht m)
    rwa [List.append_assoc, ← emitted_cons] at hnext

/-- What has become of a new hub after some moves. -/
def after (capacity : Nat) (hpos : 0 < capacity) (moves : List Move) : Audience :=
  (ofCapacity capacity hpos).run moves

theorem tells_after (hpos : 0 < capacity) (moves : List Move) :
    (after capacity hpos moves).hub.Tells capacity (emitted moves) :=
  tells_run (a := ofCapacity capacity hpos) (Hub.tells_ofCapacity hpos) moves

/-- That the subscriber of a number reads a stream, and is somewhere in what came since. -/
def Reads (a : Audience) (k : Nat) (s : Stream) (before since : List Event) : Prop :=
  ∃ (u : Subscriber s) (read unread : List s.Item),
    a.subscribers[k]? = some ⟨s, u⟩ ∧ u.Stands before since read unread

theorem reads_subscribe (ht : a.hub.Tells capacity before) (s : Stream) :
    (a.move (.subscribe s)).Reads a.subscribers.length s before [] :=
  ⟨_, [], [], List.getElem?_concat_length, Subscriber.stands_new ht s⟩

theorem Reads.move {k : Nat} {s : Stream} (hr : a.Reads k s before since)
    (ht : a.hub.Tells capacity (before ++ since)) (m : Move) :
    (a.move m).Reads k s before (since ++ emitted [m]) := by
  obtain ⟨u, read, unread, hk, hu⟩ := hr
  cases m with
  | emit e => exact ⟨u, read, _, hk, hu.emit e⟩
  | subscribe t =>
    have hlt : k < a.subscribers.length := (List.getElem?_eq_some_iff.mp hk).1
    have hkeep : (a.move (.subscribe t)).subscribers[k]? = some ⟨s, u⟩ := by
      rw [← hk]
      exact List.getElem?_append_left hlt
    rw [show since ++ emitted [.subscribe t] = since from List.append_nil since]
    exact ⟨u, read, unread, hkeep, hu⟩
  | receive j =>
    rw [show since ++ emitted [.receive j] = since from List.append_nil since]
    by_cases hj : j = k
    · subst hj
      have hnew : (a.move (.receive j)).subscribers[j]? = some ⟨s, u.receive a.hub⟩ := by
        simp [Audience.move, hk]
      exact ⟨_, _, _, hnew, hu.receive ht⟩
    · have hkeep : (a.move (.receive j)).subscribers[k]? = some ⟨s, u⟩ := by
        simp [Audience.move, hj, hk]
      exact ⟨u, read, unread, hkeep, hu⟩

theorem Reads.run {k : Nat} {s : Stream} (hr : a.Reads k s before since)
    (ht : a.hub.Tells capacity (before ++ since)) (moves : List Move) :
    (a.run moves).Reads k s before (since ++ emitted moves) := by
  induction moves generalizing a since with
  | nil => simpa [emitted, Audience.run] using hr
  | cons m moves ih =>
    have ht' := tells_move ht m
    rw [List.append_assoc] at ht'
    have hnext := ih (hr.move ht m) ht'
    rwa [List.append_assoc, ← emitted_cons] at hnext

/-- Fan-out, for all moves in all orders. An event is on the stream of all events, and on at
most one of the other two, as `Stream.Shown` has it. The latest values are the last there
were. What a subscriber has got stands for the first items that its stream had since then,
one by one or as a lag of so many; its next delivery is given by the rest, and is no lag
while the rest is no more than the capacity asked for. -/
theorem fan_out (capacity : Nat) (hpos : 0 < capacity) (moves : List Move) :
    (∀ (s : Stream) (e : Event) (i : s.Item), s.item? e = some i ↔ s.Shown e i) ∧
    (∀ e : Event, Stream.statuses.item? e = none ∨ Stream.messages.item? e = none) ∧
    (after capacity hpos moves).hub.bus.latestStatus.value =
      ((emitted moves).filterMap Event.status?).getLast? ∧
    (after capacity hpos moves).hub.bus.latestMessage.value =
      ((emitted moves).filterMap Event.received?).getLast? ∧
    ∀ (first later : List Move) (s : Stream), moves = first ++ .subscribe s :: later →
      ∃ (u : Subscriber s) (read unread : List s.Item),
        (after capacity hpos moves).subscribers[
          (after capacity hpos first).subscribers.length]? = some ⟨s, u⟩ ∧
        (emitted later).filterMap s.item? = read ++ unread ∧
        StandFor u.got read ∧
        ((s.channel (after capacity hpos moves).hub).receive u.cursor).1 =
          Broadcast.deliveryOf (ceilPow2 capacity) unread ∧
        (unread.length ≤ capacity →
          ∀ n, Broadcast.deliveryOf (ceilPow2 capacity) unread ≠ .lagged n) := by
  have htold := tells_after hpos moves
  refine ⟨Stream.item?_eq_some_iff, ?_, htold.latestStatus, htold.latestMessage, ?_⟩
  · intro e
    cases hstatus : e.status? with
    | none => exact .inl hstatus
    | some => exact .inr (Event.received?_eq_none_of_status? hstatus)
  · intro first later s hmoves
    subst hmoves
    have hbefore := tells_after hpos first
    have hthen := (reads_subscribe hbefore s).run (tells_move hbefore (.subscribe s)) later
    have hrun : after capacity hpos (first ++ .subscribe s :: later) =
        ((after capacity hpos first).move (.subscribe s)).run later := run_append _ _ _
    rw [← hrun] at hthen
    obtain ⟨u, read, unread, hu, hstands⟩ := hthen
    have hall : emitted (first ++ .subscribe s :: later) = emitted first ++ emitted later :=
      List.filterMap_append
    rw [hall] at htold
    refine ⟨u, read, unread, hu, hstands.items, hstands.got, ?_, ?_⟩
    · rw [hstands.next htold]
    · intro hfew
      exact Broadcast.deliveryOf_ne_lagged (Nat.le_trans hfew (le_ceilPow2 capacity))

/-- One reader, three events while it is not reading, and room for one item: the data that is
no text comes to nothing, and the first text is missed. -/
def slowReading : List Move :=
  [.subscribe .messages, .emit (.text "a" "one"), .emit (.binary "a" [0xC0, 0x80]),
    .emit (.binary "a" [0x74, 0x77, 0x6F]), .receive 0, .receive 0]

theorem fan_out_slow_reading :
    (after 1 Nat.one_pos slowReading).hub.bus.latestMessage.value = some ⟨"a", "two"⟩ ∧
    ∃ (u : Subscriber .messages) (read unread : List Received),
      (after 1 Nat.one_pos slowReading).subscribers[0]? = some ⟨.messages, u⟩ ∧
      [⟨"a", "one"⟩, ⟨"a", "two"⟩] = read ++ unread ∧ StandFor u.got read := by
  obtain ⟨-, -, -, hlatest, hreaders⟩ := fan_out 1 Nat.one_pos slowReading
  have hsaid : (emitted slowReading).filterMap Event.received? =
      [⟨"a", "one"⟩, ⟨"a", "two"⟩] := by decide +kernel
  rw [hsaid] at hlatest
  obtain ⟨u, read, unread, hu, hitems, hgot, -⟩ := hreaders [] slowReading.tail .messages rfl
  exact ⟨hlatest, u, read, unread, hu, hsaid.symm.trans hitems, hgot⟩

example : ∃ u : Subscriber .messages,
    (after 1 Nat.one_pos slowReading).subscribers = [⟨_, u⟩] ∧
      u.got = [.lagged 1, .item ⟨"a", "two"⟩] :=
  ⟨_, rfl, rfl⟩

end Audience

end WebSocketHost
