import WebSocketHost.Notification
import WebSocketHost.Proofs.Json.Records

/-! Notifications on the output. Each is one line, whatever a peer has put into it, and a reader
of the output comes to the notifications again, of both kinds and in their order. -/
namespace WebSocketHost

open Json (Scalar IsControl)

theorem Status.ofJson?_toJson (s : Status) : Status.ofJson? s.toJson = some s := by
  have hfits : Json.Fits Status.fields Status.fields := by decide
  have hread : Json.record? Status.fields s.toJson =
      some [.text s.sessionId, .flag s.isConnect] :=
    Json.record?_encodeRecord hfits
  rw [Status.ofJson?, hread]

theorem Received.ofJson?_toJson (r : Received) : Received.ofJson? r.toJson = some r := by
  have hfits : Json.Fits Received.fields Received.fields := by decide
  have hread : Json.record? Received.fields r.toJson =
      some [.text r.sessionId, .text r.content] :=
    Json.record?_encodeRecord hfits
  rw [Received.ofJson?, hread]

/-- A status has no content, and is not taken for a message. -/
theorem Status.received_ofJson?_toJson (s : Status) : Received.ofJson? s.toJson = none := by
  have hfits : Json.Fits Received.fields Status.fields := by decide
  have hread : Json.record? Received.fields s.toJson = none := Json.record?_encodeRecord hfits
  rw [Received.ofJson?, hread]

/-- A message does not say whether the session is connected, and is not taken for a status. -/
theorem Received.status_ofJson?_toJson (r : Received) : Status.ofJson? r.toJson = none := by
  have hfits : Json.Fits Status.fields Received.fields := by decide
  have hread : Json.record? Status.fields r.toJson = none := Json.record?_encodeRecord hfits
  rw [Status.ofJson?, hread]

/-- What the output tells of: the two kinds of lines. -/
abbrev Notification := Status ⊕ Received

namespace Notification

def ofEvent? (e : Event) : Option Notification :=
  (e.status?.map Sum.inl).or (e.received?.map Sum.inr)

def toJson : Notification → String
  | .inl s => s.toJson
  | .inr r => r.toJson

/-- A line read as a status or as a message, whichever it is. -/
def ofJson? (line : String) : Option Notification :=
  ((Status.ofJson? line).map Sum.inl).or ((Received.ofJson? line).map Sum.inr)

/-- The output after notifications, each ended by a line feed. -/
def printed (ns : List Notification) : List Char :=
  ns.flatMap fun n => n.toJson.toList ++ ['\n']

/-- The lines of an output. What stands behind the last line feed is none. -/
def lines (output : List Char) : List String :=
  (output.splitOn '\n').dropLast.map String.ofList

theorem ofJson?_toJson (n : Notification) : ofJson? n.toJson = some n := by
  cases n with
  | inl s => rw [toJson, ofJson?, Status.ofJson?_toJson]; rfl
  | inr r =>
    rw [toJson, ofJson?, Received.status_ofJson?_toJson, Received.ofJson?_toJson]
    rfl

theorem not_isControl_of_mem_toJson {n : Notification} {c : Char} (h : c ∈ n.toJson.toList) :
    ¬IsControl c := by
  cases n with
  | inl s => exact Json.not_isControl_of_mem_encodeRecord h
  | inr r => exact Json.not_isControl_of_mem_encodeRecord h

theorem lines_printed (ns : List Notification) : lines (printed ns) = ns.map toJson := by
  induction ns with
  | nil => rfl
  | cons n ns ih =>
    have hfeed : '\n' ∉ n.toJson.toList := fun h => not_isControl_of_mem_toJson h (by decide)
    have hcut : (printed (n :: ns)).splitOn '\n' =
        n.toJson.toList :: (printed ns).splitOn '\n' := by
      rw [printed, List.flatMap_cons, List.append_assoc, List.singleton_append]
      exact List.splitOn_append_cons_self_of_not_mem hfeed _
    rw [lines, hcut, List.dropLast_cons_of_ne_nil (List.splitOn_ne_nil _ _), List.map_cons,
      String.ofList_toList]
    exact congrArg _ ih

/-- Output is read back line by line, into what was told. -/
theorem map_ofJson?_lines_printed (ns : List Notification) :
    (lines (printed ns)).map ofJson? = ns.map some := by
  rw [lines_printed, List.map_map]
  exact List.map_congr_left fun n _ => ofJson?_toJson n

end Notification

/-- The status and the message of any event are written without a character below the blank, are
read back as what they are and not as the other kind, and stand on the output as one line, with any
others around them. -/
theorem Event.json_reads_back (e : Event) (before after : List Event) :
    let told := (before ++ e :: after).filterMap Notification.ofEvent?
    (∀ s, e.status? = some s →
      (∀ c ∈ s.toJson.toList, 0x20 ≤ c.toNat) ∧
        Status.ofJson? s.toJson = some s ∧ Received.ofJson? s.toJson = none) ∧
    (∀ r, e.received? = some r →
      (∀ c ∈ r.toJson.toList, 0x20 ≤ c.toNat) ∧
        Received.ofJson? r.toJson = some r ∧ Status.ofJson? r.toJson = none) ∧
    (Notification.lines (Notification.printed told)).map Notification.ofJson? = told.map some := by
  intro told
  have hhigh (n : Notification) : ∀ c ∈ n.toJson.toList, 0x20 ≤ c.toNat := fun c hc =>
    Nat.le_of_not_lt (Notification.not_isControl_of_mem_toJson hc)
  refine ⟨fun s _ => ⟨hhigh (.inl s), s.ofJson?_toJson, s.received_ofJson?_toJson⟩,
    fun r _ => ⟨hhigh (.inr r), r.ofJson?_toJson, r.status_ofJson?_toJson⟩, ?_⟩
  exact Notification.map_ofJson?_lines_printed _

/-- A peer that sends the end of a message, a line feed and a status of its own. -/
theorem Event.json_reads_back_forged_line :
    let forged := "\"\x7d\n\x7b\"sessionId\":\"b:2\",\"isConnect\":true\x7d\u007f\\"
    let r : Received := ⟨"a:1", forged⟩
    (Event.text "a:1" forged).received? = some r ∧ '\n' ∉ r.toJson.toList ∧
      Received.ofJson? r.toJson = some r ∧ Status.ofJson? r.toJson = none := by
  intro forged r
  obtain ⟨-, hreceived, -⟩ := Event.json_reads_back (.text "a:1" forged) [] []
  obtain ⟨hhigh, hread, hother⟩ := hreceived r rfl
  exact ⟨rfl, fun h => absurd (hhigh _ h) (by decide), hread, hother⟩

end WebSocketHost
