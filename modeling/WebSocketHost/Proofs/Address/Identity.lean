import WebSocketHost.Event
import WebSocketHost.Proofs.Address.Written

/-! A connection is known by the text of its peer's address. That text is read back as the
address, so two peers are never taken for one. -/
namespace WebSocketHost

open Text (Reader)
open Text.Reader

namespace SocketAddress

variable {cs rest : List Char}

theorem readPort_append (port : UInt16) (hrest : Stops (isDigit 10) rest) :
    readPort (':' :: (Nat.toDigits 10 port.toNat ++ rest)) = some (port, rest) := by
  refine (bind_of_some (char_cons ':' _)).trans ?_
  refine (bind_of_some (number_append (by decide) (by decide) port.toNat_lt hrest)).trans ?_
  rw [UInt16.ofNat_toNat]
  rfl

theorem readScope_append (scope : UInt32) (hrest : Stops (isDigit 10) rest) :
    readScope ('%' :: (Nat.toDigits 10 scope.toNat ++ rest)) = some (scope, rest) := by
  refine (bind_of_some (char_cons '%' _)).trans ?_
  refine (bind_of_some (number_append (by decide) (by decide) scope.toNat_lt hrest)).trans ?_
  rw [UInt32.ofNat_toNat]
  rfl

theorem optional_of_some {α : Type} {r : Reader α} {a : α} (h : r cs = some (a, rest)) :
    optional r cs = some (some a, rest) :=
  orElse_of_some (bind_of_some h)

theorem optional_of_none {α : Type} {r : Reader α} (h : r cs = none) :
    optional r cs = some (none, cs) :=
  orElse_of_none (bind_of_none h)

theorem toList_v4 (ip : Ipv4) (port : UInt16) : (v4 ip port).toText.toList =
    ip.toText.toList ++ ':' :: Nat.toDigits 10 port.toNat := by
  simp [toText]
  rfl

theorem toList_v6 (ip : Ipv6) (scope : UInt32) (port : UInt16) :
    (v6 ip scope port).toText.toList = '[' :: (ip.toText.toList ++
      ((if scope = 0 then [] else '%' :: Nat.toDigits 10 scope.toNat) ++
        ']' :: ':' :: Nat.toDigits 10 port.toNat)) := by
  by_cases hscope : scope = 0
  · simp [toText, hscope]
    rfl
  · simp [toText, hscope]
    rfl

theorem readV4_append (ip : Ipv4) (port : UInt16) :
    readV4 (v4 ip port).toText.toList = some (v4 ip port, []) := by
  have hport := readPort_append port stops_nil
  rw [List.append_nil] at hport
  rw [toList_v4]
  refine (bind_of_some (ip.read_append (stops_cons rfl))).trans ?_
  exact bind_of_some hport

theorem readV6_append (ip : Ipv6) (scope : UInt32) (port : UInt16) :
    readV6 (v6 ip scope port).toText.toList = some (v6 ip scope port, []) := by
  have hport := readPort_append port stops_nil
  rw [List.append_nil] at hport
  have hscope (rest : List Char) : optional readScope
      ((if scope = 0 then [] else '%' :: Nat.toDigits 10 scope.toNat) ++ ']' :: rest) =
      some (if scope = 0 then none else some scope, ']' :: rest) := by
    split
    · exact optional_of_none (bind_of_none (char_of_head?_ne (by simp)))
    · exact optional_of_some (readScope_append scope (stops_cons rfl))
  have hends (rest : List Char) : Ipv6.Ends
      ((if scope = 0 then [] else '%' :: Nat.toDigits 10 scope.toNat) ++ ']' :: rest) := by
    split
    · exact .of_cons (by decide) (by decide)
    · exact .of_cons (by decide) (by decide)
  rw [toList_v6]
  refine (bind_of_some (char_cons '[' _)).trans ?_
  refine (bind_of_some (ip.read_append (hends _))).trans ?_
  refine (bind_of_some (hscope _)).trans ?_
  refine (bind_of_some (char_cons ']' _)).trans ?_
  refine (bind_of_some hport).trans ?_
  by_cases hzero : scope = 0
  · rw [if_pos hzero, hzero]
    rfl
  · rw [if_neg hzero]
    rfl

theorem ofText?_toText (a : SocketAddress) : ofText? a.toText = some a := by
  have hread : read a.toText.toList = some (a, []) := by
    cases a with
    | v4 ip port => exact orElse_of_some (readV4_append ip port)
    | v6 ip scope port =>
      have hv4 : readV4 (v6 ip scope port).toText.toList = none := by
        rw [toList_v6]
        exact bind_of_none (Ipv4.read_eq_none (by simp [show isDigit 10 '[' = false by decide]))
      exact (orElse_of_none hv4).trans (readV6_append ip scope port)
  simp only [ofText?, whole, hread]

theorem toText_injective : Function.Injective toText := by
  intro a b h
  rw [← Option.some.injEq, ← ofText?_toText a, h, ofText?_toText]

end SocketAddress

/-- The name of a connection tells its peer: it is read back as the peer's address, and two peers
that differ in anything have different names. An address of the longer kind stands in brackets, in
the one form of all that it could have, with its scope if it has one. -/
theorem SessionId.ofAddress_tells_peer :
    (∀ a : SocketAddress, SocketAddress.ofText? (SessionId.ofAddress a) = some a) ∧
    (∀ a b : SocketAddress, SessionId.ofAddress a = SessionId.ofAddress b ↔ a = b) ∧
    ∀ (ip : Ipv6) (scope : UInt32) (port : UInt16), ∃ text, ip.IsWritten text ∧
      SessionId.ofAddress (.v6 ip scope port) =
        "[" ++ text ++ (if scope = 0 then "" else s!"%{scope.toNat}") ++ s!"]:{port.toNat}" := by
  refine ⟨SocketAddress.ofText?_toText, fun _ _ => SocketAddress.toText_injective.eq_iff,
    fun ip scope port => ⟨ip.toText, ip.isWritten_toText, ?_⟩⟩
  rw [← String.toList_inj, SessionId.ofAddress, SocketAddress.toList_v6]
  by_cases hscope : scope = 0
  · simp [hscope]
    rfl
  · simp [hscope]
    rfl

end WebSocketHost
