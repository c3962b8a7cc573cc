import WebSocketHost.Octets

/-!
Text as bytes. A text is its own UTF-8 form, so decoding is a check: a byte
string is the encoding of at most one text, and of none when it is ill-formed.
-/
namespace WebSocketHost.Text

/-- The bytes of a text. -/
def utf8 (s : String) : Octets := s.toByteArray.data.toList

/-- The text with the given bytes, if they are well-formed UTF-8. -/
def ofUtf8? (b : Octets) : Option String := String.fromUTF8? ⟨b.toArray⟩

@[simp] theorem ofUtf8?_utf8 (s : String) : ofUtf8? (utf8 s) = some s := by
  simp [ofUtf8?, utf8, String.fromUTF8?, s.isValidUTF8, String.fromUTF8]

theorem ofUtf8?_eq_some_iff {b : Octets} {s : String} : ofUtf8? b = some s ↔ utf8 s = b := by
  refine ⟨fun h => ?_, fun h => h ▸ ofUtf8?_utf8 s⟩
  simp only [ofUtf8?, String.fromUTF8?, Option.dite_none_right_eq_some, Option.some.injEq] at h
  obtain ⟨hb, rfl⟩ := h
  simp [utf8, String.fromUTF8]

theorem utf8_injective {s t : String} (h : utf8 s = utf8 t) : s = t := by
  simpa [h] using (ofUtf8?_utf8 s).symm

theorem length_utf8_ofList_cons (c : Char) (cs : List Char) :
    (utf8 (String.ofList (c :: cs))).length =
      c.utf8Size + (utf8 (String.ofList cs)).length := by
  simp [utf8, List.utf8Encode]

/-- A byte that continues a character; a text may be cut in front of any other. -/
def isContinuation (o : UInt8) : Bool := o &&& 0xC0 == 0x80

end WebSocketHost.Text
