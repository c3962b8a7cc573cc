import WebSocketHost.Proofs.RequestHead.Extent
import WebSocketHost.Proofs.RequestHead.Lines

/-! Writing a head and reading it again. The lines are written as a client writes them, each
with either line end; each rule takes its own part of the text and stops where the next
begins, and what it took is what was written. -/
namespace WebSocketHost.RequestHead

section Text

def requestLine (head : RequestHead) : String :=
  s!"{head.method} {head.target} HTTP/1.{head.minorVersion}"

def fieldLine (field : String × String) : String := s!"{field.1}: {field.2}"

/-- Lines one after another, the `i`-th with the line end `ends i`. -/
def ended (ends : Nat → Octets) : List String → Octets
  | [] => []
  | line :: lines => Text.utf8 line ++ ends 0 ++ ended (fun i => ends (i + 1)) lines

/-- The lines of a head and the empty line after them. -/
def format (ends : Nat → Octets) (head : RequestHead) : Octets :=
  ended ends (head.requestLine :: head.headers.map fieldLine ++ [""])

end Text

section WellFormed

def IsToken (s : String) : Prop := s ≠ "" ∧ ∀ o ∈ Text.utf8 s, isToken o = true

def IsTarget (s : String) : Prop := s ≠ "" ∧ ∀ o ∈ Text.utf8 s, isTarget o = true

def isControl (o : UInt8) : Bool := o < 32 || o = 127

/-- A value without blanks at its ends or controls but for tabs. It may be empty. -/
def IsFieldValue (s : String) : Prop :=
  Text.trim s = s ∧ ∀ o ∈ Text.utf8 s, isControl o = true → o = tab

structure WellFormed (head : RequestHead) : Prop where
  method : IsToken head.method
  target : IsTarget head.target
  minorVersion : head.minorVersion ≤ 1
  room : head.headers.length ≤ maxHeaders
  names : ∀ field ∈ head.headers, IsToken field.1
  values : ∀ field ∈ head.headers, IsFieldValue field.2

variable {s : String} {o : UInt8}

theorem isToken_ascii (h : isToken o = true) : o < 128 := by
  have hmarks : ∀ mark ∈ tokenMarks, mark < 128 := by decide +kernel
  simp only [isToken, Bool.or_eq_true, Bool.and_eq_true, decide_eq_true_eq,
    List.contains_iff_mem] at h
  rcases h with ((⟨_, h⟩ | ⟨_, h⟩) | ⟨_, h⟩) | h
  · exact UInt8.lt_of_le_of_lt h (by decide)
  · exact UInt8.lt_of_le_of_lt h (by decide)
  · exact UInt8.lt_of_le_of_lt h (by decide)
  · exact hmarks o h

theorem IsToken.ofAscii (h : IsToken s) : Text.ofAscii (Text.utf8 s) = s :=
  Text.ofAscii_utf8 fun o ho => isToken_ascii (h.2 o ho)

theorem isValue_of_not_control (h : isControl o = true → o = tab) : isValue o = true := by
  unfold isControl at h
  unfold isValue
  grind

end WellFormed

open Rule

section Rules

variable {s stop rest : Octets}

theorem split_of_lineEnd (hstop : stop ∈ lineEnds) :
    ∃ o tail, stop = o :: tail ∧ (o = carriageReturn ∨ o = lineFeed) ∧
      ∀ fault rest, endLine o fault (tail ++ rest) = .done () rest := by
  rcases mem_lineEnds.mp hstop with rfl | rfl
  · exact ⟨lineFeed, [], rfl, .inr rfl, fun fault rest => rfl⟩
  · exact ⟨carriageReturn, [lineFeed], rfl, .inl rfl, fun fault rest => rfl⟩

theorem methodRule_append {method : String} (h : IsToken method) (rest : Octets) :
    methodRule (Text.utf8 method ++ space :: rest) = .done method rest := by
  have hstretch := stretch_append h.2 (show isToken space = false by decide) rest
  refine bind_done_iff.mpr ⟨_, _, hstretch, ?_⟩
  simp only [Text.utf8_ne_nil h.1, ne_eq, not_true_eq_false, or_self, if_false, h.ofAscii]
  rfl

theorem targetRule_append {target : String} (h : IsTarget target) (rest : Octets) :
    targetRule (Text.utf8 target ++ space :: rest) = .done target rest := by
  have hstretch := stretch_append h.2 (show isTarget space = false by decide) rest
  refine bind_done_iff.mpr ⟨_, _, hstretch, ?_⟩
  simp only [Text.utf8_ne_nil h.1, ne_eq, not_true_eq_false, or_self, if_false,
    Text.ofUtf8?_utf8]
  rfl

theorem versionRule_append {v : Nat} (h : v ≤ 1) (rest : Octets) :
    versionRule (Text.utf8 s!"HTTP/1.{v}" ++ rest) = .done v rest := by
  obtain rfl | rfl := Nat.le_one_iff_eq_zero_or_eq_one.mp h
  · rw [versionRule_long (by decide)]
    rfl
  · rw [versionRule_long (by decide)]
    rfl

theorem requestLine_eq (head : RequestHead) :
    Text.utf8 head.requestLine = Text.utf8 head.method ++ space ::
      (Text.utf8 head.target ++ space :: Text.utf8 s!"HTTP/1.{head.minorVersion}") := by
  simp only [requestLine, Text.utf8_append, List.append_assoc]
  rfl

theorem fieldLine_eq (field : String × String) :
    Text.utf8 (fieldLine field) = Text.utf8 field.1 ++ colon :: space :: Text.utf8 field.2 := by
  simp only [fieldLine, Text.utf8_append, List.append_assoc]
  rfl

theorem lineRule_blank (hstop : stop ∈ lineEnds) (rest : Octets) :
    lineRule (stop ++ rest) = .done none rest := by
  obtain ⟨o, tail, rfl, ho, htail⟩ := split_of_lineEnd hstop
  have htoken : isToken o = false := by
    rcases ho with rfl | rfl <;> decide
  have hstretch := stretch_append (List.forall_mem_nil _) htoken (tail ++ rest)
  refine bind_done_iff.mpr ⟨_, _, hstretch, ?_⟩
  simp only [ho, and_self, if_true]
  exact bind_done_iff.mpr ⟨_, _, htail .newLine rest, rfl⟩

theorem lineRule_field {field : String × String} (hname : IsToken field.1)
    (hvalue : IsFieldValue field.2) (hstop : stop ∈ lineEnds) (rest : Octets) :
    lineRule (Text.utf8 (fieldLine field) ++ stop ++ rest) =
      .done (some (Text.utf8 field.1, Text.utf8 field.2)) rest := by
  obtain ⟨o, tail, rfl, ho, htail⟩ := split_of_lineEnd hstop
  have hend : isValue o = false := by
    rcases ho with rfl | rfl <;> decide
  have hbytes : ∀ x ∈ space :: Text.utf8 field.2, isValue x = true :=
    List.forall_mem_cons.mpr ⟨by decide, fun x hx => isValue_of_not_control (hvalue.2 x hx)⟩
  have hnameRead := stretch_append hname.2 (show isToken colon = false by decide)
    (space :: Text.utf8 field.2 ++ o :: (tail ++ rest))
  have hvalueRead := stretch_append hbytes hend (tail ++ rest)
  have htrim : Text.trimWhile (fun o => o = space || o = tab) (space :: Text.utf8 field.2) =
      Text.utf8 field.2 := by
    rw [Text.trimWhile_cons_of_pos (by decide)]
    apply Text.trimWhile_utf8 _ hvalue.1
    intro x hx
    rw [Bool.or_eq_true, decide_eq_true_eq, decide_eq_true_eq] at hx
    rcases hx with rfl | rfl <;> decide
  rw [fieldLine_eq]
  refine bind_done_iff.mpr ⟨_, _, by simpa using hnameRead, ?_⟩
  simp only [Text.utf8_ne_nil hname.1, false_and, if_false, ne_eq, not_true_eq_false, or_self]
  refine bind_done_iff.mpr ⟨_, _, hvalueRead, ?_⟩
  refine bind_done_iff.mpr ⟨_, _, htail .headerValue rest, ?_⟩
  rw [htrim]
  rfl

end Rules

section Head

variable {ends : Nat → Octets} {head : RequestHead}

theorem linesRule_ended {fields : List (String × String)} {room : Nat}
    (hends : ∀ i, ends i ∈ lineEnds) (hnames : ∀ field ∈ fields, IsToken field.1)
    (hvalues : ∀ field ∈ fields, IsFieldValue field.2) (hroom : fields.length ≤ room)
    (rest : Octets) :
    linesRule room (ended ends (fields.map fieldLine ++ [""]) ++ rest) =
      .done (fields.map fun field => (Text.utf8 field.1, Text.utf8 field.2)) rest := by
  induction fields generalizing ends room with
  | nil =>
    have hblank := lineRule_blank (hends 0) rest
    cases room <;>
      exact bind_done_iff.mpr ⟨_, _, by simpa [ended, Text.utf8] using hblank, rfl⟩
  | cons field fields ih =>
    obtain ⟨room, rfl⟩ := Nat.exists_eq_add_of_lt hroom
    rw [List.forall_mem_cons] at hnames hvalues
    have hfield := lineRule_field hnames.1 hvalues.1 (hends 0)
      (ended (fun i => ends (i + 1)) (fields.map fieldLine ++ [""]) ++ rest)
    rw [List.append_assoc] at hfield
    have hfields := ih (fun i => hends (i + 1)) hnames.2 hvalues.2
      (Nat.le_add_right fields.length room)
    refine bind_done_iff.mpr ⟨_, _, by simpa [ended] using hfield, ?_⟩
    exact bind_done_iff.mpr ⟨_, _, hfields, rfl⟩

theorem emptyLines_format (hmethod : IsToken head.method) (rest : Octets) :
    emptyLines (Text.utf8 head.method ++ rest) = .done () (Text.utf8 head.method ++ rest) := by
  obtain ⟨o, b, hb⟩ := List.exists_cons_of_ne_nil (Text.utf8_ne_nil hmethod.1)
  have ho : isToken o = true := hmethod.2 o (by simp [hb])
  rw [hb]
  apply emptyLines_text
  · rintro rfl
    simp [show isToken lineFeed = false by decide] at ho
  · rintro rfl
    simp [show isToken carriageReturn = false by decide] at ho

theorem headRule_format (hends : ∀ i, ends i ∈ lineEnds) (hhead : head.WellFormed) (rest : Octets) :
    headRule (head.format ends ++ rest) =
      .done ⟨head.method, head.target, head.minorVersion,
        head.headers.map fun field => (Text.utf8 field.1, Text.utf8 field.2)⟩ rest := by
  obtain ⟨o, tail, hfirst, _, htail⟩ := split_of_lineEnd (hends 0)
  have hfields := linesRule_ended (fun i => hends (i + 1)) hhead.names hhead.values hhead.room rest
  have htext : head.format ends ++ rest =
      Text.utf8 head.method ++ space :: (Text.utf8 head.target ++ space ::
        (Text.utf8 s!"HTTP/1.{head.minorVersion}" ++ o :: (tail ++
          (ended (fun i => ends (i + 1)) (head.headers.map fieldLine ++ [""]) ++ rest)))) := by
    simp [format, ended, requestLine_eq, hfirst]
  rw [htext]
  refine bind_done_iff.mpr ⟨_, _, emptyLines_format hhead.method _, ?_⟩
  refine bind_done_iff.mpr ⟨_, _, methodRule_append hhead.method _, ?_⟩
  refine bind_done_iff.mpr ⟨_, _, targetRule_append hhead.target _, ?_⟩
  refine bind_done_iff.mpr ⟨_, _, versionRule_append hhead.minorVersion _, ?_⟩
  refine bind_done_iff.mpr ⟨o, _, rfl, ?_⟩
  refine bind_done_iff.mpr ⟨_, _, htail .newLine _, ?_⟩
  exact bind_done_iff.mpr ⟨_, _, hfields, rfl⟩

theorem headers_format {fields : List (String × String)}
    (hnames : ∀ field ∈ fields, IsToken field.1)
    (hvalues : ∀ field ∈ fields, IsFieldValue field.2) :
    (fields.map fun field => (Text.utf8 field.1, Text.utf8 field.2)).mapM header = .ok fields := by
  rw [mapM_header_eq_ok_iff, List.forall₂_map_left_iff, List.forall₂_same]
  intro field hfield
  refine header_eq_ok_iff.mpr ⟨field.2, Text.ofUtf8?_utf8 field.2, ?_⟩
  rw [(hnames field hfield).ofAscii, (hvalues field hfield).1]

/-- A head that is written is the head that is read, and nothing behind it is touched. -/
theorem read_format (hends : ∀ i, ends i ∈ lineEnds) (hhead : head.WellFormed)
    (hsize : (head.format ends).length ≤ maxSize) (rest : Octets) :
    read (head.format ends ++ rest) = .ok (head, rest) := by
  refine read_eq_ok_iff.mpr ⟨_, _, headRule_format hends hhead rest, ?_,
    headers_format hhead.names hhead.values, rfl⟩
  rw [List.length_append, Nat.add_sub_cancel_right]
  exact hsize

theorem read_format_mixed_line_ends :
    let head : RequestHead := ⟨"GET", "/a?b=/c", 1,
      [("Host", "x:80"), ("X-Note", ""), ("x-note", "é, a\tb"), ("X-Note", "")]⟩
    let ends := fun i => if i % 2 = 0 then [carriageReturn, lineFeed] else [lineFeed]
    (∀ i, ends i ∈ lineEnds) ∧ head.WellFormed ∧ (head.format ends).length ≤ maxSize ∧
      read (head.format ends ++ [0x81, 0x00]) = .ok (head, [0x81, 0x00]) := by
  intro head ends
  have hends (i : Nat) : ends i ∈ lineEnds := by
    unfold ends
    split <;> decide
  have hhead : head.WellFormed := by
    constructor
    · exact ⟨by decide, by decide +kernel⟩
    · exact ⟨by decide, by decide +kernel⟩
    · decide
    · decide
    · unfold IsToken
      decide +kernel
    · unfold IsFieldValue
      decide +kernel
  have hsize : (head.format ends).length ≤ maxSize := by decide +kernel
  exact ⟨hends, hhead, hsize, read_format hends hhead hsize [0x81, 0x00]⟩

end Head

end WebSocketHost.RequestHead
