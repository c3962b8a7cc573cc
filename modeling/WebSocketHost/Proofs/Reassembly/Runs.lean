import WebSocketHost.Proofs.Reassembly.Push

/-! What a reassembler gives back over any history of frames. A run is a first fragment
and all that came after it before its message was complete. What is collected is always
the data of one run, the one the history ends with, or there is nothing collected and
the reassembler is as good as new. -/
namespace WebSocketHost

/-- A message begun and not complete, and everything pushed since. -/
structure Run where
  first : Frame
  later : List Frame

namespace Run

def frames (r : Run) : List Frame := r.first :: r.later

structure Open (r : Run) : Prop where
  initial : r.first.opcode = .text ∨ r.first.opcode = .binary
  unfinished : r.first.fin = false
  /-- Frames that are no part of a message may come in between. -/
  continued : ∀ f ∈ r.later, Reassembler.concerns f.opcode = true →
    f.opcode = .continuation ∧ f.fin = false

end Run

namespace Reassembler

theorem isBuffering_eq_false_iff {r : Reassembler} : r.isBuffering = false ↔ r.pending = none := by
  simp [isBuffering]

theorem concerns_eq_false_iff {o : Opcode} :
    concerns o = false ↔ o.isControl = true ∨ o.isReserved = true := by
  cases o <;> simp [concerns, Opcode.isControl, Opcode.isReserved]

/-- Everything a push can be. -/
inductive Taken (r : Reassembler) (f : Frame) :
    Except ReassemblyError (Option Frame) × Reassembler → Prop
  | passed (hf : concerns f.opcode = false) : Taken r f (.ok (some f), r)
  | refused (hf : concerns f.opcode = true) (e : ReassemblyError) :
    Taken r f (.error e, { r with pending := none })
  | whole (hr : r.pending = none) (hop : f.opcode = .text ∨ f.opcode = .binary)
    (hfin : f.fin = true) : Taken r f (.ok (some f), { r with pending := none })
  | first (hr : r.pending = none) (hop : f.opcode = .text ∨ f.opcode = .binary)
    (hfin : f.fin = false) : Taken r f (.ok none, { r with pending := some (.start f) })
  | next (m : PartialMessage) (hr : r.pending = some m) (hop : f.opcode = .continuation)
    (hfin : f.fin = false) : Taken r f (.ok none, { r with pending := some (m.extend f) })
  | last (m : PartialMessage) (hr : r.pending = some m) (hop : f.opcode = .continuation)
    (hfin : f.fin = true) :
    Taken r f (.ok (some (m.extend f).frame), { r with pending := none })

theorem push_taken (r : Reassembler) (f : Frame) : Taken r f (r.push f) := by
  cases hcon : concerns f.opcode with
  | false =>
    rw [push_of_not_concerned hcon]
    exact .passed hcon
  | true =>
    have refused (e : ReassemblyError) (h : advance r.limits r.pending f = .error e) :
        Taken r f (r.push f) := by
      rw [push_of_refused hcon h]
      exact .refused hcon e
    cases hr : r.pending with
    | none =>
      by_cases hop : f.opcode = .continuation
      · exact refused _ (by rw [hr, advance_unexpected hop])
      have hop' := initial_of_concerns hcon hop
      have hadv := hr ▸ advance_first r.limits hop
      split at hadv
      · next hfin =>
        rw [push_of_whole hcon hadv]
        exact .whole hr hop' hfin
      · next hfin =>
        split at hadv
        · exact refused _ hadv
        · split at hadv
          · exact refused _ hadv
          · rw [push_of_part hcon hadv]
            exact .first hr hop' (Bool.eq_false_iff.mpr hfin)
    | some m =>
      by_cases hop : f.opcode = .continuation
      · have hadv := hr ▸ advance_continuation r.limits m hop
        split at hadv
        · exact refused _ hadv
        · split at hadv
          · exact refused _ hadv
          · split at hadv
            · exact refused _ hadv
            · cases hfin : f.fin with
              | true =>
                rw [hfin] at hadv
                rw [push_of_whole hcon hadv]
                exact .last m hr hop hfin
              | false =>
                rw [hfin] at hadv
                rw [push_of_part hcon hadv]
                exact .next m hr hop hfin
      · exact refused _ (by rw [hr, advance_interleaved hop])

/-- Frames one after another, with what each push gives. -/
def pushAll (r : Reassembler) :
    List Frame → List (Except ReassemblyError (Option Frame)) × Reassembler
  | [] => ([], r)
  | f :: fs =>
    let (given, r) := r.push f
    let (rest, r) := r.pushAll fs
    (given :: rest, r)

theorem pushAll_cons (r : Reassembler) (f : Frame) (fs : List Frame) :
    r.pushAll (f :: fs) =
      ((r.push f).1 :: ((r.push f).2.pushAll fs).1, ((r.push f).2.pushAll fs).2) := rfl

theorem pushAll_append (r : Reassembler) (fs gs : List Frame) :
    r.pushAll (fs ++ gs) =
      ((r.pushAll fs).1 ++ ((r.pushAll fs).2.pushAll gs).1, ((r.pushAll fs).2.pushAll gs).2) := by
  induction fs generalizing r with
  | nil => rfl
  | cons f fs ih => simp [pushAll_cons, ih]

@[simp] theorem limits_pushAll (r : Reassembler) (fs : List Frame) :
    (r.pushAll fs).2.limits = r.limits := by
  induction fs generalizing r with
  | nil => rfl
  | cons f fs ih => rw [pushAll_cons, ih, limits_push]

/-- A reassembler with a history. -/
def after (limits : ReassemblyLimits) (past : List Frame) : Reassembler :=
  (({ limits } : Reassembler).pushAll past).2

@[simp] theorem limits_after (limits : ReassemblyLimits) (past : List Frame) :
    (after limits past).limits = limits := by
  simp [after]

theorem after_concat (limits : ReassemblyLimits) (past : List Frame) (f : Frame) :
    after limits (past ++ [f]) = ((after limits past).push f).2 := by
  simp [after, pushAll_append, pushAll]

/-- The data of the frames that take part in reassembly. -/
def fragments (fs : List Frame) : List Octets :=
  (fs.filter fun f => concerns f.opcode).map Frame.payload

theorem fragments_append (fs gs : List Frame) :
    fragments (fs ++ gs) = fragments fs ++ fragments gs := by
  simp [fragments]

theorem fragments_of_concerned {f : Frame} (h : concerns f.opcode = true) :
    fragments [f] = [f.payload] := by
  simp [fragments, h]

theorem fragments_of_not_concerned {f : Frame} (h : concerns f.opcode = false) :
    fragments [f] = [] := by
  simp [fragments, h]

section Collected

variable {limits : ReassemblyLimits} {past : List Frame}

/-- The history ends with a run, and its data is what is collected. -/
def EndsWith (limits : ReassemblyLimits) (past : List Frame) (run : Run) : Prop :=
  ∃ before, past = before ++ run.frames ∧ run.Open ∧ (after limits before).pending = none ∧
    (after limits past).pending = some (.gathered run.first.opcode (fragments run.frames))

theorem EndsWith.push {run : Run} {f : Frame} (h : EndsWith limits past run)
    (hcont : concerns f.opcode = true → f.opcode = .continuation ∧ f.fin = false)
    (hpend : (after limits (past ++ [f])).pending =
      some (.gathered run.first.opcode (fragments (run.frames ++ [f])))) :
    EndsWith limits (past ++ [f]) { run with later := run.later ++ [f] } := by
  obtain ⟨before, hpast, hopen, hbefore, _⟩ := h
  refine ⟨before, ?_, ⟨hopen.initial, hopen.unfinished, ?_⟩, hbefore, hpend⟩
  · simp [hpast, Run.frames]
  · intro g hg
    rcases List.mem_append.mp hg with hg | hg
    · exact hopen.continued g hg
    · rwa [List.mem_singleton.mp hg]

/-- Nothing is collected but the data of the run a history ends with. -/
def Accounted (limits : ReassemblyLimits) (past : List Frame) : Prop :=
  (after limits past).pending = none ∨ ∃ run, EndsWith limits past run

theorem Accounted.concat (h : Accounted limits past) (f : Frame) :
    Accounted limits (past ++ [f]) := by
  have hafter := after_concat limits past f
  have hstep := push_taken (after limits past) f
  generalize (after limits past).push f = p at hafter hstep
  cases hstep with
  | passed hf =>
    rcases h with h | ⟨run, h⟩
    · left
      rw [hafter, h]
    · right
      refine ⟨_, h.push (fun hcon => ?_) ?_⟩
      · rw [hf] at hcon
        cases hcon
      · obtain ⟨before, _, _, _, hpend⟩ := h
        rw [hafter, hpend, fragments_append, fragments_of_not_concerned hf, List.append_nil]
  | refused hf e =>
    left
    rw [hafter]
  | whole hr hop hfin =>
    left
    rw [hafter]
  | first hr hop hfin =>
    right
    refine ⟨⟨f, []⟩, past, rfl, ⟨hop, hfin, nofun⟩, hr, ?_⟩
    rw [hafter, PartialMessage.start_eq_gathered, ← fragments_of_concerned (concerns_initial hop)]
    rfl
  | next m hr hop hfin =>
    right
    rcases h with h | ⟨run, h⟩
    · rw [h] at hr
      cases hr
    · refine ⟨_, h.push (fun _ => ⟨hop, hfin⟩) ?_⟩
      obtain ⟨before, _, _, _, hpend⟩ := h
      have hcon := concerns_continuation hop
      rw [hpend] at hr
      rw [hafter, fragments_append, fragments_of_concerned hcon, ← PartialMessage.extend_gathered,
        Option.some.inj hr]
  | last m hr hop hfin =>
    left
    rw [hafter]

theorem accounted (limits : ReassemblyLimits) (past : List Frame) : Accounted limits past := by
  suffices h : ∀ later past, Accounted limits past → Accounted limits (past ++ later) by
    exact h past [] (.inl rfl)
  intro later
  induction later with
  | nil =>
    intro past h
    rwa [List.append_nil]
  | cons f later ih =>
    intro past h
    rw [List.append_cons]
    exact ih _ (h.concat f)

end Collected

section Completed

variable {limits : ReassemblyLimits}

/-- In the middle of a message of which this much has come. -/
def collecting (limits : ReassemblyLimits) (opcode : Opcode) (sent : List Octets) : Reassembler :=
  ⟨limits, some (.gathered opcode sent)⟩

/-- What pushing a frame gives while a message is not complete. -/
def inBetween (f : Frame) : Except ReassemblyError (Option Frame) :=
  .ok (if concerns f.opcode then none else some f)

theorem pushAll_later {opcode : Opcode} {sent : List Octets} {later : List Frame}
    (hcont : ∀ f ∈ later, concerns f.opcode = true → f.opcode = .continuation ∧ f.fin = false)
    (hleast : ∀ f ∈ later, concerns f.opcode = true → limits.minFragment ≤ f.payload.length)
    (hsize : (sent ++ fragments later).flatten.length ≤ limits.maxSize)
    (hcount : (sent ++ fragments later).length ≤ limits.maxFragments) :
    (collecting limits opcode sent).pushAll later =
      (later.map inBetween, collecting limits opcode (sent ++ fragments later)) := by
  induction later generalizing sent with
  | nil => simp [pushAll, fragments]
  | cons f later ih =>
    have hcont' := fun g hg => hcont g (List.mem_cons_of_mem f hg)
    have hleast' := fun g hg => hleast g (List.mem_cons_of_mem f hg)
    have hcons : fragments (f :: later) = fragments [f] ++ fragments later :=
      fragments_append [f] later
    rw [hcons, ← List.append_assoc] at hsize hcount ⊢
    cases hcon : concerns f.opcode with
    | false =>
      rw [fragments_of_not_concerned hcon, List.append_nil] at hsize hcount ⊢
      rw [pushAll_cons, push_of_not_concerned hcon, ih hcont' hleast' hsize hcount]
      simp [inBetween, hcon]
    | true =>
      rw [fragments_of_concerned hcon] at hsize hcount ⊢
      obtain ⟨hop, hfin⟩ := hcont f List.mem_cons_self hcon
      have hleast := hleast f List.mem_cons_self hcon
      have hpush : (collecting limits opcode sent).push f =
          (.ok none, collecting limits opcode (sent ++ [f.payload])) := by
        rw [push_continuation hop rfl (fun _ => hleast), hfin]
        · rfl
        · rw [List.flatten_append, List.length_append] at hsize
          exact Nat.le_of_add_right_le hsize
        · rw [List.length_append, List.length_append] at hcount
          exact Nat.le_of_add_right_le hcount
      rw [pushAll_cons, hpush, ih hcont' hleast' hsize hcount]
      simp [inBetween, hcon]

/-- A run and the fragment that completes it, within the limits. -/
structure Fits (limits : ReassemblyLimits) (run : Run) (last : Frame) : Prop where
  least : ∀ f ∈ run.frames, concerns f.opcode = true → limits.minFragment ≤ f.payload.length
  size : (fragments (run.frames ++ [last])).flatten.length ≤ limits.maxSize
  count : (fragments (run.frames ++ [last])).length ≤ limits.maxFragments

theorem pushAll_run {run : Run} {last : Frame} (hrun : run.Open)
    (hop : last.opcode = .continuation) (hfin : last.fin = true) (hfits : Fits limits run last) :
    ({ limits } : Reassembler).pushAll (run.frames ++ [last]) =
      (run.frames.map inBetween ++
        [.ok (some (.whole run.first.opcode (fragments (run.frames ++ [last])).flatten))],
        { limits }) := by
  obtain ⟨hleast, hsize, hcount⟩ := hfits
  have hfirst : concerns run.first.opcode = true := concerns_initial hrun.initial
  have hlast := concerns_continuation hop
  have hfrags : fragments run.frames = [run.first.payload] ++ fragments run.later := by
    rw [← fragments_of_concerned hfirst]
    exact fragments_append [run.first] run.later
  rw [fragments_append, fragments_of_concerned hlast] at hsize hcount ⊢
  have hsize' : (fragments run.frames).flatten.length ≤ limits.maxSize := by
    rw [List.flatten_append, List.length_append] at hsize
    omega
  have hcount' : (fragments run.frames).length ≤ limits.maxFragments := by
    rw [List.length_append] at hcount
    omega
  have hbegun : ({ limits } : Reassembler).push run.first =
      (.ok none, collecting limits run.first.opcode [run.first.payload]) := by
    apply push_first hrun.initial hrun.unfinished rfl (hleast _ List.mem_cons_self hfirst)
    rw [hfrags, List.flatten_append, List.length_append] at hsize'
    simpa using Nat.le_of_add_right_le hsize'
  have hlater : (collecting limits run.first.opcode [run.first.payload]).pushAll run.later =
      (run.later.map inBetween, collecting limits run.first.opcode (fragments run.frames)) := by
    rw [hfrags] at hsize' hcount' ⊢
    exact pushAll_later hrun.continued (fun f hf => hleast f (List.mem_cons_of_mem _ hf))
      hsize' hcount'
  have hdone : (collecting limits run.first.opcode (fragments run.frames)).push last =
      (.ok (some (.whole run.first.opcode (fragments run.frames ++ [last.payload]).flatten)),
        { limits }) := by
    rw [push_continuation hop rfl (fun h => absurd (hfin.symm.trans h) nofun) hsize, hfin]
    · rfl
    · rwa [List.length_append] at hcount
  have hquiet : inBetween run.first = .ok none := by rw [inBetween, if_pos hfirst]
  rw [pushAll_append, Run.frames, pushAll_cons, hbegun, hlater]
  simp only [pushAll, hdone, List.map_cons, hquiet]
  rfl

end Completed

theorem eq_fresh {r : Reassembler} (h : r.pending = none) : r = { limits := r.limits } := by
  cases r
  cases h
  rfl

/-- Whatever came before, what a push gives as a message is the frame itself or the run
that ends with it. Frames that are no part of a message pass. A run within the limits is
given in full. And after a message or an error nothing of the past is left. -/
theorem push_gives_runs (limits : ReassemblyLimits) (past : List Frame) :
    (∀ f g, ((after limits past).push f).1 = .ok (some g) → concerns g.opcode = true →
      (g = f ∧ f.fin = true ∧ (f.opcode = .text ∨ f.opcode = .binary) ∧
          (after limits past).isBuffering = false) ∨
        ∃ before, ∃ run : Run, past = before ++ run.frames ∧ run.Open ∧
          (after limits before).isBuffering = false ∧
          f.opcode = .continuation ∧ f.fin = true ∧
          g = .whole run.first.opcode (fragments (run.frames ++ [f])).flatten) ∧
    (∀ f, f.opcode.isControl = true ∨ f.opcode.isReserved = true →
      (after limits past).push f = (.ok (some f), after limits past)) ∧
    (∀ run last, (after limits past).isBuffering = false → run.Open →
      last.opcode = .continuation → last.fin = true → Fits limits run last →
      ((after limits past).pushAll (run.frames ++ [last])).1 = run.frames.map inBetween ++
        [.ok (some (.whole run.first.opcode (fragments (run.frames ++ [last])).flatten))]) ∧
    ∀ f, ((∃ e, ((after limits past).push f).1 = .error e) ∨
        ∃ g, ((after limits past).push f).1 = .ok (some g) ∧ concerns g.opcode = true) →
      ((after limits past).push f).2.isBuffering = false ∧
        ∀ later, ((after limits past).push f).2.pushAll later =
          ({ limits } : Reassembler).pushAll later := by
  have hlimits : (after limits past).limits = limits := limits_after limits past
  refine ⟨?_, ?_, ?_, ?_⟩
  · intro f g hg hcon
    have hstep := push_taken (after limits past) f
    generalize (after limits past).push f = p at hg hstep
    cases hstep with
    | passed hf =>
      cases hg
      rw [hf] at hcon
      cases hcon
    | whole hr hop hfin =>
      cases hg
      exact .inl ⟨rfl, hfin, hop, isBuffering_eq_false_iff.mpr hr⟩
    | last m hr hop hfin =>
      cases hg
      right
      rcases accounted limits past with h | ⟨run, before, hpast, hrun, hbefore, hpend⟩
      · rw [h] at hr
        cases hr
      · refine ⟨before, run, hpast, hrun, isBuffering_eq_false_iff.mpr hbefore, hop, hfin, ?_⟩
        have hf := concerns_continuation hop
        rw [hpend] at hr
        rw [← Option.some.inj hr, PartialMessage.extend_gathered, PartialMessage.frame_gathered,
          fragments_append, fragments_of_concerned hf]
    | refused hf e => cases hg
    | first hr hop hfin => cases hg
    | next m hr hop hfin => cases hg
  · intro f hf
    exact push_of_not_concerned (concerns_eq_false_iff.mpr hf)
  · intro run last hr hrun hop hfin hfits
    rw [eq_fresh (isBuffering_eq_false_iff.mp hr), hlimits, pushAll_run hrun hop hfin hfits]
  · intro f hf
    suffices h : ((after limits past).push f).2 = { limits := (after limits past).limits } by
      rw [h, hlimits]
      exact ⟨rfl, fun later => rfl⟩
    have hstep := push_taken (after limits past) f
    generalize (after limits past).push f = p at hf hstep
    cases hstep with
    | passed hcon => simp [hcon] at hf
    | refused hcon e => rfl
    | whole hr hop hfin => rfl
    | last m hr hop hfin => rfl
    | first hr hop hfin => simp at hf
    | next m hr hop hfin => simp at hf

/-- A run of three fragments, as many as are allowed, with a ping inside and behind a run
that was broken off: its second fragment began a message of its own. -/
theorem push_gives_runs_behind_broken_run :
    let limits : ReassemblyLimits := ⟨1, 3, 3⟩
    let broken : Frame := ⟨.text, [9, 9], false, 0, none⟩
    let ping : Frame := ⟨.ping, [7], true, 0, none⟩
    ((after limits [broken, broken]).pushAll
        [⟨.binary, [1, 2], false, 0, none⟩, ping, ⟨.continuation, [3], false, 0, none⟩,
          ⟨.continuation, [], true, 0, none⟩]).1 =
      [.ok none, .ok (some ping), .ok none, .ok (some (.whole .binary [1, 2, 3]))] := by
  intro limits broken ping
  exact (push_gives_runs limits [broken, broken]).2.2.1
    ⟨⟨.binary, [1, 2], false, 0, none⟩, [ping, ⟨.continuation, [3], false, 0, none⟩]⟩
    ⟨.continuation, [], true, 0, none⟩ rfl ⟨.inr rfl, rfl, by decide⟩ rfl rfl
    ⟨by decide, by decide, by decide⟩

end Reassembler

end WebSocketHost
