import WebSocketHost.Proofs.Session.Step

/-! How bytes are cut on their way makes no difference to a session. A step once
possible stays possible, with the same action, when more bytes arrive; so what is
done for a chunk early would have been done for it late. -/
namespace WebSocketHost.Session

variable {s : Session}

/-- Draining in between changes neither what is done nor where it ends. -/
theorem drain_receive (s : Session) (more : Octets) :
    (s.receive more).drain =
      (s.drain.1 ++ (s.drain.2.receive more).drain.1, (s.drain.2.receive more).drain.2) := by
  induction s using drain_induction with
  | done s h => simp [drain_of_step_none h]
  | step s a t h ih =>
    -- the step is there with the new bytes behind it too, and the rest is the hypothesis
    rw [drain_of_step (step_receive more h), ih, drain_of_step h, List.append_assoc]

theorem foldl_receive (s : Session) (chunks : List Octets) :
    chunks.foldl receive s = s.receive chunks.flatten := by
  induction chunks generalizing s with
  | nil => simp
  | cons chunk chunks ih => rw [List.foldl_cons, ih, receive_receive, List.flatten_cons]

theorem feedAll_cons (s : Session) (chunk : Octets) (chunks : List Octets) :
    s.feedAll (chunk :: chunks) =
      ((s.feed chunk).1 ++ ((s.feed chunk).2.feedAll chunks).1,
        ((s.feed chunk).2.feedAll chunks).2) := rfl

theorem feedAll_eq_drain (h : s.step = none) (chunks : List Octets) :
    s.feedAll chunks = (s.receive chunks.flatten).drain := by
  induction chunks generalizing s with
  | nil => simp [feedAll, drain_of_step_none h]
  | cons chunk chunks ih =>
    have htail : (s.feed chunk).2.feedAll chunks =
        ((s.feed chunk).2.receive chunks.flatten).drain := ih (step_drain _)
    rw [feedAll_cons, htail, List.flatten_cons, ← receive_receive, drain_receive (s.receive chunk)]
    rfl

/-- Two cuts of the same bytes, one drained after every chunk and one either so or
only at the end, give the same actions and leave the same session. -/
theorem feedAll_eq_of_same_bytes (maxFrame : Nat) (limits : ReassemblyLimits)
    (chunks others : List Octets) (hbytes : chunks.flatten = others.flatten) :
    (ofLimits maxFrame limits).feedAll chunks = (ofLimits maxFrame limits).feedAll others ∧
      (ofLimits maxFrame limits).feedAll chunks =
        (others.foldl receive (ofLimits maxFrame limits)).drain := by
  have hfresh := step_ofLimits maxFrame limits
  constructor
  · rw [feedAll_eq_drain hfresh, feedAll_eq_drain hfresh, hbytes]
  · rw [feedAll_eq_drain hfresh, foldl_receive, hbytes]

/-- A ping and a two-byte character, under one key each: cut inside the first key
and inside the character, or not at all, with an empty chunk at the end. -/
theorem feedAll_eq_of_same_bytes_cut_in_key :
    (ofLimits 125 (.ofMaxSize 125)).feedAll
        [[0x89, 0x81, 1, 2], [3, 4, 0x60, 0x81, 0x82, 9, 8, 7, 6, 0xCA], [0xA1]] =
      (ofLimits 125 (.ofMaxSize 125)).feedAll
        [[0x89, 0x81, 1, 2, 3, 4, 0x60, 0x81, 0x82, 9, 8, 7, 6, 0xCA, 0xA1], []] :=
  (feedAll_eq_of_same_bytes 125 (.ofMaxSize 125) _ _ (by decide)).1

end WebSocketHost.Session
