/-
  NetconfClient/Proofs/Session/Failing.lean
  =========================================
  **A fault of the link ends the writing and tears the session down.**

  Behind a failed write the writer goes through its teardown without waiting for
  anything: it closes the session, fails what is outstanding with the words of
  the fault, and ends.  If another task has closed the session first, the
  outstanding requests are left to that one.
-/
import NetconfClient.Proofs.Session.Writing

namespace NetconfClient.Session

open Text

variable {config : Config} {own : CapabilitySet} {link : Link} {now : Duration}
  {history before behind : History} {s t u : System} {move : Move} {text : String}

/-! ## 1. The writer behind a failed write -/

/-- How far the writer has come behind a failed write. -/
inductive Failing (text : String) (history : History) (s : System) : Prop where
  /-- It has to close the session. -/
  | closing (hwriter : s.writer = .tearing (.close (.io text)))
  /-- It has closed the session and has to fail what is outstanding. -/
  | failing (hwriter : s.writer = .tearing (.fail (.io text))) (hphase : s.phase = .closed)
  /-- It has failed the requests that were outstanding, and there are no others any more. -/
  | failed (hwriter : s.writer = .ended) (hphase : s.phase = .closed) (w : System)
    (hw : (w, .step .writer) ∈ history) (hteardown : w.writer = .tearing (.fail (.io text)))
    (hregistry : s.registry.closed = true) (hpending : s.registry.pending = [])
    (houtcomes : ∀ id ticket, w.registry.ticket? id = some ticket →
      s.registry.outcome? ticket = some (.error (.transportClosed text)))
  /-- Another task had closed the session before it could. -/
  | forestalled (hwriter : s.writer = .ended) (hphase : s.phase = .closed) (task : System.Task)
    (fault : Fault) (htask : task ≠ .writer) (hclosed : history.ClosedBy task fault)

namespace Failing

/-- The step of the writer at which the link fails. -/
theorem stepWriter_of_writeFault? (h : s.writeFault? (.step .writer) = some text) :
    s.stepWriter = some { s with writer := .tearing (.close (.io text)) } := by
  rw [System.writeFault?] at h
  split at h
  · cases h
  · next hstops =>
    rw [System.stepWriter, if_neg (by simp [hstops]), System.workWriter]
    split at h
    · next hwriter => simp only [hwriter, h]
    · next b bs hwriter => simp only [hwriter, Link.write, h]
    · cases h

/-- The first half of the teardown can be taken at once, and leaves the session closed. -/
theorem exists_closed {fault : Fault} (h : s.writer = .tearing (.close fault)) :
    ∃ t, s.perform (.step .writer) = some t ∧ t.phase = .closed := by
  have htask : s.teardown? .writer = some (.close fault) := by
    rw [System.teardown?, h]
    rfl
  obtain ⟨t, ht⟩ := System.exists_step_of_teardown htask
  have hturn := System.turn_step ht
  rw [htask] at hturn
  exact ⟨t, ht, hturn.1.trans (Phase.advance_closed _)⟩

/-- The second half of the teardown can be taken at once, and ends the writer. -/
theorem exists_ended {fault : Fault} (h : s.writer = .tearing (.fail fault)) :
    ∃ t, s.perform (.step .writer) = some t ∧ t.writer = .ended := by
  have htask : s.teardown? .writer = some (.fail fault) := by
    rw [System.teardown?, h]
    rfl
  obtain ⟨t, ht⟩ := System.exists_step_of_teardown htask
  refine ⟨t, ht, ?_⟩
  have hcases := System.writerStep ht
  rw [h] at hcases
  cases hcases with
  | stop _ hwaits => cases hwaits
  | close hrest => cases hrest
  | finish _ ht' => rw [ht']; rfl

/-- A writer that waits, or has only just begun its teardown, has waited before every step. -/
theorem waits_of_writing (h : Run (.start config own link now) history s)
    (hwriter : s.writer.waits = true ∨ ∃ fault, s.writer = .tearing (.close fault)) :
    ∀ e ∈ history, e.2 = .step .writer → e.1.writer.waits = true := by
  induction h with
  | nil => exact List.forall_mem_nil _
  | @snoc history u v move before hstep ih =>
    have hbefore : u.writer.waits = true ∨
        move ≠ .step .writer ∧ ∃ fault, u.writer = .tearing (.close fault) := by
      by_cases hmove : move = .step .writer
      · subst hmove
        -- a teardown that has begun goes on to its second half or to its end
        have hcases := System.writerStep hstep
        cases hover : u.writer.waits with
        | true => exact .inl rfl
        | false =>
          exfalso
          generalize u.writer = writer at hcases hover
          cases hcases with
          | @close teardown rest hrest ht =>
            subst ht
            rcases hwriter with hwaits | ⟨fault, hclose⟩
            · cases hwaits
            · cases hclose
              cases teardown with
              | close cause =>
                rw [System.tear] at hrest
                split at hrest <;> cases hrest
              | fail cause => cases hrest
          | finish hrest ht =>
            subst ht
            rcases hwriter with hwaits | ⟨fault, hclose⟩
            · cases hwaits
            · cases hclose
          | stop _ hwaits =>
            rw [hwaits] at hover
            cases hover
          | _ => cases hover
      · rw [(System.writer_perform_of_ne hstep hmove).1] at hwriter
        exact hwriter.imp id fun hclose => ⟨hmove, hclose⟩
    intro e he hmove
    rcases List.mem_append.mp he with he | he
    · exact ih (hbefore.imp id And.right) e he hmove
    · rw [List.mem_singleton.mp he] at hmove ⊢
      exact hbefore.resolve_right fun hnot => hnot.1 hmove

/-- The session of a writer that comes too late was closed by another task. -/
theorem closedBy_other {fault : Fault} (h : Run (.start config own link now) history s)
    (hwriter : s.writer = .tearing (.close fault)) (hphase : s.phase = .closed) :
    ∃ task cause, task ≠ .writer ∧ history.ClosedBy task cause := by
  have hother : ∀ task cause, history.ClosedBy task cause → task ≠ .writer := by
    rintro task cause ⟨u, hu, -, hteardown⟩ rfl
    have hwaits := waits_of_writing h (.inr ⟨fault, hwriter⟩) _ hu rfl
    rw [System.teardown?] at hteardown
    generalize u.writer = writer at hwaits hteardown
    cases writer with
    | tearing teardown => cases hwaits
    | ended => cases hwaits
    | _ => cases hteardown
  cases Torn.run h with
  | whole hopen => exact absurd hphase hopen
  | half task cause _ _ _ _ _ hclosed => exact ⟨task, cause, hother task cause hclosed, hclosed⟩
  | done task cause _ _ _ _ hclosed => exact ⟨task, cause, hother task cause hclosed, hclosed⟩

/-- The second half of a teardown fails every request that is outstanding. -/
theorem outcome?_of_fail {fault : Fault} (hwell : s.registry.WellFormed) {id : String}
    {ticket : Ticket} (hticket : s.registry.ticket? id = some ticket) :
    ((s.tear (.fail fault)).1.registry.outcome? ticket) =
      some (.error (.transportClosed fault.closingReason)) :=
  Registry.outcome?_replay hwell hticket [.fail fault]

/-- A step of the writer. -/
theorem stepWriter (h : Failing text history s) (hrun : Run (.start config own link now) history s)
    (hstep : s.stepWriter = some t) : Failing text (history ++ [(s, .step .writer)]) t := by
  have hcases := System.writerStep hstep
  have hlast : (s, Move.step .writer) ∈ history ++ [(s, .step .writer)] :=
    List.mem_append_right _ List.mem_cons_self
  cases h with
  | closing hwriter =>
    have hafter : (s.tear (.close (.io text))).1.phase = .closed := Phase.advance_closed _
    rw [hwriter] at hcases
    cases hcases with
    | stop _ hwaits => cases hwaits
    | close hrest ht =>
      rw [System.tear] at hrest
      split at hrest
      · cases hrest
      · cases hrest
        subst ht
        exact .failing rfl hafter
    | finish hrest ht =>
      rw [System.tear] at hrest
      split at hrest
      · next hphase =>
        obtain ⟨task, cause, htask, hclosed⟩ := closedBy_other hrun hwriter hphase
        subst ht
        exact .forestalled rfl hafter task cause htask (Torn.closedBy_snoc hclosed _)
      · cases hrest
  | failing hwriter hphase =>
    rw [hwriter] at hcases
    cases hcases with
    | stop _ hwaits => cases hwaits
    | close hrest => cases hrest
    | finish hrest ht =>
      subst ht
      exact .failed rfl hphase s hlast hwriter rfl rfl
        fun id ticket hticket => outcome?_of_fail hrun.wellFormed_of_start hticket
  | failed hwriter =>
    rw [hwriter] at hcases
    cases hcases with
    | stop _ hwaits => cases hwaits
  | forestalled hwriter =>
    rw [hwriter] at hcases
    cases hcases with
    | stop _ hwaits => cases hwaits

/-- **Every move keeps how far the writer has come.** -/
theorem perform (h : Failing text history s) (hrun : Run (.start config own link now) history s)
    (hstep : s.perform move = some t) : Failing text (history ++ [(s, move)]) t := by
  by_cases hmove : move = .step .writer
  · subst hmove
    exact h.stepWriter hrun hstep
  · have hwriter := (System.writer_perform_of_ne hstep hmove).1
    have hclosed : s.phase = .closed → t.phase = .closed := fun hphase =>
      Phase.eq_closed_of_rank_le (hphase ▸ System.rank_le_perform hstep)
    cases h with
    | closing hw => exact .closing (hwriter.trans hw)
    | failing hw hphase => exact .failing (hwriter.trans hw) (hclosed hphase)
    | failed hw hphase w hmem hteardown hregistry _ houtcomes =>
      have hregistry' : t.registry.closed = true := by
        rw [Torn.closed_perform hstep, hregistry, Bool.true_or]
      refine .failed (hwriter.trans hw) (hclosed hphase) w (List.mem_append_left _ hmem) hteardown
        hregistry' ((hrun.snoc hstep).wellFormed_of_start.closed_empty hregistry')
        fun id ticket hticket => ?_
      rw [System.registry_perform hstep]
      exact Registry.outcome?_replay_of_settled hrun.wellFormed_of_start
        (houtcomes id ticket hticket) _
    | forestalled hw hphase task cause htask hby =>
      exact .forestalled (hwriter.trans hw) (hclosed hphase) task cause htask
        (Torn.closedBy_snoc hby _)

/-- **Behind a failed write** the writer is at its teardown, or has ended. -/
theorem run (h : Run (.start config own link now) (before ++ (u, .step .writer) :: behind) s)
    (hfault : u.writeFault? (.step .writer) = some text) :
    Failing text (before ++ (u, .step .writer) :: behind) s := by
  obtain ⟨hbefore, v, hv, hbehind⟩ := h.split
  have hu := hbefore.snoc hv
  have hclosing : Failing text (before ++ [(u, .step .writer)]) v := by
    refine .closing ?_
    have hstep : u.stepWriter = some v := hv
    rw [stepWriter_of_writeFault? hfault] at hstep
    cases hstep
    rfl
  rw [List.append_cons]
  induction hbehind with
  | nil =>
    rw [List.append_nil]
    exact hclosing
  | @snoc later w x move hrun hstep ih =>
    rw [← List.append_assoc]
    have hw := hu.append hrun
    exact (ih (by rwa [List.append_assoc] at hw)).perform hw hstep

end Failing

end NetconfClient.Session
