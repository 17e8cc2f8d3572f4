/-
  NetconfClient/Proofs/Session/Reception.lean
  ===========================================
  **Receiving as a function of the octets that were read.**

  `receive` is the whole of the receiving side: every read is appended, messages
  are pulled until one is incomplete, and the first `hello` may change the
  framing or end it all.  A `Reception` says which messages were handed on and
  how things stand then.

  What does not depend on how the octets were cut into reads is its `outcome`:
  the messages, and unless the stream is out of step the intake with all octets
  behind it.  Taking up a reception with two pieces gives the outcome of taking
  it up with both at once (`outcome_resume_resume`), so the reads matter only
  through their concatenation (`outcome_receive`).
-/
import NetconfClient.Proofs.Framing.Arrival
import NetconfClient.Session.Intake

namespace NetconfClient

/-- The decoder behind the greetings. -/
def BaseVersion.decoder : BaseVersion → Decoder
  | .v1_0 => .terminated 0
  | .v1_1 => .chunked .nothing

/-- A framer behind a greeting goes on with the decoder of the base version. -/
theorem Framer.greeted_eq (octets : List UInt8) (limit : Nat) (v : BaseVersion) :
    (if v = .v1_1 then Framer.upgrade ⟨octets, .terminated 0, limit⟩
      else ⟨octets, .terminated 0, limit⟩) = ⟨octets, v.decoder, limit⟩ := by
  cases v <;> rfl

end NetconfClient

namespace NetconfClient.Session

open Framing

/-! ## 1. Receptions -/

/-- How receiving stands. -/
inductive Standing where
  /-- All octets are used up as far as possible. -/
  | waiting (intake : Intake)
  /-- The greeting of the peer was refused; the octets that were not read any more. -/
  | refused (fault : Fault) (intake : Intake) (unread : List UInt8)
  /-- The stream is out of step. -/
  | broken (error : FrameError)
  deriving DecidableEq, Repr

/-- The messages handed on, and how receiving stands behind them. -/
structure Reception where
  routed : List String
  standing : Standing
  deriving DecidableEq, Repr

/-- The same behind earlier messages. -/
def Reception.behind (before : List String) (r : Reception) : Reception :=
  ⟨before ++ r.routed, r.standing⟩

namespace Intake

def extend (i : Intake) (octets : List UInt8) : Intake :=
  { i with framer := i.framer.extend octets }

/-- Takes a message that has been pulled: why receiving ends, if it does.  Only the first
    `hello` matters. -/
def accept (i : Intake) (own : CapabilitySet) (message : String) : Option Fault × Intake :=
  if i.awaiting ∧ Inbound.classify message = .ok .hello then
    match negotiate own message with
    | .ok n =>
      (none, ⟨if n.base = .v1_1 then i.framer.upgrade else i.framer, false⟩)
    | .error fault => (some fault, ⟨i.framer, false⟩)
  else (none, i)

theorem accept_cases (i : Intake) (own : CapabilitySet) (message : String) :
    i.accept own message = (none, i) ∨
      (∃ fault, i.accept own message = (some fault, ⟨i.framer, false⟩)) ∨
      i.accept own message = (none, ⟨i.framer, false⟩) ∨
      i.accept own message = (none, ⟨i.framer.upgrade, false⟩) := by
  unfold accept
  by_cases hfirst : i.awaiting ∧ Inbound.classify message = .ok .hello
  · rw [if_pos hfirst]
    cases negotiate own message with
    | error fault => exact Or.inr (Or.inl ⟨fault, rfl⟩)
    | ok n =>
      by_cases hbase : n.base = .v1_1
      · simp only [if_pos hbase, or_true]
      · simp only [if_neg hbase, true_or, or_true]
  · rw [if_neg hfirst]
    exact Or.inl rfl

theorem buffer_accept (i : Intake) (own : CapabilitySet) (message : String) :
    (i.accept own message).2.framer.buffer = i.framer.buffer := by
  rcases accept_cases i own message with h | ⟨fault, h⟩ | h | h
  · rw [h]
  · rw [h]
  · rw [h]
  · rw [h]
    exact Framer.buffer_upgrade i.framer

/-- Pulls messages until one is incomplete, the stream is out of step or the greeting of
    the peer is refused. -/
def drain (own : CapabilitySet) (i : Intake) : Reception :=
  match _h : i.framer.next with
  | (.incomplete, f) => ⟨[], .waiting { i with framer := f }⟩
  | (.broken error, _) => ⟨[], .broken error⟩
  | (.message text, f) =>
    match _ha : accept { i with framer := f } own text with
    | (some fault, j) => ⟨[text], .refused fault j []⟩
    | (none, j) => (drain own j).behind [text]
termination_by i.framer.buffer.length
decreasing_by
  have hlt := Framer.next_buffer_lt _h
  have hbuf := buffer_accept { i with framer := f } own text
  rw [_ha] at hbuf
  rw [hbuf]
  exact hlt

end Intake

namespace Reception

/-- Goes on with further octets. -/
def resume (own : CapabilitySet) (r : Reception) (more : List UInt8) : Reception :=
  match r.standing with
  | .waiting i => ((i.extend more).drain own).behind r.routed
  | .refused fault i unread => ⟨r.routed, .refused fault i (unread ++ more)⟩
  | .broken _ => r

/-- What does not depend on how the octets were cut: of a stream that is out of step
    only the messages in front of the error. -/
def outcome (r : Reception) : List String × Option (Option Fault × Intake) :=
  (r.routed,
    match r.standing with
    | .waiting i => some (none, i)
    | .refused fault i unread => some (some fault, i.extend unread)
    | .broken _ => none)

end Reception

/-- Receives a stream that comes in the given reads. -/
def receive (own : CapabilitySet) (limit : Nat) (reads : List (List UInt8)) : Reception :=
  reads.foldl (Reception.resume own) ⟨[], .waiting (.start limit)⟩

/-! ## 2. Pulling -/

namespace Intake

variable {own : CapabilitySet} {i j : Intake} {f : Framer} {text : String} {more : List UInt8}

@[simp] theorem framer_extend (i : Intake) (more : List UInt8) :
    (i.extend more).framer = i.framer.extend more := rfl

@[simp] theorem awaiting_extend (i : Intake) (more : List UInt8) :
    (i.extend more).awaiting = i.awaiting := rfl

@[simp] theorem extend_nil (i : Intake) : i.extend [] = i := by
  simp [extend]

@[simp] theorem extend_extend (i : Intake) (first second : List UInt8) :
    (i.extend first).extend second = i.extend (first ++ second) := by
  simp [extend]

theorem accept_extend (i : Intake) (own : CapabilitySet) (message : String) (more : List UInt8) :
    (i.extend more).accept own message =
      ((i.accept own message).1, (i.accept own message).2.extend more) := by
  unfold accept
  rw [awaiting_extend, framer_extend]
  by_cases hfirst : i.awaiting ∧ Inbound.classify message = .ok .hello
  · rw [if_pos hfirst, if_pos hfirst]
    cases negotiate own message with
    | error fault => rfl
    | ok n =>
      by_cases hbase : n.base = .v1_1
      · simp only [if_pos hbase, Framer.upgrade_extend]
        rfl
      · simp only [if_neg hbase]
        rfl
  · rw [if_neg hfirst, if_neg hfirst]

theorem sound_accept (h : i.framer.Sound) (own : CapabilitySet) (message : String) :
    (i.accept own message).2.framer.Sound := by
  rcases accept_cases i own message with hi | ⟨fault, hi⟩ | hi | hi
  · rw [hi]
    exact h
  · rw [hi]
    exact h
  · rw [hi]
    exact h
  · rw [hi]
    exact h.upgrade

theorem drain_of_incomplete (h : i.framer.next = (.incomplete, f)) :
    i.drain own = ⟨[], .waiting { i with framer := f }⟩ := by
  rw [drain]
  split <;> simp_all

theorem drain_of_broken {error : FrameError} (h : i.framer.next = (.broken error, f)) :
    i.drain own = ⟨[], .broken error⟩ := by
  rw [drain]
  split <;> simp_all

theorem drain_of_refused {fault : Fault} (h : i.framer.next = (.message text, f))
    (ha : accept { i with framer := f } own text = (some fault, j)) :
    i.drain own = ⟨[text], .refused fault j []⟩ := by
  rw [drain]
  split <;> simp_all
  split <;> simp_all

/-- Pulling is decided by what is pulled first. -/
theorem drain_congr (h : i.framer.next = j.framer.next) (ha : i.awaiting = j.awaiting) :
    i.drain own = j.drain own := by
  rw [drain, drain, h, ha]

theorem drain_of_message (h : i.framer.next = (.message text, f))
    (ha : accept { i with framer := f } own text = (none, j)) :
    i.drain own = (j.drain own).behind [text] := by
  rw [drain]
  split <;> simp_all
  split <;> simp_all

end Intake

/-! ## 3. Going on -/

namespace Reception

variable {own : CapabilitySet} {r : Reception}

theorem behind_behind (first second : List String) (r : Reception) :
    (r.behind second).behind first = r.behind (first ++ second) := by
  simp [behind]

theorem resume_of_waiting {i : Intake} (h : r.standing = .waiting i) (more : List UInt8) :
    r.resume own more = ((i.extend more).drain own).behind r.routed := by
  rw [resume, h]

theorem resume_behind (before : List String) (r : Reception) (more : List UInt8) :
    (r.behind before).resume own more = (r.resume own more).behind before := by
  obtain ⟨routed, standing⟩ := r
  cases standing with
  | waiting i => simp only [resume, behind, List.append_assoc]
  | refused fault i unread => rfl
  | broken error => rfl

theorem outcome_behind (before : List String) (r : Reception) :
    (r.behind before).outcome = (before ++ r.outcome.1, r.outcome.2) := by
  obtain ⟨routed, standing⟩ := r
  cases standing <;> rfl

/-- What receiving waits with is sound. -/
def Sound (r : Reception) : Prop :=
  match r.standing with
  | .waiting i => i.framer.Sound
  | _ => True

end Reception

namespace Intake

variable {own : CapabilitySet}

theorem sound_drain (i : Intake) (h : i.framer.Sound) : (i.drain own).Sound := by
  fun_induction drain own i with
  | case1 i f hnext => exact h.next hnext
  | case2 => trivial
  | case3 => trivial
  | case4 i text f hnext j haccept ih =>
    have hj : j.framer.Sound := by
      have := sound_accept (i := { i with framer := f }) (h.next hnext) own text
      rwa [haccept] at this
    exact ih hj

/-- **Pulling with more octets at hand is pulling and then going on with them.** -/
theorem outcome_drain_extend (i : Intake) (h : i.framer.Sound) (more : List UInt8) :
    ((i.extend more).drain own).outcome = ((i.drain own).resume own more).outcome := by
  fun_induction drain own i with
  | case1 i f hnext =>
    have hmore := Framer.next_extend h more
    rw [hnext] at hmore
    rw [Reception.resume_of_waiting rfl]
    -- both go on from the same octets and come to the same, or are both out of step
    rcases hmore with heq | ⟨⟨error, g, hq⟩, ⟨error', g', hp⟩⟩
    · rw [drain_congr (i := i.extend more) (j := extend ⟨f, i.awaiting⟩ more) heq rfl]
      rfl
    · rw [drain_of_broken (i := i.extend more) hq,
        drain_of_broken (i := extend ⟨f, i.awaiting⟩ more) hp]
      rfl
  | case2 i error f hnext =>
    have hmore := Framer.next_extend h more
    rw [hnext] at hmore
    obtain ⟨error', g, hq⟩ := hmore
    rw [drain_of_broken (i := i.extend more) hq]
    rfl
  | case3 i text f hnext fault j haccept =>
    have hmore := Framer.next_extend h more
    rw [hnext] at hmore
    have hlater := accept_extend { i with framer := f } own text more
    rw [haccept] at hlater
    -- what comes behind a refused greeting is unread, whether it was at hand or not
    rw [drain_of_refused (i := i.extend more) hmore hlater]
    simp [Reception.outcome, Reception.resume]
  | case4 i text f hnext j haccept ih =>
    have hmore := Framer.next_extend h more
    rw [hnext] at hmore
    have hlater := accept_extend { i with framer := f } own text more
    rw [haccept] at hlater
    have hj : j.framer.Sound := by
      have := sound_accept (i := { i with framer := f }) (h.next hnext) own text
      rwa [haccept] at this
    rw [drain_of_message (i := i.extend more) hmore hlater, Reception.resume_behind,
      Reception.outcome_behind, Reception.outcome_behind, ih hj]

end Intake

/-! ## 4. Reads -/

namespace Reception

variable {own : CapabilitySet} {r : Reception}

theorem Sound.resume (h : r.Sound) (more : List UInt8) : (r.resume own more).Sound := by
  obtain ⟨routed, standing⟩ := r
  cases standing with
  | waiting i => exact Intake.sound_drain (i.extend more) (Framer.Sound.extend h more)
  | refused fault i unread => trivial
  | broken error => trivial

/-- **Two pieces lead where their concatenation leads.** -/
theorem outcome_resume_resume (h : r.Sound) (first second : List UInt8) :
    ((r.resume own first).resume own second).outcome =
      (r.resume own (first ++ second)).outcome := by
  obtain ⟨routed, standing⟩ := r
  cases standing with
  | waiting i =>
    have hdrain := @Intake.outcome_drain_extend own (i.extend first)
      (Framer.Sound.extend h first) second
    rw [resume_of_waiting (r := ⟨routed, .waiting i⟩) rfl,
      resume_of_waiting (r := ⟨routed, .waiting i⟩) rfl, resume_behind, outcome_behind,
      outcome_behind, ← hdrain, Intake.extend_extend]
  | refused fault i unread => simp [resume]
  | broken error => rfl

theorem outcome_foldl_resume (reads : List (List UInt8)) (h : r.Sound)
    (hdone : (r.resume own []).outcome = r.outcome) :
    (reads.foldl (Reception.resume own) r).outcome = (r.resume own reads.flatten).outcome := by
  induction reads generalizing r with
  | nil => exact hdone.symm
  | cons read reads ih =>
    -- behind a read everything is pulled that can be, so the hypothesis holds again
    have hnext : ((r.resume own read).resume own []).outcome = (r.resume own read).outcome := by
      rw [outcome_resume_resume h, List.append_nil]
    rw [List.foldl_cons, List.flatten_cons, ih (h.resume read) hnext, outcome_resume_resume h]

end Reception

theorem drain_start (own : CapabilitySet) (limit : Nat) :
    (Intake.start limit).drain own = ⟨[], .waiting (.start limit)⟩ :=
  Intake.drain_of_incomplete rfl

/-- **Only the concatenation of the reads matters.** -/
theorem outcome_receive (own : CapabilitySet) (limit : Nat) (reads : List (List UInt8)) :
    (receive own limit reads).outcome =
      (((Intake.start limit).extend reads.flatten).drain own).outcome := by
  have hsound : Reception.Sound ⟨[], .waiting (.start limit)⟩ := Framer.sound_start limit
  refine (Reception.outcome_foldl_resume reads hsound ?_).trans ?_
  · rw [Reception.resume_of_waiting rfl, Intake.extend_nil, drain_start]
    rfl
  · rw [Reception.resume_of_waiting rfl]
    rfl

end NetconfClient.Session
