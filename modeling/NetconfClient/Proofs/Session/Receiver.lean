/-
  NetconfClient/Proofs/Session/Receiver.lean
  ==========================================
  **What a session hands on depends on what arrives, not on when.**

  `Follows` relates a session in the middle of a run to `receive`: the octets
  that the receiver has read so far, taken as reads of their own, give exactly
  the messages that it has handed on and the intake that it holds.  Every move
  keeps that (`Follows.perform`), in whatever order the other tasks take their
  steps.  Together with the fact that only the concatenation of the reads
  matters, the cuts of the stream are of no account.
-/
import NetconfClient.Proofs.Session.Reception
import NetconfClient.Proofs.Session.Run

namespace NetconfClient.Session

open Framing Text

/-! ## 1. Reads and messages of a run -/

/-- The octets that a move reads. -/
def System.read? (s : System) : Move → Option (List UInt8)
  | .step .receiver =>
    if s.receiver = .reading ∧ s.receiverStops = false then
      match s.link.read s.config.readSize with
      | .octets bs _ => some bs
      | _ => none
    else none
  | _ => none

/-- The message that a move hands on. -/
def System.handed? (s : System) : Move → Option String
  | .step .receiver =>
    match s.receiver with
    | .routing message => some message
    | _ => none
  | _ => none

namespace History

/-- The reads, the first one first. -/
def reads (history : History) : List (List UInt8) := history.filterMap fun e => e.1.read? e.2

/-- The messages that were handed on, the first one first. -/
def handed (history : History) : List String := history.filterMap fun e => e.1.handed? e.2

variable {history : History} {s : System} {move : Move}

theorem reads_snoc (history : History) (s : System) (move : Move) :
    reads (history ++ [(s, move)]) = history.reads ++ (s.read? move).toList := by
  rw [reads, List.filterMap_append]
  cases hread : s.read? move <;> simp [hread, reads]

theorem handed_snoc (history : History) (s : System) (move : Move) :
    handed (history ++ [(s, move)]) = history.handed ++ (s.handed? move).toList := by
  rw [handed, List.filterMap_append]
  cases hmessage : s.handed? move <;> simp [hmessage, handed]

end History

/-! ## 2. The session beside the reception -/

/-- What is received once a message has been pulled. -/
def Intake.take (i : Intake) (own : CapabilitySet) (message : String) : Reception :=
  match i.accept own message with
  | (some fault, j) => ⟨[message], .refused fault j []⟩
  | (none, j) => (j.drain own).behind [message]

theorem Intake.drain_eq_take {i : Intake} {f : Framer} {text : String} (own : CapabilitySet)
    (h : i.framer.next = (.message text, f)) :
    i.drain own = take { i with framer := f } own text := by
  rw [take]
  split
  · next fault j haccept => exact drain_of_refused h haccept
  · next j haccept => exact drain_of_message h haccept

/-- The fault with which receiving ends, where it ends by itself. -/
def Standing.Ends (standing : Standing) (fault : Fault) : Prop :=
  match standing with
  | .waiting _ => True
  | .refused refusal _ _ => fault = .transportClosed refusal.message
  | .broken error => fault = error.fault

/-- How a session stands to what has been received, `r`, and what has been handed on. -/
def Agrees (own : CapabilitySet) (r : Reception) (handed : List String) (s : System) : Prop :=
  match s.receiver with
  | .reading => r = ⟨handed, .waiting s.intake⟩
  | .pulling => r = (s.intake.drain own).behind handed
  | .routing message => r = (s.intake.take own message).behind handed
  | .ending fault => r.routed = handed ∧ r.standing.Ends fault
  | .tearing _ | .ended => r.routed = handed

/-- The receiver has handed on what the octets it has read come to. -/
def Follows (own : CapabilitySet) (limit : Nat) (history : History) (s : System) : Prop :=
  s.own = own ∧ Agrees own (receive own limit history.reads) history.handed s

namespace System

variable {s t : System} {move : Move} {own : CapabilitySet}

/-- Handing a message on and taking it into the intake are the same. -/
theorem route_accept (s : System) (message : String) :
    (s.route message).intake = (s.intake.accept s.own message).2 ∧
      (s.route message).receiver =
        match (s.intake.accept s.own message).1 with
        | some fault => .ending (.transportClosed fault.message)
        | none => .pulling := by
  cases hkind : Inbound.classify message with
  | error fault => simp [route, Intake.accept, hkind]
  | ok kind =>
    cases kind with
    | hello =>
      cases hawaiting : s.intake.awaiting with
      | false => simp [route, Intake.accept, Intake.greet, hkind, hawaiting]
      | true =>
        cases hnegotiated : negotiate s.own message with
        | error fault => simp [route, Intake.accept, Intake.greet, hkind, hawaiting, hnegotiated]
        | ok n => simp [route, Intake.accept, Intake.greet, hkind, hawaiting, hnegotiated]
    | reply id =>
      simp only [route, Intake.accept, hkind]
      split <;> simp
    | notification => simp [route, Intake.accept, hkind]
    | unexpected name => simp [route, Intake.accept, hkind]

/-- Only steps of the receiver read or hand on. -/
theorem receiver_perform_of_ne (h : s.perform move = some t) (hne : move ≠ .step .receiver) :
    t.receiver = s.receiver ∧ t.intake = s.intake ∧ t.exchange = s.exchange ∧
      s.read? move = none ∧ s.handed? move = none := by
  cases move with
  | step task =>
    cases task with
    | writer =>
      rw [stepWriter_frame h]
      exact ⟨rfl, rfl, rfl, rfl, rfl⟩
    | receiver => exact absurd rfl hne
    | call number =>
      rw [stepCall_frame h]
      exact ⟨rfl, rfl, rfl, rfl, rfl⟩
  | _ =>
    rw [perform_frame h nofun]
    exact ⟨rfl, rfl, rfl, rfl, rfl⟩

theorem own_perform (h : s.perform move = some t) : t.own = s.own := by
  cases move with
  | step task =>
    cases task with
    | writer => rw [stepWriter_frame h]
    | receiver => rw [stepReceiver_frame h]
    | call number => rw [stepCall_frame h]
  | _ => rw [perform_frame h nofun]

end System

theorem receive_snoc (own : CapabilitySet) (limit : Nat) (reads : List (List UInt8))
    (read : List UInt8) :
    receive own limit (reads ++ [read]) = (receive own limit reads).resume own read := by
  rw [receive, List.foldl_append]
  rfl

section Step

variable {s t : System} {own : CapabilitySet} {limit : Nat} {reads : List (List UInt8)}
  {handed : List String}

/-- A read is one more read of the reception. -/
theorem Agrees.reading (hreceiver : s.receiver = .reading)
    (h : receive own limit reads = ⟨handed, .waiting s.intake⟩) (hstep : s.stepReceiver = some t) :
    Agrees own (receive own limit (reads ++ (s.read? (.step .receiver)).toList)) handed t := by
  by_cases hstop : s.receiverStops = true
  · -- the receiver ends instead of reading
    have hread : s.read? (.step .receiver) = none := by simp [System.read?, hstop]
    simp only [System.stepReceiver, hstop, hreceiver, BEq.rfl, Bool.and_self, if_true] at hstep
    cases hstep
    rw [hread, Option.toList_none, List.append_nil, h]
    rfl
  · rw [Bool.not_eq_true] at hstop
    have hread : s.read? (.step .receiver) = match s.link.read s.config.readSize with
        | .octets bs _ => some bs
        | _ => none := by
      simp only [System.read?, hstop, hreceiver, and_self, if_true]
    simp only [System.stepReceiver, hstop, Bool.false_and, Bool.false_eq_true, if_false,
      System.workReceiver, hreceiver] at hstep
    cases hlink : s.link.read s.config.readSize with
    | octets bs link =>
      rw [hlink] at hread hstep
      cases hstep
      rw [hread, Option.toList_some, receive_snoc, h]
      rfl
    | failed text =>
      rw [hlink] at hread hstep
      cases hstep
      rw [hread, Option.toList_none, List.append_nil, h]
      exact ⟨rfl, trivial⟩
    | ended =>
      rw [hlink] at hread hstep
      cases hstep
      rw [hread, Option.toList_none, List.append_nil, h]
      by_cases hphase : Phase.closing.rank ≤ s.phase.rank
      · simp only [if_pos hphase]
        exact ⟨rfl, trivial⟩
      · simp only [if_neg hphase]
        exact ⟨rfl, trivial⟩
    | blocked =>
      rw [hlink] at hstep
      cases hstep

theorem stepReceiver_of_ne_reading (hreceiver : s.receiver ≠ .reading) :
    s.stepReceiver = s.workReceiver := by
  rw [System.stepReceiver, if_neg]
  rw [Bool.and_eq_true, beq_iff_eq]
  exact fun hboth => hreceiver hboth.2

theorem read?_of_ne_reading (hreceiver : s.receiver ≠ .reading) (move : Move) :
    s.read? move = none := by
  unfold System.read?
  split
  · rw [if_neg fun hboth => hreceiver hboth.1]
  · rfl

theorem Agrees.pulling (hreceiver : s.receiver = .pulling)
    (hstep : s.stepReceiver = some t) : Agrees own ((s.intake.drain own).behind handed) handed t := by
  rw [stepReceiver_of_ne_reading (by rw [hreceiver]; nofun), System.workReceiver, hreceiver]
    at hstep
  dsimp only at hstep
  cases hnext : s.intake.framer.next with
  | mk pull f =>
    rw [hnext] at hstep
    cases pull with
    | message text =>
      cases hstep
      rw [Intake.drain_eq_take own hnext]
      rfl
    | incomplete =>
      cases hstep
      rw [Intake.drain_of_incomplete hnext, Reception.behind, List.append_nil]
      rfl
    | broken error =>
      cases hstep
      rw [Intake.drain_of_broken hnext, Reception.behind, List.append_nil]
      exact ⟨rfl, rfl⟩

theorem Agrees.routing {message : String} (hown : s.own = own)
    (hreceiver : s.receiver = .routing message) (hstep : s.stepReceiver = some t) :
    Agrees own ((s.intake.take own message).behind handed) (handed ++ [message]) t := by
  rw [stepReceiver_of_ne_reading (by rw [hreceiver]; nofun), System.workReceiver, hreceiver]
    at hstep
  cases hstep
  obtain ⟨hintake, hafter⟩ := System.route_accept s message
  rw [hown] at hintake hafter
  rw [Agrees, hafter, Intake.take]
  cases haccept : s.intake.accept own message with
  | mk refusal j =>
    rw [haccept] at hintake
    cases refusal with
    | some fault => exact ⟨rfl, rfl⟩
    | none =>
      dsimp only
      rw [hintake, Reception.behind_behind]

/-- **A step of the receiver keeps the session beside the reception.** -/
theorem Agrees.stepReceiver (hown : s.own = own)
    (h : Agrees own (receive own limit reads) handed s) (hstep : s.stepReceiver = some t) :
    Agrees own (receive own limit (reads ++ (s.read? (.step .receiver)).toList))
      (handed ++ (s.handed? (.step .receiver)).toList) t := by
  rw [Agrees] at h
  by_cases hreading : s.receiver = .reading
  · rw [hreading] at h
    have hhanded : s.handed? (.step .receiver) = none := by rw [System.handed?, hreading]
    rw [hhanded, Option.toList_none, List.append_nil]
    exact Agrees.reading hreading h hstep
  -- elsewhere nothing is read, and the reception stays as it is
  rw [read?_of_ne_reading hreading, Option.toList_none, List.append_nil]
  cases hreceiver : s.receiver with
  | reading => exact absurd hreceiver hreading
  | pulling =>
    rw [hreceiver] at h
    have hhanded : s.handed? (.step .receiver) = none := by rw [System.handed?, hreceiver]
    rw [hhanded, Option.toList_none, List.append_nil, h]
    exact Agrees.pulling hreceiver hstep
  | routing message =>
    rw [hreceiver] at h
    have hhanded : s.handed? (.step .receiver) = some message := by rw [System.handed?, hreceiver]
    rw [hhanded, Option.toList_some, h]
    exact Agrees.routing hown hreceiver hstep
  | ending fault =>
    rw [hreceiver] at h
    have hhanded : s.handed? (.step .receiver) = none := by rw [System.handed?, hreceiver]
    rw [hhanded, Option.toList_none, List.append_nil]
    rw [stepReceiver_of_ne_reading hreading, System.workReceiver, hreceiver] at hstep
    dsimp only at hstep
    split at hstep
    · cases hstep
      exact h.1
    · cases hstep
      exact h.1
  | tearing teardown =>
    rw [hreceiver] at h
    have hhanded : s.handed? (.step .receiver) = none := by rw [System.handed?, hreceiver]
    rw [hhanded, Option.toList_none, List.append_nil]
    rw [stepReceiver_of_ne_reading hreading, System.workReceiver, hreceiver] at hstep
    dsimp only at hstep
    split at hstep
    · cases hstep
      exact h
    · cases hstep
      exact h
  | ended =>
    rw [stepReceiver_of_ne_reading hreading, System.workReceiver, hreceiver] at hstep
    cases hstep

end Step

namespace Follows

variable {own : CapabilitySet} {limit : Nat} {history : History} {s t : System} {move : Move}

theorem perform (h : Follows own limit history s) (hstep : s.perform move = some t) :
    Follows own limit (history ++ [(s, move)]) t := by
  obtain ⟨hown, hagrees⟩ := h
  refine ⟨(System.own_perform hstep).trans hown, ?_⟩
  rw [History.reads_snoc, History.handed_snoc]
  by_cases hmove : move = .step .receiver
  · subst hmove
    exact hagrees.stepReceiver hown hstep
  · obtain ⟨hreceiver, hintake, -, hread, hhanded⟩ :=
      System.receiver_perform_of_ne hstep hmove
    rw [hread, hhanded, Option.toList_none, Option.toList_none, List.append_nil, List.append_nil,
      Agrees, hreceiver, hintake]
    exact hagrees

theorem run {config : Config} {link : Link} {now : Duration}
    (h : Run (.start config own link now) history s) :
    Follows own config.messageLimit history s := by
  induction h with
  | nil => exact ⟨rfl, rfl⟩
  | snoc _ hstep ih => exact ih.perform hstep

end Follows

/-! ## 3. Cuts -/

/-- Two receptions of one stream: the same messages, and the same end but for the kind of a
    framing error.  What a refusal leaves unread counts as buffered. -/
def Reception.Alike (r q : Reception) : Prop :=
  r.routed = q.routed ∧
    match r.standing, q.standing with
    | .waiting i, .waiting j => i = j
    | .refused fault i unread, .refused fault' j unread' =>
      fault = fault' ∧ i.extend unread = j.extend unread'
    | .broken _, .broken _ => True
    | _, _ => False

theorem Reception.alike_of_outcome {r q : Reception} (h : r.outcome = q.outcome) : r.Alike q := by
  obtain ⟨routed, standing⟩ := r
  obtain ⟨routed', standing'⟩ := q
  obtain ⟨hrouted, hend⟩ := Prod.mk.inj h
  refine ⟨hrouted, ?_⟩
  cases standing <;> cases standing' <;> simp_all [Reception.outcome]

/-- **The cuts of a stream are of no account.**  However it is cut into reads, the same
    messages are handed on, and receiving ends alike; behind a greeting that agrees on
    version 1.1, what is at hand already is read as what is still to come; and that is what
    every session does in every run. -/
theorem receive_alike (own : CapabilitySet) :
    (∀ (limit : Nat) (reads reads' : List (List UInt8)), reads.flatten = reads'.flatten →
      (receive own limit reads).Alike (receive own limit reads')) ∧
    (∀ (i : Intake) (searched : Nat) (text : String) (f : Framer) (n : Negotiated),
      i.awaiting = true → i.framer.decoder = .terminated searched →
      i.framer.next = (.message text, f) → Inbound.classify text = .ok .hello →
      negotiate own text = .ok n → n.base = .v1_1 →
      i.drain own = Reception.resume own
        ⟨[text], .waiting ⟨⟨[], .chunked .nothing, i.framer.limit⟩, false⟩⟩ f.buffer) ∧
    (∀ (config : Config) (link : Link) (now : Duration) (history : History) (s : System),
      Run (.start config own link now) history s → Follows own config.messageLimit history s) := by
  refine ⟨fun limit reads reads' hcut => ?_, ?_, fun config link now history s h => .run h⟩
  · apply Reception.alike_of_outcome
    rw [outcome_receive, outcome_receive, hcut]
  · intro i searched text f n hawaiting hdecoder hnext hkind hnegotiated hbase
    have hf : f.upgrade = ⟨f.buffer, .chunked .nothing, i.framer.limit⟩ := by
      rw [Framer.next, hdecoder] at hnext
      obtain ⟨-, rfl⟩ := Prod.mk.inj hnext
      rfl
    have haccept : Intake.accept { i with framer := f } own text = (none, ⟨f.upgrade, false⟩) := by
      rw [Intake.accept, if_pos ⟨hawaiting, hkind⟩, hnegotiated]
      dsimp only
      rw [if_pos hbase]
    rw [Intake.drain_of_message hnext haccept, hf, Reception.resume_of_waiting rfl]
    rfl

/-- A greeting that agrees on version 1.1, cut octet by octet and not at all; the beginning of
    a chunk that comes with it; and a session that has read one octet. -/
theorem receive_alike_upgrade :
    ∃ (own : CapabilitySet) (hello : String) (n : Negotiated) (link : Link) (config : Config),
      hello = "<hello><capabilities><capability>:base:1.1</capability></capabilities></hello>" ∧
      negotiate own hello = .ok n ∧ n.base = .v1_1 ∧
      (receive own 99 [Framing.endOfMessage.encode hello]).Alike
        (receive own 99 ((Framing.endOfMessage.encode hello).map ([·]))) ∧
      Intake.drain own ⟨⟨Framing.endOfMessage.encode hello ++ [lf, hash], .terminated 0, 99⟩, true⟩ =
        Reception.resume own ⟨[hello], .waiting ⟨⟨[], .chunked .nothing, 99⟩, false⟩⟩ [lf, hash] ∧
      ∃ s, Run (.start config own link ⟨0⟩) [(.start config own link ⟨0⟩, .step .receiver)] s ∧
        Follows own config.messageLimit [(.start config own link ⟨0⟩, .step .receiver)] s := by
  have hbase : (negotiate ⟨[⟨"urn:ietf:params:netconf:base:1.1", .empty⟩], by decide⟩
      "<hello><capabilities><capability>:base:1.1</capability></capabilities></hello>").toOption.map
        (·.base) = some .v1_1 := by decide +kernel
  have hkind : Inbound.classify
      "<hello><capabilities><capability>:base:1.1</capability></capabilities></hello>" =
        .ok .hello := by decide +kernel
  have hnext : Framer.next ⟨Framing.endOfMessage.encode
      "<hello><capabilities><capability>:base:1.1</capability></capabilities></hello>" ++
        [lf, hash], .terminated 0, 99⟩ =
      (.message "<hello><capabilities><capability>:base:1.1</capability></capabilities></hello>",
        ⟨[lf, hash], .terminated 0, 99⟩) := by decide +kernel
  revert hbase hkind hnext
  -- from here on only these three facts matter, not the texts
  generalize
    "<hello><capabilities><capability>:base:1.1</capability></capabilities></hello>" = hello
  generalize (⟨[⟨"urn:ietf:params:netconf:base:1.1", .empty⟩], by decide⟩ : CapabilitySet) = own
  intro hbase hkind hnext
  cases hnegotiated : negotiate own hello with
  | error fault =>
    rw [hnegotiated] at hbase
    cases hbase
  | ok n =>
    rw [hnegotiated] at hbase
    have hversion : n.base = .v1_1 := Option.some.inj hbase
    obtain ⟨hcut, hupgrade, hsession⟩ := receive_alike own
    have hrun := Run.single (show (System.start ⟨[], ⟨1⟩, ⟨1⟩, none, 16, 99, 1⟩ own
      (Link.fresh.arrive [60]) ⟨0⟩).perform (.step .receiver) = some _ from rfl)
    have hchunk := hupgrade
      ⟨⟨Framing.endOfMessage.encode hello ++ [lf, hash], .terminated 0, 99⟩, true⟩ 0 hello
      ⟨[lf, hash], .terminated 0, 99⟩ n rfl rfl hnext hkind hnegotiated hversion
    refine ⟨own, hello, n, _, _, rfl, hnegotiated, hversion, hcut 99 _ _ ?_, hchunk, _, hrun,
      hsession _ _ _ _ _ hrun⟩
    rw [List.flatten_singleton, ← List.flatMap_def, List.flatMap_singleton']

end NetconfClient.Session
