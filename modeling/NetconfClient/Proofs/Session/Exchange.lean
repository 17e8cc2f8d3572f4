/-
  NetconfClient/Proofs/Session/Exchange.lean
  ==========================================
  **The first greeting decides the exchange.**

  What comes of the exchange of greetings is told by the messages that have been
  handed on: the first `hello` among them is negotiated, whatever stood in front
  of it, and nothing behind it matters any more (`Exchanged`).  Without one the
  exchange stays open until receiving itself ends.

  In the stream, the first greeting and the messages in front of it are
  terminated frames; from the octet behind its terminator on, everything is read
  in the framing of the base version (`routed_split`).
-/
import NetconfClient.Proofs.Session.Receiver

namespace NetconfClient.Inbound

/-- Whether a message is a greeting. -/
def greets (message : String) : Bool :=
  match classify message with
  | .ok .hello => true
  | _ => false

theorem greets_iff {message : String} : greets message ↔ classify message = .ok .hello := by
  unfold greets
  split
  · next h => simp [h]
  · next h => simpa using h

end NetconfClient.Inbound

namespace NetconfClient

open Framing

/-! ## 1. Terminated frames -/

namespace Framing.Terminated

/-- The terminator that is put behind those octets is the first one. -/
def IsFrame (octets : List UInt8) : Prop := find? (octets ++ terminator) = some octets.length

instance (octets : List UInt8) : Decidable (IsFrame octets) := inferInstanceAs (Decidable (_ = _))

theorem isFrame_of_find? {frame rest : List UInt8}
    (h : find? (frame ++ (terminator ++ rest)) = some frame.length) : IsFrame frame := by
  obtain ⟨-, hfirst⟩ := find?_eq_some_iff.mp h
  rw [IsFrame, find?_eq_some_iff]
  refine ⟨by simp, fun j hj hp => hfirst j hj ?_⟩
  -- an earlier terminator would be one in the buffer, too
  rw [← List.append_assoc,
    List.drop_append_of_le_length (by simp only [List.length_append]; omega)]
  exact hp.trans (List.prefix_append _ _)

/-- What is pulled off a buffer is the body of its first frame. -/
theorem frame_of_pull {limit : Nat} {buffer : List UInt8} {text : String}
    (h : (pull limit 0 buffer).result = .message text) :
    ∃ frame rest, buffer = frame ++ (terminator ++ rest) ∧ IsFrame frame ∧ text = body frame ∧
      (pull limit 0 buffer).buffer = rest ∧ (pull limit 0 buffer).searched = 0 := by
  cases hfind : find? buffer with
  | none =>
    rw [pull, List.drop_zero, hfind] at h
    dsimp only [missed] at h
    split at h <;> cases h
  | some i =>
    rw [pull, List.drop_zero, hfind] at h ⊢
    dsimp only [found] at h ⊢
    rw [Nat.zero_add] at h ⊢
    split at h
    · cases h
    next hlimit =>
    obtain ⟨rest, hrest⟩ := (find?_eq_some_iff.mp hfind).1
    have hlength : (buffer.take i).length = i :=
      List.length_take_of_le (Nat.le_of_lt (lt_length_of_find? hfind))
    have hsplit : buffer.take i ++ (terminator ++ rest) = buffer := by
      rw [hrest, List.take_append_drop]
    have hframe : find? (buffer.take i ++ (terminator ++ rest)) = some (buffer.take i).length := by
      rw [hsplit, hlength, hfind]
    refine ⟨buffer.take i, rest, hsplit.symm, isFrame_of_find? hframe,
      (Pull.message.inj h).symm, ?_, ?_⟩
    · rw [if_neg hlimit]
      dsimp only
      rw [← List.drop_drop, ← hrest, List.drop_left]
    · rw [if_neg hlimit]

end Framing.Terminated

namespace Framer

theorem framing_next {f g : Framer} {p : Pull} (h : f.next = (p, g)) : g.framing = f.framing := by
  rw [next] at h
  split at h
  · next hdecoder =>
    cases h
    rw [framing, framing, hdecoder]
  · next hdecoder =>
    cases h
    rw [framing, framing, hdecoder]

theorem framing_upgrade (f : Framer) : f.upgrade.framing = .chunked := by
  obtain ⟨buffer, decoder, limit⟩ := f
  cases decoder <;> rfl

/-- The framing changes behind a greeting where the base version asks for it. -/
theorem framing_greeted {f : Framer} (h : f.framing = .endOfMessage) (v : BaseVersion) :
    (if v = .v1_1 then f.upgrade else f).framing = v.framing := by
  cases v with
  | v1_0 => exact h
  | v1_1 => exact framing_upgrade f

end Framer

namespace Session

variable {own : CapabilitySet} {limit : Nat} {history : History} {s t : System} {move : Move}

/-! ## 2. The first greeting of a stream -/

/-- Once the exchange is decided, the messages are those of the framer. -/
theorem Intake.routed_drain_settled (own : CapabilitySet) (f : Framer) :
    (Intake.drain own ⟨f, false⟩).routed = f.drain.1 := by
  fun_induction Framer.drain f with
  | case1 f text next hnext later error last hdrain ih =>
    have haccept : Intake.accept ⟨next, false⟩ own text = (none, ⟨next, false⟩) := by
      rw [Intake.accept, if_neg (fun h => Bool.false_ne_true h.1)]
    rw [Intake.drain_of_message (i := ⟨f, false⟩) hnext haccept, Reception.behind, ih, hdrain]
    rfl
  | case2 f next hnext =>
    rw [Intake.drain_of_incomplete (i := ⟨f, false⟩) hnext]
  | case3 f error next hnext =>
    rw [Intake.drain_of_broken (i := ⟨f, false⟩) hnext]

/-- A buffer that begins with terminated frames, the last of which is the first greeting; what
    stands behind it is read with the decoder of the base version. -/
structure GreetingAt (own : CapabilitySet) (limit : Nat) (octets : List UInt8)
    (messages : List String) (n : Negotiated) (frames : List (List UInt8)) (frame : List UInt8)
    (rest : List UInt8) (later : List String) : Prop where
  octets : octets = (frames ++ [frame]).flatMap (· ++ terminator) ++ rest
  isFrame : ∀ fr ∈ frames ++ [frame], Terminated.IsFrame fr
  messages : messages = frames.map Terminated.body ++ Terminated.body frame :: later
  quiet : ∀ fr ∈ frames, Inbound.greets (Terminated.body fr) = false
  greets : Inbound.greets (Terminated.body frame) = true
  negotiated : negotiate own (Terminated.body frame) = .ok n
  later : later <+: (Framer.drain ⟨rest, n.base.decoder, limit⟩).1

theorem GreetingAt.cons {octets frame' : List UInt8} {messages later : List String} {n : Negotiated}
    {frames : List (List UInt8)} {frame rest : List UInt8}
    (h : GreetingAt own limit octets messages n frames frame rest later)
    (hframe : Terminated.IsFrame frame')
    (hquiet : Inbound.greets (Terminated.body frame') = false) :
    GreetingAt own limit (frame' ++ (terminator ++ octets)) (Terminated.body frame' :: messages) n
      (frame' :: frames) frame rest later where
  octets := by
    rw [h.octets]
    simp only [List.cons_append, List.flatMap_cons, List.append_assoc]
  isFrame := List.forall_mem_cons.mpr ⟨hframe, h.isFrame⟩
  messages := by rw [h.messages, List.map_cons, List.cons_append]
  quiet := List.forall_mem_cons.mpr ⟨hquiet, h.quiet⟩
  greets := h.greets
  negotiated := h.negotiated
  later := h.later

/-- The first message of a terminated stream: the body of its first frame.  What comes behind
    it depends on whether it is a greeting. -/
theorem routed_drain_cons {buffer : List UInt8} {m : String} {messages : List String}
    (h : (Intake.drain own ⟨⟨buffer, .terminated 0, limit⟩, true⟩).routed = m :: messages) :
    ∃ frame rest, buffer = frame ++ (terminator ++ rest) ∧ Terminated.IsFrame frame ∧
      m = Terminated.body frame ∧
      (Inbound.greets m = false →
        messages = (Intake.drain own ⟨⟨rest, .terminated 0, limit⟩, true⟩).routed) ∧
      ∀ n, Inbound.greets m = true → negotiate own m = .ok n →
        messages = (Framer.drain ⟨rest, n.base.decoder, limit⟩).1 := by
  cases hnext : Framer.next ⟨buffer, .terminated 0, limit⟩ with
  | mk p f =>
    cases p with
    | incomplete =>
      rw [Intake.drain_of_incomplete hnext] at h
      cases h
    | broken error =>
      rw [Intake.drain_of_broken hnext] at h
      cases h
    | message text =>
      obtain ⟨hresult, rfl⟩ := Prod.mk.inj hnext
      obtain ⟨frame, rest, hbuffer, hframe, htext, hrest, hsearched⟩ :=
        Terminated.frame_of_pull hresult
      rw [hrest, hsearched] at hnext
      refine ⟨frame, rest, hbuffer, hframe, ?_⟩
      by_cases hgreets : Inbound.greets text = true
      · cases hnegotiated : negotiate own text with
        | error fault =>
          have haccept : Intake.accept ⟨⟨rest, .terminated 0, limit⟩, true⟩ own text =
              (some fault, ⟨⟨rest, .terminated 0, limit⟩, false⟩) := by
            rw [Intake.accept, if_pos ⟨rfl, Inbound.greets_iff.mp hgreets⟩, hnegotiated]
          rw [Intake.drain_of_refused hnext haccept] at h
          cases h
          refine ⟨htext, fun hquiet => ?_, fun n _ hn => ?_⟩
          · rw [hgreets] at hquiet
            cases hquiet
          · rw [hnegotiated] at hn
            cases hn
        | ok n =>
          have haccept : Intake.accept ⟨⟨rest, .terminated 0, limit⟩, true⟩ own text =
              (none, ⟨⟨rest, n.base.decoder, limit⟩, false⟩) := by
            rw [Intake.accept, if_pos ⟨rfl, Inbound.greets_iff.mp hgreets⟩, hnegotiated]
            dsimp only
            rw [Framer.greeted_eq]
          rw [Intake.drain_of_message hnext haccept, Reception.behind,
            Intake.routed_drain_settled] at h
          cases h
          refine ⟨htext, fun hquiet => ?_, fun n' _ hn => ?_⟩
          · rw [hgreets] at hquiet
            cases hquiet
          · rw [hnegotiated] at hn
            cases hn
            rfl
      · have haccept : Intake.accept ⟨⟨rest, .terminated 0, limit⟩, true⟩ own text =
            (none, ⟨⟨rest, .terminated 0, limit⟩, true⟩) := by
          rw [Intake.accept, if_neg fun hboth => hgreets (Inbound.greets_iff.mpr hboth.2)]
        rw [Intake.drain_of_message hnext haccept] at h
        cases h
        exact ⟨htext, fun _ => rfl, fun n hm => absurd hm hgreets⟩

/-- **The first greeting among the messages is a frame of the stream.**  In front of it are
    frames; behind it the messages are read in the framing of the base version. -/
theorem exists_greetingAt {buffer : List UInt8} {front later : List String} {text : String}
    {n : Negotiated}
    (hrouted : (Intake.drain own ⟨⟨buffer, .terminated 0, limit⟩, true⟩).routed =
      front ++ text :: later)
    (hquiet : ∀ m ∈ front, Inbound.greets m = false) (hgreets : Inbound.greets text = true)
    (hnegotiated : negotiate own text = .ok n) :
    ∃ frames frame rest, GreetingAt own limit buffer (front ++ text :: later) n frames frame rest
      later := by
  -- by induction on the messages in front of the greeting
  induction front generalizing buffer with
  | nil =>
    obtain ⟨frame, rest, rfl, hframe, rfl, -, hlater⟩ := routed_drain_cons hrouted
    refine ⟨[], frame, rest, ?_⟩
    exact {
      octets := by simp
      isFrame := by simpa using hframe
      messages := rfl
      quiet := nofun
      greets := hgreets
      negotiated := hnegotiated
      later := (hlater n hgreets hnegotiated) ▸ List.prefix_rfl }
  | cons m front ih =>
    obtain ⟨frame', rest', rfl, hframe, rfl, hlater, -⟩ := routed_drain_cons hrouted
    have hm := hquiet _ List.mem_cons_self
    obtain ⟨frames, frame, rest, h⟩ :=
      ih (hlater hm).symm fun d hd => hquiet d (List.mem_cons_of_mem _ hd)
    exact ⟨frame' :: frames, frame, rest, h.cons hframe hm⟩

/-! ## 3. What a run has come to -/

/-- What has been handed on is the beginning of what the octets come to. -/
theorem Agrees.handed_isPrefix {r : Reception} {handed : List String}
    (h : Agrees own r handed s) :
    handed <+: r.routed := by
  rw [Agrees] at h
  split at h
  · exact h ▸ List.prefix_rfl
  · rw [h]
    exact List.prefix_append _ _
  · rw [h]
    exact List.prefix_append _ _
  · exact h.1 ▸ List.prefix_rfl
  · exact h ▸ List.prefix_rfl
  · exact h ▸ List.prefix_rfl

/-- The first greeting that a session has handed on, in the stream that it has read. -/
theorem Follows.greetingAt {front later : List String} {text : String} {n : Negotiated}
    (h : Follows own limit history s) (hhanded : history.handed = front ++ text :: later)
    (hquiet : ∀ m ∈ front, Inbound.greets m = false) (hgreets : Inbound.greets text = true)
    (hnegotiated : negotiate own text = .ok n) :
    ∃ frames frame rest,
      GreetingAt own limit history.reads.flatten history.handed n frames frame rest later := by
  obtain ⟨more, hmore⟩ := h.2.handed_isPrefix
  have hrouted : (receive own limit history.reads).routed =
      (Intake.drain own ⟨⟨history.reads.flatten, .terminated 0, limit⟩, true⟩).routed :=
    congrArg Prod.fst (outcome_receive own limit history.reads)
  rw [hrouted, hhanded, List.append_assoc, List.cons_append] at hmore
  obtain ⟨frames, frame, rest, hat⟩ := exists_greetingAt hmore.symm hquiet hgreets hnegotiated
  have hfront : front ++ [text] = frames.map Terminated.body ++ [Terminated.body frame] := by
    have hmessages := hat.messages
    rw [List.append_cons front, List.append_cons (frames.map Terminated.body)] at hmessages
    exact List.append_cancel_right hmessages
  refine ⟨frames, frame, rest, ?_⟩
  exact {
    octets := hat.octets
    isFrame := hat.isFrame
    messages := by
      rw [hhanded, List.append_cons front, hfront, ← List.append_cons]
    quiet := hat.quiet
    greets := hat.greets
    negotiated := hat.negotiated
    later := (List.prefix_append later more).trans hat.later }

/-! ## 4. The exchange of a run -/

theorem negotiate_error {message : String} {fault : Fault}
    (h : negotiate own message = .error fault) :
    ∃ text, fault = .capabilityExchange text := by
  unfold negotiate at h
  split at h
  · next hparse =>
    cases h
    unfold Greeting.parse at hparse
    split at hparse
    · cases hparse
    · cases hparse
      exact ⟨_, rfl⟩
  · split at h
    · next hbase =>
      cases h
      unfold CapabilitySet.negotiate at hbase
      split at hbase
      · cases hbase
      · cases hbase
        exact ⟨_, rfl⟩
    · cases h

/-- A task that has been told to stop stays told. -/
theorem System.stops_perform (h : s.perform move = some t) :
    (s.receiverStops = true → t.receiverStops = true) ∧
      (s.writerStops = true → t.writerStops = true) := by
  cases move with
  | step task =>
    cases task with
    | writer =>
      rw [stepWriter_frame h]
      exact ⟨id, id⟩
    | receiver =>
      rw [stepReceiver_frame h]
      exact ⟨id, id⟩
    | call number =>
      obtain ⟨stage, u, next, -, hstage, rfl⟩ := stepCall_cases h
      have hu : (s.receiverStops = true → u.receiverStops = true) ∧
          (s.writerStops = true → u.writerStops = true) := by
        cases htd : stage.teardown? with
        | some teardown =>
          rcases (stepStage_of_teardown htd hstage).1 with rfl | rfl
          · cases teardown <;> exact ⟨id, id⟩
          · cases teardown <;> exact ⟨id, id⟩
        | none =>
          cases stage
          case refuseTeardown | closeTeardown | dropTeardown => cases htd
          all_goals
            simp only [stepStage] at hstage
            repeat' split at hstage
          all_goals cases hstage
          all_goals first
            | exact ⟨id, id⟩
            | exact ⟨fun _ => rfl, id⟩
            | exact ⟨id, fun _ => rfl⟩
            | exact ⟨fun _ => rfl, fun _ => rfl⟩
      cases next <;> exact hu
  | _ =>
    rw [perform_frame h (by simp)]
    exact ⟨id, id⟩

/-- What has come of the exchange of greetings: the first greeting that was handed on is
    negotiated, and without one the exchange is open until receiving ends. -/
inductive Exchanged (handed : List String) (s : System) : Prop where
  /-- No greeting yet, and the session still waits for it. -/
  | awaited (hquiet : handed.find? Inbound.greets = none) (hawaiting : s.intake.awaiting = true)
    (hexchange : s.exchange = none) (hreceiver : ∀ teardown, s.receiver ≠ .tearing teardown)
    (hended : s.receiver = .ended → s.receiverStops = true)
    (hframing : s.intake.framer.framing = .endOfMessage)
  /-- Receiving has ended in front of any greeting. -/
  | cutOff (fault : Fault) (hquiet : handed.find? Inbound.greets = none)
    (hawaiting : s.intake.awaiting = false)
    (hexchange : s.exchange = some (.error (.capabilityExchange
      ("transport failed before peer greeting: " ++ fault.message))))
    (hreceiver : s.receiver = .ended ∨ ∃ teardown, s.receiver = .tearing teardown)
  /-- The first greeting has been negotiated. -/
  | greeted (text : String) (hfirst : handed.find? Inbound.greets = some text)
    (hawaiting : s.intake.awaiting = false) (hexchange : s.exchange = some (negotiate s.own text))
    (hframing : ∀ n, negotiate s.own text = .ok n →
      s.intake.framer.framing = n.base.framing)

namespace Exchanged

variable {handed : List String}

theorem start (config : Config) (link : Link) (now : Text.Duration) :
    Exchanged [] (System.start config own link now) :=
  .awaited rfl rfl rfl nofun nofun rfl

/-- Handing a message on that is no greeting, or comes behind the first one. -/
theorem route_of_not {message : String}
    (h : ¬ (s.intake.awaiting = true ∧ Inbound.greets message = true)) :
    (s.route message).intake = s.intake ∧ (s.route message).exchange = s.exchange ∧
      (s.route message).receiver = .pulling := by
  have haccept : s.intake.accept s.own message = (none, s.intake) := by
    rw [Intake.accept, if_neg fun hboth => h ⟨hboth.1, Inbound.greets_iff.mpr hboth.2⟩]
  obtain ⟨hintake, hreceiver⟩ := System.route_accept s message
  rw [haccept] at hintake hreceiver
  refine ⟨hintake, ?_, hreceiver⟩
  cases hkind : Inbound.classify message with
  | error fault => simp [System.route, hkind]
  | ok kind =>
    cases kind with
    | hello =>
      have hawaiting : s.intake.awaiting = false := by
        rw [← Bool.not_eq_true]
        exact fun hboth => h ⟨hboth, Inbound.greets_iff.mpr hkind⟩
      simp [System.route, Intake.greet, hkind, hawaiting]
    | reply id =>
      simp only [System.route, hkind]
      split <;> rfl
    | notification => simp [System.route, hkind]
    | unexpected name => simp [System.route, hkind]

/-- Handing the first greeting on. -/
theorem route_first {message : String} (hawaiting : s.intake.awaiting = true)
    (hgreets : Inbound.greets message = true) :
    (s.route message).intake.awaiting = false ∧
      (s.route message).exchange = some (negotiate s.own message) ∧
      ∀ n, negotiate s.own message = .ok n →
        (s.route message).intake.framer =
          if n.base = .v1_1 then s.intake.framer.upgrade else s.intake.framer := by
  rw [Inbound.greets_iff] at hgreets
  cases hnegotiated : negotiate s.own message with
  | error fault => simp [System.route, Intake.greet, hgreets, hawaiting, hnegotiated]
  | ok n => simp [System.route, Intake.greet, hgreets, hawaiting, hnegotiated]

/-- What reading can come to. -/
theorem reading_cases (hreceiver : s.receiver = .reading) (h : s.stepReceiver = some t) :
    t.exchange = s.exchange ∧ t.receiverStops = s.receiverStops ∧
      ((t.receiver = .ended ∧ s.receiverStops = true ∧ t.intake = s.intake) ∨
        (t.receiver = .pulling ∧ ∃ octets, t.intake = s.intake.extend octets) ∨
        (∃ fault, t.receiver = .ending fault ∧ t.intake = s.intake)) := by
  unfold System.stepReceiver at h
  split at h
  · next hstop =>
    rw [Bool.and_eq_true] at hstop
    cases h
    exact ⟨rfl, rfl, .inl ⟨rfl, hstop.1, rfl⟩⟩
  · rw [System.workReceiver, hreceiver] at h
    dsimp only at h
    split at h
    · cases h
      exact ⟨rfl, rfl, .inr (.inl ⟨rfl, _, rfl⟩)⟩
    · cases h
      exact ⟨rfl, rfl, .inr (.inr ⟨_, rfl, rfl⟩)⟩
    · cases h
      refine ⟨rfl, rfl, .inr (.inr ?_)⟩
      dsimp only
      split
      · exact ⟨_, rfl, rfl⟩
      · exact ⟨_, rfl, rfl⟩
    · cases h

/-- What pulling can come to: the framer goes on, and nothing else changes. -/
theorem pulling_cases (hreceiver : s.receiver = .pulling) (h : s.stepReceiver = some t) :
    t.exchange = s.exchange ∧ t.intake.awaiting = s.intake.awaiting ∧
      t.intake.framer.framing = s.intake.framer.framing ∧
      ((∃ message, t.receiver = .routing message) ∨ t.receiver = .reading ∨
        ∃ fault, t.receiver = .ending fault) := by
  rw [stepReceiver_of_ne_reading (by rw [hreceiver]; nofun), System.workReceiver, hreceiver] at h
  dsimp only at h
  split at h
  · next hnext =>
    cases h
    exact ⟨rfl, rfl, Framer.framing_next hnext, .inl ⟨_, rfl⟩⟩
  · next hnext =>
    cases h
    exact ⟨rfl, rfl, Framer.framing_next hnext, .inr (.inl rfl)⟩
  · next hnext =>
    cases h
    exact ⟨rfl, rfl, Framer.framing_next hnext, .inr (.inr ⟨_, rfl⟩)⟩

/-- What ending can come to. -/
theorem ending_cases {fault : Fault} (hreceiver : s.receiver = .ending fault)
    (h : s.stepReceiver = some t) :
    (∃ teardown, t.receiver = .tearing teardown) ∧ t.intake.framer = s.intake.framer ∧
      t.intake.awaiting = false ∧
      t.exchange = if s.intake.awaiting then some (.error (.capabilityExchange
          ("transport failed before peer greeting: " ++ fault.message))) else s.exchange := by
  rw [stepReceiver_of_ne_reading (by rw [hreceiver]; nofun), System.workReceiver, hreceiver] at h
  dsimp only at h
  split at h
  · next hawaiting =>
    cases h
    exact ⟨⟨_, rfl⟩, rfl, rfl, (if_pos hawaiting).symm⟩
  · next hawaiting =>
    cases h
    exact ⟨⟨_, rfl⟩, rfl, by simpa using hawaiting, (if_neg hawaiting).symm⟩

/-- What a teardown of the receiver can come to. -/
theorem tearing_cases {teardown : Teardown} (hreceiver : s.receiver = .tearing teardown)
    (h : s.stepReceiver = some t) :
    t.exchange = s.exchange ∧ t.intake = s.intake ∧
      (t.receiver = .ended ∨ ∃ teardown, t.receiver = .tearing teardown) := by
  have htear : (s.tear teardown).1.exchange = s.exchange ∧
      (s.tear teardown).1.intake = s.intake := by
    cases teardown <;> exact ⟨rfl, rfl⟩
  rw [stepReceiver_of_ne_reading (by rw [hreceiver]; nofun), System.workReceiver, hreceiver] at h
  dsimp only at h
  split at h
  · next heq =>
    rw [heq] at htear
    cases h
    exact ⟨htear.1, htear.2, .inr ⟨_, rfl⟩⟩
  · next heq =>
    rw [heq] at htear
    cases h
    exact ⟨htear.1, htear.2, .inl rfl⟩

theorem handed?_receiver (s : System) :
    s.handed? (.step .receiver) = match s.receiver with
      | .routing message => some message
      | _ => none := rfl

theorem ended_of_step (h : s.stepReceiver = some t) : s.receiver ≠ .ended := by
  intro hreceiver
  rw [stepReceiver_of_ne_reading (by rw [hreceiver]; nofun), System.workReceiver, hreceiver] at h
  cases h

/-- Once the exchange is decided, no step of the receiver changes it. -/
theorem exchange_of_decided (hdecided : s.intake.awaiting = false)
    (h : s.stepReceiver = some t) : t.exchange = s.exchange := by
  cases hreceiver : s.receiver with
  | reading => exact (reading_cases hreceiver h).1
  | pulling => exact (pulling_cases hreceiver h).1
  | routing message =>
    rw [stepReceiver_of_ne_reading (by rw [hreceiver]; nofun), System.workReceiver, hreceiver] at h
    cases h
    refine (route_of_not fun hfirst => ?_).2.1
    rw [hdecided] at hfirst
    exact Bool.false_ne_true hfirst.1
  | ending fault =>
    rw [(ending_cases hreceiver h).2.2.2, hdecided]
    rfl
  | tearing teardown => exact (tearing_cases hreceiver h).1
  | ended => exact absurd hreceiver (ended_of_step h)

/-- What leaves the exchange as it is. -/
theorem keep {later : List String} (h : Exchanged handed s)
    (hfind : later.find? Inbound.greets = handed.find? Inbound.greets) (hown : t.own = s.own)
    (hexchange : t.exchange = s.exchange) (hawaiting : t.intake.awaiting = s.intake.awaiting)
    (hframing : t.intake.framer.framing = s.intake.framer.framing)
    (hopen : s.intake.awaiting = true →
      (∀ teardown, t.receiver ≠ .tearing teardown) ∧ (t.receiver = .ended → t.receiverStops = true))
    (hshut : (s.receiver = .ended ∨ ∃ teardown, s.receiver = .tearing teardown) →
      t.receiver = .ended ∨ ∃ teardown, t.receiver = .tearing teardown) :
    Exchanged later t := by
  cases h with
  | awaited hquiet hawaits hnone _ _ hterminated =>
    exact .awaited (hfind.trans hquiet) (hawaiting.trans hawaits) (hexchange.trans hnone)
      (hopen hawaits).1 (hopen hawaits).2 (hframing.trans hterminated)
  | cutOff fault hquiet hdecided herror hover =>
    exact .cutOff fault (hfind.trans hquiet) (hawaiting.trans hdecided) (hexchange.trans herror)
      (hshut hover)
  | greeted text hfirst hdecided hnegotiated hversion =>
    refine .greeted text (hfind.trans hfirst) (hawaiting.trans hdecided) ?_ fun n hn => ?_
    · rw [hexchange, hnegotiated, hown]
    · rw [hframing]
      exact hversion n (hown ▸ hn)

/-- As long as the greeting is awaited, the receiver is in no teardown. -/
theorem receiver_of_awaiting (h : Exchanged handed s) (hawaiting : s.intake.awaiting = true) :
    (∀ teardown, s.receiver ≠ .tearing teardown) ∧
      (s.receiver = .ended → s.receiverStops = true) := by
  cases h with
  | awaited _ _ _ hreceiver hended => exact ⟨hreceiver, hended⟩
  | cutOff _ _ hdecided =>
    rw [hdecided] at hawaiting
    cases hawaiting
  | greeted _ _ hdecided =>
    rw [hdecided] at hawaiting
    cases hawaiting

/-- Handing a message on decides the exchange if it is the first greeting. -/
theorem routing {message : String} (h : Exchanged handed s)
    (hreceiver : s.receiver = .routing message) (hstep : s.stepReceiver = some t) :
    Exchanged (handed ++ [message]) t := by
  rw [stepReceiver_of_ne_reading (by simp [hreceiver]), System.workReceiver, hreceiver] at hstep
  cases hstep
  have hroute := System.route_frame s message
  have hown : (s.route message).own = s.own := by rw [hroute]
  by_cases hfirst : s.intake.awaiting = true ∧ Inbound.greets message = true
  · obtain ⟨hdecided, hexchange, hframer⟩ := route_first hfirst.1 hfirst.2
    cases h with
    | awaited hquiet _ _ _ _ hterminated =>
      refine .greeted message ?_ hdecided ?_ fun n hn => ?_
      · rw [List.find?_append, hquiet, Option.none_or, List.find?_cons, hfirst.2]
      · rw [hexchange, hown]
      · rw [hframer n (hown ▸ hn)]
        exact Framer.framing_greeted hterminated n.base
    | cutOff _ _ hdecided' =>
      rw [hfirst.1] at hdecided'
      cases hdecided'
    | greeted _ _ hdecided' =>
      rw [hfirst.1] at hdecided'
      cases hdecided'
  · obtain ⟨hintake, hexchange, hpulling⟩ := route_of_not hfirst
    refine h.keep ?_ hown hexchange (by rw [hintake]) (by rw [hintake]) (fun _ => ?_)
      fun hover => ?_
    · -- a greeting that is not the first one comes behind it
      rw [List.find?_append]
      cases hfound : handed.find? Inbound.greets with
      | some text => rfl
      | none =>
        rw [Option.none_or, List.find?_cons]
        cases hgreets : Inbound.greets message with
        | false => rfl
        | true =>
          cases h with
          | awaited _ hawaits => exact absurd ⟨hawaits, hgreets⟩ hfirst
          | cutOff _ _ _ _ hover =>
            rw [hreceiver] at hover
            rcases hover with hover | ⟨_, hover⟩ <;> cases hover
          | greeted _ hsome =>
            rw [hfound] at hsome
            cases hsome
    · rw [hpulling]
      simp
    · rw [hreceiver] at hover
      rcases hover with hover | ⟨_, hover⟩ <;> cases hover

/-- **A step of the receiver keeps what the exchange has come to.** -/
theorem stepReceiver (h : Exchanged handed s) (hstep : s.stepReceiver = some t) :
    Exchanged (handed ++ (s.handed? (.step .receiver)).toList) t := by
  have hown : t.own = s.own := by rw [System.stepReceiver_frame hstep]
  rw [handed?_receiver]
  cases hreceiver : s.receiver with
  | reading =>
    have hover : ¬ (s.receiver = .ended ∨ ∃ teardown, s.receiver = .tearing teardown) := by
      simp [hreceiver]
    rw [Option.toList_none, List.append_nil]
    obtain ⟨hexchange, hstops, ⟨hafter, hstop, hintake⟩ | ⟨hafter, octets, hintake⟩ |
      ⟨fault, hafter, hintake⟩⟩ := reading_cases hreceiver hstep
    · refine h.keep rfl hown hexchange (by rw [hintake]) (by rw [hintake]) (fun _ => ?_)
        fun hs => absurd hs hover
      rw [hafter]
      exact ⟨nofun, fun _ => hstops.trans hstop⟩
    · refine h.keep rfl hown hexchange (by rw [hintake]; rfl) (by rw [hintake]; rfl) (fun _ => ?_)
        fun hs => absurd hs hover
      rw [hafter]
      exact ⟨nofun, nofun⟩
    · refine h.keep rfl hown hexchange (by rw [hintake]) (by rw [hintake]) (fun _ => ?_)
        fun hs => absurd hs hover
      rw [hafter]
      exact ⟨nofun, nofun⟩
  | pulling =>
    rw [Option.toList_none, List.append_nil]
    obtain ⟨hexchange, hawaiting, hframing, hafter⟩ := pulling_cases hreceiver hstep
    refine h.keep rfl hown hexchange hawaiting hframing (fun _ => ?_) fun hs => ?_
    · rcases hafter with ⟨message, hafter⟩ | hafter | ⟨fault, hafter⟩
      all_goals
        rw [hafter]
        exact ⟨nofun, nofun⟩
    · simp [hreceiver] at hs
  | routing message =>
    exact h.routing hreceiver hstep
  | ending fault =>
    rw [Option.toList_none, List.append_nil]
    obtain ⟨htearing, hframer, hdecided, hexchange⟩ := ending_cases hreceiver hstep
    cases hawaiting : s.intake.awaiting with
    | true =>
      -- the exchange is given up together with receiving
      cases h with
      | awaited hquiet _ _ _ _ _ =>
        rw [hawaiting] at hexchange
        exact .cutOff fault hquiet hdecided hexchange (.inr htearing)
      | cutOff _ _ hdecided' =>
        rw [hawaiting] at hdecided'
        cases hdecided'
      | greeted _ _ hdecided' =>
        rw [hawaiting] at hdecided'
        cases hdecided'
    | false =>
      rw [hawaiting] at hexchange
      refine h.keep rfl hown hexchange (hdecided.trans hawaiting.symm) (by rw [hframer])
        (fun hs => ?_) fun _ => .inr htearing
      rw [hawaiting] at hs
      cases hs
  | tearing teardown =>
    rw [Option.toList_none, List.append_nil]
    obtain ⟨hexchange, hintake, hafter⟩ := tearing_cases hreceiver hstep
    refine h.keep rfl hown hexchange (by rw [hintake]) (by rw [hintake]) (fun hs => ?_)
      fun _ => hafter
    exact absurd hreceiver ((h.receiver_of_awaiting hs).1 teardown)
  | ended => exact absurd hreceiver (ended_of_step hstep)

/-- **Every move keeps what the exchange has come to.** -/
theorem perform (h : Exchanged handed s) (hstep : s.perform move = some t) :
    Exchanged (handed ++ (s.handed? move).toList) t := by
  by_cases hmove : move = .step .receiver
  · subst hmove
    exact h.stepReceiver hstep
  · obtain ⟨hreceiver, hintake, hexchange, -, hhanded⟩ := System.receiver_perform_of_ne hstep hmove
    rw [hhanded, Option.toList_none, List.append_nil]
    refine h.keep rfl (System.own_perform hstep) hexchange (by rw [hintake]) (by rw [hintake])
      (fun hs => ?_) (fun hover => hreceiver ▸ hover)
    rw [hreceiver]
    exact ⟨(h.receiver_of_awaiting hs).1, fun hended =>
      (System.stops_perform hstep).1 ((h.receiver_of_awaiting hs).2 hended)⟩

theorem run {config : Config} {link : Link} {now : Text.Duration}
    (h : Run (.start config own link now) history s) : Exchanged history.handed s := by
  induction h with
  | nil => exact start config link now
  | snoc _ hstep ih =>
    rw [History.handed_snoc]
    exact ih.perform hstep

/-- The exchange fails with nothing but a fault of the exchange. -/
theorem fault_of_error {fault : Fault} (h : Exchanged handed s)
    (hexchange : s.exchange = some (.error fault)) : ∃ text, fault = .capabilityExchange text := by
  cases h with
  | awaited _ _ hnone =>
    rw [hnone] at hexchange
    cases hexchange
  | cutOff cause _ _ herror =>
    rw [herror] at hexchange
    cases hexchange
    exact ⟨_, rfl⟩
  | greeted text _ _ hnegotiated =>
    rw [hnegotiated] at hexchange
    exact negotiate_error (Option.some.inj hexchange)

/-- **What the exchange has come to stays.** -/
theorem exchange_perform {outcome : Except Fault Negotiated} (h : Exchanged handed s)
    (hstep : s.perform move = some t) (hexchange : s.exchange = some outcome) :
    t.exchange = some outcome := by
  have hdecided : s.intake.awaiting = false := by
    cases h with
    | awaited _ _ hnone =>
      rw [hnone] at hexchange
      cases hexchange
    | cutOff _ _ hdecided => exact hdecided
    | greeted _ _ hdecided => exact hdecided
  rw [← hexchange]
  by_cases hmove : move = .step .receiver
  · subst hmove
    exact exchange_of_decided hdecided hstep
  · exact (System.receiver_perform_of_ne hstep hmove).2.2.1

end Exchanged

end Session
end NetconfClient
