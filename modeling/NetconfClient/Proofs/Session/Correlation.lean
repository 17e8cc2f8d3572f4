/-
  NetconfClient/Proofs/Session/Correlation.lean
  =============================================
  **Every reply reaches its own request.**

  A session is open only behind the greeting of its peer (`greeted_of_opened`),
  and from then on whatever is routed leads to one operation on the registry at
  most and never ends the receiving (`route_of_greeted`).  What a sequence of
  messages does is therefore the replay of their operations, in any order and
  with anything in between.
-/
import NetconfClient.Proofs.Dispatch.Delivery
import NetconfClient.Proofs.Session.Receiver

namespace NetconfClient.Inbound

/-- Whether a message is a reply to the request with that identifier. -/
def answers (id message : String) : Bool :=
  match classify message with
  | .ok (.reply (some x)) => x == id
  | _ => false

/-- Whether a message is a notification. -/
def notifies (message : String) : Bool :=
  match classify message with
  | .ok .notification => true
  | _ => false

end NetconfClient.Inbound

namespace NetconfClient.Session

open Text

namespace System

variable {s t : System} {move : Move}

/-! ## 1. Open sessions have been greeted -/

/-- Nothing has come of the exchange of greetings yet. -/
structure Ungreeted (s : System) : Prop where
  exchange : s.exchange = none
  phase : s.phase ≠ .opened
  stages : ∀ number n, s.calls.lookup number ≠ some (.establish n)

theorem exchange_of_establish {stage : Stage} {n : Negotiated}
    (h : s.stepStage stage = some (t, .goOn (.establish n))) : s.exchange = some (.ok n) := by
  have hother : ¬ (Next.goOn (.establish n)).IsAftermath := id
  cases stage
  all_goals
    simp only [stepStage] at h
    repeat' split at h
  all_goals first
    | cases h; assumption
    | cases h
    | exact absurd (Prod.mk.inj (Option.some.inj h)).2 (refused_ne hother _ _)
    | exact absurd (Prod.mk.inj (Option.some.inj h)).2 (queued_ne hother _ _ _)

theorem establish_of_opened {stage : Stage} {next : Next} (h : s.stepStage stage = some (t, next))
    (ht : t.phase = .opened) : s.phase = .opened ∨ ∃ n, stage = .establish n := by
  have hadvance : ∀ p, p ≠ .opened → s.phase.advance p = .opened → s.phase = .opened := by
    intro p hp heq
    rw [Phase.advance] at heq
    split at heq
    · exact absurd heq hp
    · exact heq
  cases hstage : stage.teardown? with
  | some teardown =>
    have hphase : t.phase = (s.tear teardown).1.phase := by
      rcases (stepStage_of_teardown hstage h).1 with rfl | rfl <;> rfl
    rw [hphase] at ht
    cases teardown with
    | close fault => exact Or.inl (hadvance .closed (by decide) ht)
    | fail fault => exact Or.inl ht
  | none =>
    cases stage
    case establish n => exact Or.inr ⟨n, rfl⟩
    case refuseTeardown | closeTeardown | dropTeardown => cases hstage
    all_goals
      simp only [stepStage] at h
      repeat' split at h
    all_goals cases h
    all_goals first
      | exact Or.inl ht
      | exact Or.inl (hadvance .closing (by decide) ht)

/-- Only a call that establishes a session opens it. -/
theorem establish_of_perform (h : s.perform move = some t) (ht : t.phase = .opened) :
    s.phase = .opened ∨ ∃ number n, s.calls.lookup number = some (.establish n) := by
  have hclosed : s.phase.advance .closed ≠ .opened := by
    rw [Phase.advance_closed]
    decide
  cases move with
  | step task =>
    cases task with
    | writer =>
      rcases stepWriter_cases h with ⟨teardown, -, hstep, -⟩ | ⟨-, hstep, -⟩
      · rw [hstep] at ht
        cases teardown with
        | close fault => exact absurd ht hclosed
        | fail fault => exact Or.inl ht
      · rw [hstep] at ht
        exact Or.inl ht
    | receiver =>
      rcases stepReceiver_cases h with ⟨teardown, -, hstep, -⟩ | ⟨-, hstep, -⟩
      · rw [hstep] at ht
        cases teardown with
        | close fault => exact absurd ht hclosed
        | fail fault => exact Or.inl ht
      · rw [hstep] at ht
        exact Or.inl ht
    | call number =>
      obtain ⟨stage, u, next, hstage, hstep, rfl⟩ := stepCall_cases h
      have hu : u.phase = .opened := by
        cases next <;> exact ht
      rcases establish_of_opened hstep hu with hopen | ⟨n, rfl⟩
      · exact Or.inl hopen
      · exact Or.inr ⟨number, n, hstage⟩
  | _ =>
    rw [perform_frame h nofun] at ht
    exact Or.inl ht

theorem exchange_route {message : String} (h : (s.route message).intake.awaiting = true) :
    s.intake.awaiting = true ∧ (s.route message).exchange = s.exchange := by
  cases hawaiting : s.intake.awaiting with
  | false =>
    have hnone : s.intake.accept s.own message = (none, s.intake) := by
      rw [Intake.accept, if_neg]
      simp [hawaiting]
    rw [(route_accept s message).1, hnone, hawaiting] at h
    cases h
  | true =>
    refine ⟨rfl, ?_⟩
    revert h
    cases hkind : Inbound.classify message with
    | error fault => simp [route, hkind]
    | ok kind =>
      cases kind with
      | hello =>
        cases hnegotiated : negotiate s.own message with
        | error fault => simp [route, Intake.greet, hkind, hawaiting, hnegotiated]
        | ok n => simp [route, Intake.greet, hkind, hawaiting, hnegotiated]
      | reply id =>
        simp only [route, hkind]
        split <;> simp
      | notification => simp [route, hkind]
      | unexpected name => simp [route, hkind]

/-- The exchange of greetings is decided together with the end of waiting for it. -/
theorem exchange_stepReceiver (h : s.stepReceiver = some t) (ht : t.intake.awaiting = true) :
    s.intake.awaiting = true ∧ t.exchange = s.exchange := by
  unfold stepReceiver at h
  split at h
  · cases h
    exact ⟨ht, rfl⟩
  · unfold workReceiver at h
    split at h
    case h_3 message _ =>
      cases h
      exact exchange_route ht
    case h_4 fault _ =>
      split at h
      · cases h
        cases ht
      · cases h
        exact ⟨ht, rfl⟩
    case h_5 teardown _ =>
      have htear : (s.tear teardown).1.intake = s.intake ∧
          (s.tear teardown).1.exchange = s.exchange := by
        cases teardown <;> exact ⟨rfl, rfl⟩
      split at h
      · next u rest heq =>
        cases h
        rw [heq] at htear
        exact ⟨htear.1 ▸ ht, htear.2⟩
      · next u heq =>
        cases h
        rw [heq] at htear
        exact ⟨htear.1 ▸ ht, htear.2⟩
    all_goals
      repeat' split at h
    all_goals cases h
    all_goals exact ⟨ht, rfl⟩

theorem exchange_of_awaiting (h : s.perform move = some t) (ht : t.intake.awaiting = true) :
    s.intake.awaiting = true ∧ t.exchange = s.exchange := by
  by_cases hmove : move = .step .receiver
  · subst hmove
    exact exchange_stepReceiver h ht
  · obtain ⟨-, hintake, hexchange, -, -⟩ := receiver_perform_of_ne h hmove
    rw [hintake] at ht
    exact ⟨ht, hexchange⟩

theorem Ungreeted.perform (hs : s.Ungreeted) (hnumbers : s.Numbered) (h : s.perform move = some t)
    (hexchange : t.exchange = s.exchange) : t.Ungreeted where
  exchange := hexchange.trans hs.exchange
  phase := by
    intro ht
    rcases establish_of_perform h ht with hopen | ⟨number, n, hstage⟩
    · exact hs.phase hopen
    · exact hs.stages number n hstage
  stages := by
    intro number n hlater
    rcases lookup_perform hnumbers h number with ⟨-, hsame⟩ |
      ⟨stage, u, next, -, hstage, hstep, hnext⟩ | ⟨stage, -, hentry, -, -, hbegun⟩
    · exact hs.stages number n (hsame ▸ hlater)
    · -- a call establishes a session only once the exchange is decided
      cases next with
      | goOn later =>
        obtain rfl : later = .establish n := Option.some.inj (hnext.symm.trans hlater)
        have hdecided := exchange_of_establish hstep
        rw [hs.exchange] at hdecided
        cases hdecided
      | finish result => cases hnext.symm.trans hlater
    · obtain rfl : stage = .establish n := Option.some.inj (hbegun.symm.trans hlater)
      cases hentry

/-- **An open session has had its greeting.** -/
theorem greeted_of_opened (h : s.Reachable) (hopen : s.phase = .opened) :
    s.intake.awaiting = false := by
  obtain ⟨config, own, link, now, history, hrun⟩ := h
  -- by induction on the run: as long as the greeting is awaited, nothing has come of it
  have hall : s.intake.awaiting = true → s.Ungreeted := by
    clear hopen
    induction hrun with
    | nil => exact fun _ => ⟨rfl, nofun, fun _ _ => nofun⟩
    | snoc before hstep ih =>
      intro ht
      obtain ⟨hawaiting, hexchange⟩ := exchange_of_awaiting hstep ht
      exact (ih hawaiting).perform before.numbered_of_start hstep hexchange
  rw [← Bool.not_eq_true]
  exact fun hawaiting => (hall hawaiting).phase hopen

end System

/-! ## 2. What messages do to the registry -/

/-- The operations that messages lead to, in the order of the messages. -/
def deliveries (messages : List String) : List Registry.Op :=
  messages.flatMap fun message => (Receiver.routing message).op?.toList

theorem deliveries_cons (message : String) (messages : List String) :
    deliveries (message :: messages) =
      (Receiver.routing message).op?.toList ++ deliveries messages := rfl

theorem op?_routing_cases (message : String) :
    (∃ id, (Receiver.routing message).op? = some (.reply id message) ∧
      Inbound.classify message = .ok (.reply id)) ∨
    ((Receiver.routing message).op? = some (.notify message) ∧
      Inbound.classify message = .ok .notification) ∨
    ((Receiver.routing message).op? = none ∧ (∀ id, Inbound.answers id message = false) ∧
      Inbound.notifies message = false) := by
  cases hkind : Inbound.classify message with
  | error fault => simp [Receiver.op?, Inbound.answers, Inbound.notifies, hkind]
  | ok kind =>
    cases kind <;> simp [Receiver.op?, Inbound.answers, Inbound.notifies, hkind]

theorem delivers_of_mem {messages : List String} {op : Registry.Op}
    (h : op ∈ deliveries messages) : op.Delivers := by
  obtain ⟨message, -, hop⟩ := List.mem_flatMap.mp h
  rcases op?_routing_cases message with ⟨id, heq, -⟩ | ⟨heq, -⟩ | ⟨heq, -⟩
  all_goals rw [heq] at hop
  · rw [List.mem_singleton.mp hop]
    trivial
  · rw [List.mem_singleton.mp hop]
    trivial
  · cases hop

/-- The first reply to a request is what settles it. -/
theorem findSome?_deliveries (id : String) (messages : List String) :
    (deliveries messages).findSome? (Registry.settlement id) =
      (messages.find? (Inbound.answers id)).map .ok := by
  induction messages with
  | nil => rfl
  | cons message messages ih =>
    rw [deliveries_cons, List.findSome?_append, List.find?_cons, ih]
    rcases op?_routing_cases message with ⟨x, heq, hkind⟩ | ⟨heq, hkind⟩ | ⟨heq, hnone, -⟩
    · rw [heq]
      cases x with
      | none => simp [Registry.settlement, Inbound.answers, hkind]
      | some x =>
        by_cases hx : x = id
        · simp [Registry.settlement, Inbound.answers, hkind, hx]
        · have hbeq : (x == id) = false := beq_false_of_ne hx
          simp [Registry.settlement, Inbound.answers, hkind, hx, hbeq]
    · rw [heq]
      simp [Registry.settlement, Inbound.answers, hkind]
    · rw [heq, hnone id]
      rfl

theorem filterMap_notification?_deliveries (messages : List String) :
    (deliveries messages).filterMap Registry.Op.notification? =
      messages.filter Inbound.notifies := by
  induction messages with
  | nil => rfl
  | cons message messages ih =>
    rw [deliveries_cons, List.filterMap_append, List.filter_cons, ih]
    rcases op?_routing_cases message with ⟨x, heq, hkind⟩ | ⟨heq, hkind⟩ | ⟨heq, -, hnone⟩
    · simp [heq, Registry.Op.notification?, Inbound.notifies, hkind]
    · simp [heq, Registry.Op.notification?, Inbound.notifies, hkind]
    · simp [heq, hnone]

/-! ## 3. Routing behind the greeting -/

namespace System

variable {s : System}

/-- Behind the greeting nothing that is routed ends the receiving. -/
theorem route_of_greeted (h : s.intake.awaiting = false) (message : String) :
    s.route message = { s with
      receiver := .pulling
      registry := s.registry.replay (Receiver.routing message).op?.toList } := by
  rw [← registry_route]
  unfold route
  split
  · rw [Intake.greet, if_neg (by simp [h])]
  · split <;> rfl
  all_goals rfl

theorem foldl_route (h : s.intake.awaiting = false) (messages : List String) :
    messages.foldl route s = { s with
      receiver := if messages = [] then s.receiver else .pulling
      registry := s.registry.replay (deliveries messages) } := by
  induction messages generalizing s with
  | nil => rfl
  | cons message messages ih =>
    have hnext : (s.route message).intake.awaiting = false := by
      rw [route_of_greeted h]
      exact h
    rw [List.foldl_cons, ih hnext, route_of_greeted h]
    simp [deliveries_cons, Registry.replay, List.foldl_append]

/-- A call that waits for a reply ends with it. -/
theorem stepStage_awaitReply {ticket : Ticket} {raw : String}
    (h : s.registry.outcome? ticket = some (.ok raw)) (limit : Option (Duration × Duration)) :
    s.stepStage (.awaitReply ticket limit) = some (s, .finish (.replied raw)) := by
  simp only [stepStage, h]

/-- **Every reply reaches its own request and nothing else.** -/
theorem foldl_route_answers (hs : s.Reachable) (hopen : s.phase = .opened)
    (messages : List String) (answer : String → String)
    (hone : ∀ id ticket, s.registry.ticket? id = some ticket →
      messages.filter (Inbound.answers id) = [answer id]) :
    let t := messages.foldl route s
    (∀ id ticket, s.registry.ticket? id = some ticket →
      t.registry.outcome? ticket = some (.ok (answer id)) ∧
      ∀ limit, t.stepStage (.awaitReply ticket limit) = some (t, .finish (.replied (answer id)))) ∧
    (∀ ticket outcome, s.registry.outcome? ticket = some outcome →
      t.registry.outcome? ticket = some outcome) ∧
    t.registry.outcomes.length = s.registry.outcomes.length ∧
    t.registry.pending = [] ∧
    t.registry.streams = s.registry.broadcast (messages.filter Inbound.notifies) ∧
    (∀ before message behind, messages = before ++ message :: behind →
      ((before.foldl route s).route message).receiver = .pulling ∧
        ((before.foldl route s).route message).phase = .opened) ∧
    t = { s with receiver := t.receiver, registry := t.registry } := by
  intro t
  have hgreeted := greeted_of_opened hs hopen
  have hwell : s.registry.WellFormed := by
    obtain ⟨config, own, link, now, history, hrun⟩ := hs
    exact hrun.wellFormed_of_start
  have ht : t = _ := foldl_route hgreeted messages
  have hregistry : t.registry = s.registry.replay (deliveries messages) := by rw [ht]
  -- the only reply to a request is the first operation that settles it
  have hanswer : ∀ id ticket, s.registry.ticket? id = some ticket →
      t.registry.outcome? ticket = some (.ok (answer id)) := by
    intro id ticket hticket
    have hfind : messages.find? (Inbound.answers id) = some (answer id) := by
      rw [← List.head?_filter, hone id ticket hticket]
      rfl
    rw [hregistry, Registry.outcome?_replay hwell hticket, findSome?_deliveries, hfind]
    rfl
  refine ⟨fun id ticket hticket => ⟨hanswer id ticket hticket, fun limit => ?_⟩, ?_, ?_, ?_, ?_,
    ?_, ?_⟩
  · exact stepStage_awaitReply (hanswer id ticket hticket) limit
  · intro ticket outcome houtcome
    rw [Registry.outcome?, Option.join_eq_some_iff] at houtcome
    rw [hregistry]
    exact Registry.outcome?_of_settled (Registry.outcomes_replay_of_settled hwell houtcome _)
  · rw [hregistry]
    exact Registry.length_outcomes_replay fun op hop => delivers_of_mem hop
  · rw [hregistry]
    refine Registry.pending_replay_eq_nil hwell (fun op hop => delivers_of_mem hop) ?_
    intro id ticket hticket
    rw [findSome?_deliveries, ← List.head?_filter, hone id ticket hticket]
    exact ⟨_, rfl⟩
  · rw [hregistry, Registry.streams_replay fun op hop => delivers_of_mem hop,
      filterMap_notification?_deliveries]
  · intro before message behind _
    have hbefore : (before.foldl route s).intake.awaiting = false := by
      rw [foldl_route hgreeted before]
      exact hgreeted
    rw [route_of_greeted hbefore, foldl_route hgreeted before]
    exact ⟨rfl, hopen⟩
  · rw [ht]

/-- Two requests whose replies come in the other order, with all else that can come. -/
theorem foldl_route_answers_swapped :
    ∃ s : System, s.Reachable ∧ s.phase = .opened ∧
      s.registry.pending = [("a", 0), ("b", 1)] ∧
      let t := ["<notification/>", "<rpc-reply message-id=\"b\"/>", "<hello/>", "no markup",
        "<rpc-reply message-id=\"c\"/>", "<rpc-reply message-id=\"a\">!</rpc-reply>",
        "<rpc-reply/>"].foldl route s
      t.registry.outcome? 0 = some (.ok "<rpc-reply message-id=\"a\">!</rpc-reply>") ∧
      t.registry.outcome? 1 = some (.ok "<rpc-reply message-id=\"b\"/>") ∧
      t.registry.pending = [] ∧ t.registry.streams = [⟨["<notification/>"], true⟩] := by
  have hrun : ∃ whole ∈ (start ⟨[], ⟨1⟩, ⟨1⟩, none, 512, 512, 1⟩
      ⟨[⟨"urn:ietf:params:netconf:base:1.0", .empty⟩], by decide⟩ .fresh ⟨0⟩).trace
      (opening ++ [.subscribe,
        .begin (.ifOpen (.request "a") "<a/>"), .step (.call 1), .step (.call 1),
        .begin (.ifOpen (.request "b") "<b/>"), .step (.call 2), .step (.call 2)]),
      whole.2.phase = .opened ∧ whole.2.registry.pending = [("a", 0), ("b", 1)] ∧
      whole.2.registry.subscriber = some 0 ∧ whole.2.registry.streams = [⟨[], true⟩] := by
    decide +kernel
  obtain ⟨⟨history, s⟩, htrace, hphase, hpending, hsubscriber, hstreams⟩ := hrun
  have hreachable : s.Reachable := ⟨_, _, _, _, history, run_of_trace htrace⟩
  have hticket : ∀ id, s.registry.ticket? id = [("a", 0), ("b", 1)].lookup id := by
    intro id
    rw [Registry.ticket?, hpending]
  have hone : ∀ id ticket, s.registry.ticket? id = some ticket →
      ["<notification/>", "<rpc-reply message-id=\"b\"/>", "<hello/>", "no markup",
        "<rpc-reply message-id=\"c\"/>", "<rpc-reply message-id=\"a\">!</rpc-reply>",
        "<rpc-reply/>"].filter (Inbound.answers id) =
      [if id = "a" then "<rpc-reply message-id=\"a\">!</rpc-reply>"
        else "<rpc-reply message-id=\"b\"/>"] := by
    intro id ticket h
    rw [hticket] at h
    have hid : id = "a" ∧ ticket = 0 ∨ id = "b" ∧ ticket = 1 := by
      simpa using Association.mem_of_lookup h
    rcases hid with ⟨rfl, -⟩ | ⟨rfl, -⟩
    · decide +kernel
    · decide +kernel
  obtain ⟨hanswers, -, -, hnobody, hdelivered, -, -⟩ :=
    foldl_route_answers hreachable hphase _ _ hone
  refine ⟨s, hreachable, hphase, hpending, ?_, ?_, hnobody, ?_⟩
  · exact (hanswers "a" 0 (hticket "a")).1
  · exact (hanswers "b" 1 (hticket "b")).1
  · refine hdelivered.trans ?_
    rw [Registry.broadcast, hsubscriber, hstreams]
    decide +kernel

end System

end NetconfClient.Session
