/-
  NetconfClient/Proofs/Session/Settlement.lean
  ============================================
  **No request is left hanging.**

  When the teardown of a session is through, every request that was ever
  registered has come to something, and the moves behind its registration say
  to what (`Fate`): it was answered, it was taken back, or the teardown failed
  it.  Requests are known by their identifiers alone, so a call can take back the
  request of another one that has registered the same identifier since
  (`not_settled_alone`); nothing else goes wrong (`reuses_of_withdraws`).  A call
  that begins after the end fails and changes nothing (`refused_of_begin`).
-/
import NetconfClient.Proofs.Session.Teardown

namespace NetconfClient.Session

open Text

/-! ## 1. Moves that settle requests -/

/-- A move with which a call registers a request. -/
def Registers (e : System × Move) (number : Nat) (id : String) (ticket : Ticket) : Prop :=
  e.2 = .step (.call number) ∧ ∃ purpose message registry,
    e.1.calls.lookup number = some (.register id purpose message) ∧
      e.1.registry.register id = .ok (ticket, registry)

/-- A move with which a call takes its request back. -/
def Withdraws (e : System × Move) (number : Nat) (id : String) : Prop :=
  e.2 = .step (.call number) ∧ ∃ purpose fault,
    e.1.calls.lookup number = some (.withdraw purpose fault) ∧ purpose.id? = some id

/-- A move with which a reply is handed on. -/
def Answers (e : System × Move) (id : String) (raw : String) : Prop :=
  e.2 = .step .receiver ∧ e.1.receiver = .routing raw ∧
    Inbound.classify raw = .ok (.reply (some id))

/-- A registration uses an identifier again that another call had registered; the request of
    that call had come to something by then. -/
def Reuses (before : History) (e : System × Move) (other : Nat) (id : String) : Prop :=
  ∃ e' ∈ before, ∃ ticket o, Registers e' other id ticket ∧ e.1.registry.outcome? ticket = some o

theorem registers_of_lookup {s : System} {number : Nat} {id : String} {purpose : Purpose}
    {message : String} {ticket : Ticket}
    (hstage : s.calls.lookup number = some (.register id purpose message))
    (hticket : (s.registry.register id).toOption.map Prod.fst = some ticket) :
    Registers (s, .step (.call number)) number id ticket := by
  cases hregister : s.registry.register id with
  | error fault =>
    rw [hregister] at hticket
    cases hticket
  | ok r =>
    obtain ⟨t, registry⟩ := r
    rw [hregister] at hticket
    obtain rfl : t = ticket := Option.some.inj hticket
    exact ⟨rfl, _, _, registry, hstage, hregister⟩

/-- What has become of a request that a call registered with the move `e`, once a fault has
    torn the session down: the moves behind it say so. -/
inductive Fate (before : History) (e : System × Move) (behind : History) (fault : Fault)
    (number : Nat) (id : String) : Outcome → Prop where
  | answered {e' : System × Move} {raw : String} (he : e' ∈ behind) (h : Answers e' id raw) :
    Fate before e behind fault number id (.ok raw)
  | withdrawn {e' : System × Move} (he : e' ∈ behind) (h : Withdraws e' number id) :
    Fate before e behind fault number id Registry.abandoned
  /-- A call with the same identifier has taken this request back for its own, which was
      settled already.  Calls with different identifiers never do that. -/
  | mistaken {e' : System × Move} {other : Nat} (he : e' ∈ behind) (h : Withdraws e' other id)
    (hother : other ≠ number) (hreuses : Reuses before e other id) :
    Fate before e behind fault number id Registry.abandoned
  | failed : Fate before e behind fault number id (.error (.transportClosed fault.closingReason))

namespace System

variable {s t : System} {move : Move}

theorem withdraws_of_op? {id : String} (h : s.op? move = some (.cancel id)) :
    ∃ number, Withdraws (s, move) number id := by
  cases does_of_op? h with
  | cancel hstage hid => exact ⟨_, rfl, _, _, hstage, hid⟩

theorem answers_of_op? {id : String} {raw : String} (h : s.op? move = some (.reply (some id) raw)) :
    Answers (s, move) id raw := by
  cases does_of_op? h with
  | reply hreceiver hkind => exact ⟨rfl, hreceiver, hkind⟩

end System

/-! ## 2. Calls have registered what they take back -/

/-- The purpose of a call whose request has been registered. -/
def Stage.holds? : Stage → Option Purpose
  | ifStillOpen _ purpose _ | enqueue (some _) purpose _ | withdraw purpose _ => some purpose
  | _ => none

namespace System

variable {s t : System} {move : Move}

theorem register_of_stepStage {stage : Stage} {id : String} {purpose : Purpose} {message : String}
    (h : s.stepStage stage = some (t, .goOn (.register id purpose message))) :
    purpose.id? = some id := by
  have hother : ¬ (Next.goOn (.register id purpose message)).IsAftermath := fun h => h
  cases stage
  all_goals
    simp only [stepStage] at h
    repeat' split at h
  all_goals first
    | cases h; assumption
    | cases h
    | exact absurd (Prod.mk.inj (Option.some.inj h)).2 (refused_ne hother _ _)
    | exact absurd (Prod.mk.inj (Option.some.inj h)).2 (queued_ne hother _ _ _)

theorem holds?_of_stepStage {stage later : Stage} {purpose : Purpose}
    (h : s.stepStage stage = some (t, .goOn later)) (hlater : later.holds? = some purpose) :
    stage.holds? = some purpose ∨ ∃ id message ticket registry,
      stage = .register id purpose message ∧ s.registry.register id = .ok (ticket, registry) := by
  have hother : ¬ (Next.goOn later).IsAftermath := by
    cases later <;> first | exact id | cases hlater
  cases stage
  case register id p message =>
    simp only [stepStage] at h
    split at h
    · next ticket registry heq =>
      cases h
      cases hlater
      exact Or.inr ⟨id, message, ticket, registry, rfl, heq⟩
    · exact absurd (Prod.mk.inj (Option.some.inj h)).2 (refused_ne hother _ _)
  all_goals
    simp only [stepStage] at h
    repeat' split at h
  all_goals first
    | exact absurd (Prod.mk.inj (Option.some.inj h)).2 (refused_ne hother _ _)
    | exact absurd (Prod.mk.inj (Option.some.inj h)).2 (queued_ne hother _ _ _)
    | cases h; cases hlater; done
    | cases h; cases hlater; exact Or.inl rfl
    | cases h

/-- What a call is about to register is what it sends, and what it might take back it has
    registered. -/
def Booked (history : History) (s : System) : Prop :=
  ∀ number stage, s.calls.lookup number = some stage →
    (∀ id purpose message, stage = .register id purpose message → purpose.id? = some id) ∧
    ∀ purpose, stage.holds? = some purpose → ∃ id, purpose.id? = some id ∧
      ∃ e ∈ history, ∃ ticket, Registers e number id ticket

theorem Booked.perform {history : History} (h : Booked history s) (hs : s.Numbered)
    (hstep : s.perform move = some t) : Booked (history ++ [(s, move)]) t := by
  intro number stage hstage
  rcases lookup_perform hs hstep number with ⟨-, hsame⟩ |
    ⟨before, u, next, rfl, hbefore, hcall, hnext⟩ | ⟨entry, -, hentry, -, -, hbegun⟩
  · obtain ⟨hregister, hholds⟩ := h number stage (hsame ▸ hstage)
    refine ⟨hregister, fun purpose hp => ?_⟩
    obtain ⟨id, hid, e, he, ticket, hregistered⟩ := hholds purpose hp
    exact ⟨id, hid, e, List.mem_append_left _ he, ticket, hregistered⟩
  · cases next with
    | finish result => cases hnext.symm.trans hstage
    | goOn later =>
      obtain rfl : later = stage := Option.some.inj (hnext.symm.trans hstage)
      obtain ⟨hregister, hholds⟩ := h number before hbefore
      constructor
      · rintro id purpose message rfl
        exact register_of_stepStage hcall
      · intro purpose hp
        rcases holds?_of_stepStage hcall hp with hheld | ⟨id, message, ticket, registry, rfl, hok⟩
        · obtain ⟨id, hid, e, he, ticket, hregistered⟩ := hholds purpose hheld
          exact ⟨id, hid, e, List.mem_append_left _ he, ticket, hregistered⟩
        · exact ⟨id, hregister id purpose message rfl, _, List.mem_append_right _ List.mem_cons_self,
            ticket, rfl, purpose, message, registry, hbefore, hok⟩
  · obtain rfl : entry = stage := Option.some.inj (hbegun.symm.trans hstage)
    constructor
    · rintro id purpose message rfl
      cases hentry
    · intro purpose hp
      cases entry <;> first | cases hp; done | cases hentry

end System

/-! ## 3. Fates -/

section Fates

variable {config : Config} {own : CapabilitySet} {link : Link} {now : Duration}
  {history before behind : History} {e : System × Move} {s : System} {number : Nat} {id : String}
  {ticket : Ticket}

theorem booked_of_run (h : Run (.start config own link now) history s) :
    System.Booked history s := by
  induction h with
  | nil => exact fun _ _ hstage => by cases hstage
  | snoc hrun hstep ih => exact ih.perform hrun.numbered_of_start hstep

/-- Whoever takes a request back has registered its identifier. -/
theorem registers_of_withdraws {move : Move} (h : Run (.start config own link now) history s)
    (hw : Withdraws (s, move) number id) : ∃ e' ∈ history, ∃ t, Registers e' number id t := by
  obtain ⟨-, purpose, fault, hstage, hid⟩ := hw
  obtain ⟨x, hx, e', he', t, hregisters⟩ := ((booked_of_run h) number _ hstage).2 purpose rfl
  obtain rfl : x = id := Option.some.inj (hx.symm.trans hid)
  exact ⟨e', he', t, hregisters⟩

theorem free_of_registers (hregisters : Registers e number id ticket) :
    e.1.registry.ticket? id = none := by
  obtain ⟨-, -, -, registry, -, hregister⟩ := hregisters
  exact (Registry.ticket?_of_register hregister).1

/-- Behind a registration the registry is what the moves since then have made of it. -/
theorem registry_of_registers (h : Run (.start config own link now) (before ++ e :: behind) s)
    (hregisters : Registers e number id ticket) :
    ∃ r : Registry, r.WellFormed ∧ r.ticket? id = some ticket ∧
      s.registry = r.replay behind.ops := by
  obtain ⟨u, move⟩ := e
  obtain ⟨rfl, purpose, message, registry, hstage, hregister⟩ := hregisters
  obtain ⟨hbefore, v, hv, hbehind⟩ := h.split
  obtain ⟨-, hnext, hticket⟩ := Registry.ticket?_of_register hregister
  have hregistry : v.registry = registry := by
    rw [System.registry_perform hv, System.op?, hstage, hnext]
    rfl
  exact ⟨v.registry, (hbefore.snoc hv).wellFormed_of_start, hregistry ▸ hticket,
    hbehind.registry_eq⟩

/-- A call takes back its own request, as long as identifiers are not used again. -/
theorem reuses_of_withdraws {quiet : History} {move : Move} {other : Nat}
    (h : Run (.start config own link now) (before ++ e :: quiet) s)
    (hregisters : Registers e number id ticket)
    (hquiet : quiet.ops.findSome? (Registry.settlement id) = none)
    (hw : Withdraws (s, move) other id) : other = number ∨ Reuses before e other id := by
  obtain ⟨e', he', t, hother⟩ := registers_of_withdraws h hw
  have hfree := free_of_registers hregisters
  rcases List.mem_append.mp he' with hbefore | hbehind
  · -- the identifier was free again for the registration
    obtain ⟨first, rest, rfl⟩ := List.append_of_mem hbefore
    obtain ⟨r, hwell, hticket, hr⟩ := registry_of_registers h.split.1 hother
    rw [hr] at hfree
    obtain ⟨o, ho⟩ := Registry.outcome?_replay_of_free hwell hticket (History.ops rest) hfree
    exact Or.inr ⟨e', hbefore, t, o, hother, hr ▸ ho⟩
  · rcases List.mem_cons.mp hbehind with rfl | hlater
    · obtain ⟨hmove, -⟩ := hregisters
      obtain ⟨hmove', -⟩ := hother
      rw [hmove] at hmove'
      cases hmove'
      exact Or.inl rfl
    · -- the identifier is in use since the registration
      obtain ⟨first, rest, rfl⟩ := List.append_of_mem hlater
      rw [← List.cons_append, ← List.append_assoc] at h
      obtain ⟨r, hwell, hticket, hr⟩ := registry_of_registers h.split.1 hregisters
      rw [History.ops_append, List.findSome?_append, Option.or_eq_none_iff] at hquiet
      have hused := Registry.ticket?_replay hwell hticket (History.ops first) hquiet.1
      rw [← hr, free_of_registers hother] at hused
      cases hused

/-- **Once a session is torn down, every request has come to something.** -/
theorem fate_of_closed {fault : Fault}
    (h : Run (.start config own link now) (before ++ e :: behind) s)
    (hclosed : s.registry.closed = true) (hfaults : History.faults (before ++ e :: behind) = [fault])
    (hregisters : Registers e number id ticket) :
    ∃ o, s.registry.outcome? ticket = some o ∧ Fate before e behind fault number id o := by
  obtain ⟨r, hwell, hticket, hr⟩ := registry_of_registers h hregisters
  -- nothing is pending in a closed registry, so something has settled the request
  have hfree : (r.replay behind.ops).ticket? id = none := by
    rw [← hr, Registry.ticket?, h.wellFormed_of_start.closed_empty hclosed]
    rfl
  obtain ⟨o, ho⟩ := Registry.outcome?_replay_of_free hwell hticket behind.ops hfree
  have hsettles := ho
  rw [Registry.outcome?_replay hwell hticket] at hsettles
  refine ⟨o, hr ▸ ho, ?_⟩
  obtain ⟨quiet, w, move, rest, op, rfl, hquiet, hop, hsettled⟩ :=
    History.exists_first_settling hsettles
  have he : (w, move) ∈ quiet ++ (w, move) :: rest := List.mem_append_right _ List.mem_cons_self
  cases op with
  | cancel x =>
    rw [Registry.settlement] at hsettled
    split at hsettled
    · next hx =>
      subst hx
      cases hsettled
      obtain ⟨other, hwithdraws⟩ := System.withdraws_of_op? hop
      have hrun : Run (.start config own link now) (before ++ e :: quiet) w := by
        rw [← List.cons_append, ← List.append_assoc] at h
        exact h.split.1
      by_cases hown : other = number
      · subst hown
        exact .withdrawn he hwithdraws
      · exact .mistaken he hwithdraws hown
          ((reuses_of_withdraws hrun hregisters hquiet hwithdraws).resolve_left hown)
    · cases hsettled
  | reply x raw =>
    cases x with
    | none => cases hsettled
    | some x =>
      rw [Registry.settlement] at hsettled
      split at hsettled
      · next hx =>
        subst hx
        cases hsettled
        exact .answered he (System.answers_of_op? hop)
      · cases hsettled
  | fail cause =>
    cases hsettled
    have hcause : cause ∈ History.faults (before ++ e :: (quiet ++ (w, move) :: rest)) := by
      rw [History.faults, List.mem_filterMap]
      refine ⟨.fail cause, List.mem_flatMap.mpr ⟨(w, move), ?_, Option.mem_toList.mpr hop⟩, rfl⟩
      exact List.mem_append_right _ (List.mem_cons_of_mem _ he)
    rw [hfaults, List.mem_singleton] at hcause
    rw [hcause]
    exact .failed
  | register | notify | subscribe | unsubscribe => cases hsettled

end Fates

/-! ## 4. Calls behind the end -/

namespace System

variable {s t : System} {move : Move} {number : Nat}

/-- A call that does not find the session open ends with its first step, which changes nothing
    but the calls and their results. -/
theorem stepCall_of_not_opened {purpose : Purpose} {message : String}
    (hphase : s.phase ≠ .opened) (hfarewell : ∀ id, purpose ≠ .farewell id)
    (hstage : s.calls.lookup number = some (.ifOpen purpose message)) :
    s.stepCall number = some { s with
      calls := s.calls.filter (·.1 != number)
      results := (number, .failed .notConnected) :: s.results } := by
  have hrefused : refused purpose .notConnected = .finish (.failed .notConnected) := by
    cases purpose with
    | farewell id => exact absurd rfl (hfarewell id)
    | _ => rfl
  simp only [stepCall, hstage, stepStage, if_neg hphase, hrefused]

theorem results_perform (h : s.perform move = some t) (hmove : move ≠ .step (.call number)) :
    t.results.lookup number = s.results.lookup number := by
  cases move with
  | step task =>
    cases task with
    | writer => rw [stepWriter_frame h]
    | receiver => rw [stepReceiver_frame h]
    | call other =>
      obtain ⟨stage, u, next, -, hstep, rfl⟩ := stepCall_cases h
      have hresults : u.results = s.results := by rw [stepStage_frame hstep]
      cases next with
      | goOn later => exact congrArg (List.lookup number) hresults
      | finish result =>
        have hne : number ≠ other := by
          rintro rfl
          exact hmove rfl
        change List.lookup number ((other, result) :: u.results) = _
        rw [List.lookup_cons, beq_false_of_ne hne, hresults]
  | _ => rw [perform_frame h nofun]

/-- A call to send that has not taken a step yet, or has failed in its first one. -/
def Refused (s : System) (number : Nat) (purpose : Purpose) (message : String) : Prop :=
  (s.calls.lookup number = some (.ifOpen purpose message) ∧
    s.stepCall number = some { s with
      calls := s.calls.filter (·.1 != number)
      results := (number, .failed .notConnected) :: s.results }) ∨
  (s.calls.lookup number = none ∧ s.results.lookup number = some (.failed .notConnected))

theorem Refused.perform {purpose : Purpose} {message : String} (h : s.Refused number purpose message)
    (hs : s.Numbered) (hnumber : number < s.begun) (hfarewell : ∀ id, purpose ≠ .farewell id)
    (hstep : s.perform move = some t) (hphase : t.phase = .closed) :
    t.Refused number purpose message := by
  have hopen : t.phase ≠ .opened := by
    rw [hphase]
    decide
  rcases lookup_perform hs hstep number with ⟨hmove, hsame⟩ |
    ⟨stage, u, next, rfl, hstage, -, -⟩ | ⟨stage, -, -, hbegun, -, -⟩
  · rcases h with ⟨hstage, -⟩ | ⟨hgone, hresult⟩
    · rw [← hsame] at hstage
      exact Or.inl ⟨hstage, stepCall_of_not_opened hopen hfarewell hstage⟩
    · exact Or.inr ⟨hsame.trans hgone, (results_perform hstep hmove).trans hresult⟩
  · rcases h with ⟨-, hcall⟩ | ⟨hgone, -⟩
    · obtain rfl := Option.some.inj (hcall.symm.trans hstep)
      refine Or.inr ⟨Association.lookup_filter_self, ?_⟩
      simp
    · rw [hgone] at hstage
      cases hstage
  · omega

/-- **A call to send that begins on a closed session fails.** -/
theorem refused_of_begin {purpose : Purpose} {message : String} {later : History}
    (hs : s.Numbered) (hphase : s.phase = .closed) (hfarewell : ∀ id, purpose ≠ .farewell id)
    (h : Run (s.begin (.ifOpen purpose message)) later t) :
    t.Refused s.begun purpose message := by
  -- the session stays closed, so the call fails in its first step, whenever it takes it
  have hall : t.Numbered ∧ t.phase = .closed ∧ s.begun < t.begun ∧
      t.Refused s.begun purpose message := by
    induction h with
    | nil =>
      have hstage := hs.lookup_begin (.ifOpen purpose message)
      have hopen : (s.begin (.ifOpen purpose message)).phase ≠ .opened := by
        change s.phase ≠ .opened
        rw [hphase]
        decide
      have hbegin : s.perform (.begin (.ifOpen purpose message)) =
          some (s.begin (.ifOpen purpose message)) := rfl
      exact ⟨hs.perform hbegin, hphase, Nat.lt_succ_self _,
        Or.inl ⟨hstage, stepCall_of_not_opened hopen hfarewell hstage⟩⟩
    | snoc _ hstep ih =>
      obtain ⟨hnumbers, hclosed, hbegun, hrefused⟩ := ih
      have hlater := Phase.eq_closed_of_rank_le (hclosed ▸ rank_le_perform hstep)
      refine ⟨hnumbers.perform hstep, hlater, ?_,
        hrefused.perform hnumbers hbegun hfarewell hstep hlater⟩
      rw [begun_perform hstep]
      omega
  exact hall.2.2.2

end System

/-! ## 5. Every run -/

/-- **No teardown leaves a request hanging**, in whatever order the tasks take their steps.
    Phases only go forward; requests are failed at most once, by the task that closed the
    session and for its reason; a closed registry stays closed and empty; until it is closed
    that task can take its second step; then every request has come to something, and calls
    that begin later fail. -/
theorem settled_of_torn_down {config : Config} {own : CapabilitySet} {link : Link} {now : Duration}
    {history : History} {s : System} (h : Run (.start config own link now) history s) :
    (∀ later t, Run s later t → s.phase.rank ≤ t.phase.rank) ∧
    history.faults.length ≤ 1 ∧
    (s.registry.closed = true → ∀ later t, Run s later t →
      t.registry.closed = true ∧ t.phase = .closed ∧ t.registry.pending = []) ∧
    (s.phase = .closed → s.registry.closed = false → ∃ task fault,
      history.ClosedBy task fault ∧ s.teardown? task = some (.fail fault) ∧
      (∀ other f, s.teardown? other = some (.fail f) → other = task ∧ f = fault) ∧
      ∃ t, s.step task = some t ∧ t.registry.closed = true) ∧
    (s.registry.closed = true → ∃ task fault,
      history.ClosedBy task fault ∧ history.faults = [fault] ∧
      ∀ before e behind number id ticket, history = before ++ e :: behind →
        Registers e number id ticket →
        ∃ o, s.registry.outcome? ticket = some o ∧ Fate before e behind fault number id o) ∧
    (s.registry.closed = true →
      s.registry.subscribe = .error .notConnected ∧ s.perform .subscribe = some s ∧
      ∀ purpose message, (∀ id, purpose ≠ .farewell id) → ∀ later t,
        Run (s.begin (.ifOpen purpose message)) later t → t.Refused s.begun purpose message) := by
  have htorn := Torn.run h
  have hclosed : s.registry.closed = true → s.phase = .closed := by
    intro hregistry
    cases htorn with
    | whole _ hopen => rw [hopen] at hregistry; cases hregistry
    | half _ _ hphase => exact hphase
    | done _ _ hphase => exact hphase
  refine ⟨fun later t hlater => hlater.rank_le, ?_, fun hregistry later t hlater => ?_,
    fun hphase hregistry => ?_, fun hregistry => ?_, fun hregistry => ⟨?_, ?_, ?_⟩⟩
  · cases htorn with
    | whole _ _ hfaults => rw [hfaults]; exact Nat.zero_le 1
    | half _ _ _ _ hfaults => rw [hfaults]; exact Nat.zero_le 1
    | done _ _ _ _ hfaults => rw [hfaults]; exact Nat.le_refl 1
  · have hstill := hlater.closed_of_closed hregistry
    refine ⟨hstill, ?_, (h.append hlater).wellFormed_of_start.closed_empty hstill⟩
    exact Phase.eq_closed_of_rank_le (hclosed hregistry ▸ hlater.rank_le)
  · cases htorn with
    | whole hopen => exact absurd hphase hopen
    | half task fault _ _ _ htask hothers hby =>
      refine ⟨task, fault, hby, htask, fun other f hother => ?_, ?_⟩
      · obtain rfl := hothers other f hother
        rw [htask] at hother
        cases hother
        exact ⟨rfl, rfl⟩
      · obtain ⟨t, ht⟩ := System.exists_step_of_teardown htask
        have hmove : s.perform (.step task) = some t := ht
        refine ⟨t, ht, ?_⟩
        rw [Torn.closed_perform hmove, System.op?_of_teardown htask]
        exact Bool.or_true _
    | done _ _ _ hdone =>
      rw [hdone] at hregistry
      cases hregistry
  · cases htorn with
    | whole _ hopen => rw [hopen] at hregistry; cases hregistry
    | half _ _ _ hopen => rw [hopen] at hregistry; cases hregistry
    | done task fault _ _ hfaults _ hby =>
      refine ⟨task, fault, hby, hfaults, ?_⟩
      rintro before e behind number id ticket rfl hregisters
      exact fate_of_closed h hregistry hfaults hregisters
  · rw [Registry.subscribe, if_pos hregistry]
  · have hsame : s.registry.apply .subscribe = s.registry := by
      rw [Registry.apply, Registry.subscribe, if_pos hregistry]
    rw [System.perform, hsame]
  · intro purpose message hfarewell later t hlater
    exact System.refused_of_begin h.numbered_of_start (hclosed hregistry) hfarewell hlater

/-- A session that goes away while a request is outstanding. -/
theorem settled_of_torn_down_dropped :
    ∃ (config : Config) (own : CapabilitySet) (before behind : History) (e : System × Move)
      (s : System), Run (.start config own .fresh ⟨0⟩) (before ++ e :: behind) s ∧
      s.registry.closed = true ∧ Registers e 1 "a" 0 ∧
      s.registry.outcome? 0 = some (.error (.transportClosed "session dropped")) ∧
      ∃ task fault o, History.ClosedBy (before ++ e :: behind) task fault ∧
        s.registry.outcome? 0 = some o ∧ Fate before e behind fault 1 "a" o := by
  have hrun : ∃ early ∈ (System.start ⟨[], ⟨1⟩, ⟨1⟩, none, 512, 512, 1⟩
      ⟨[⟨"urn:ietf:params:netconf:base:1.0", .empty⟩], by decide⟩ .fresh ⟨0⟩).trace
      (System.opening ++ [.begin (.ifOpen (.request "a") "<a/>"), .step (.call 1)]),
      ∃ v ∈ early.2.perform (.step (.call 1)),
      ∃ late ∈ v.trace [.begin (.drop .closed), .step (.call 2), .step (.call 2), .step (.call 2),
        .step (.call 2)],
      early.2.calls.lookup 1 = some (.register "a" (.request "a") "<a/>") ∧
      (early.2.registry.register "a").toOption.map Prod.fst = some 0 ∧
      late.2.registry.closed = true ∧
      late.2.registry.outcome? 0 = some (.error (.transportClosed "session dropped")) := by
    decide +kernel
  obtain ⟨⟨before, u⟩, hbefore, v, hv, ⟨behind, s⟩, hbehind, hstage, hregister, hclosed,
    houtcome⟩ := hrun
  have hwhole := (System.run_of_trace hbefore).append
    ((Run.single hv).append (System.run_of_trace hbehind))
  have hregisters := registers_of_lookup hstage hregister
  obtain ⟨-, -, -, -, hfates, -⟩ := settled_of_torn_down hwhole
  obtain ⟨task, fault, hby, -, hfate⟩ := hfates hclosed
  obtain ⟨o, ho, hend⟩ := hfate before (u, .step (.call 1)) behind 1 "a" 0 rfl hregisters
  exact ⟨_, _, before, behind, _, s, hwhole, hclosed, hregisters, houtcome, task, fault, o, hby, ho,
    hend⟩

/-- A call can lose its request to another one.  Both use the same identifier; the request of
    the first is answered while the call is still under way, so the second can register the
    identifier again and is through.  Then the peer goes away, and in front of the second half
    of the teardown the first finds the session closed and takes back what it has not got. -/
theorem not_settled_alone :
    ¬ ∀ (config : Config) (own : CapabilitySet) (link : Link) (now : Duration)
      (before behind : History) (e : System × Move) (s : System) (fault : Fault) (number : Nat)
      (id : String) (ticket : Ticket),
      Run (.start config own link now) (before ++ e :: behind) s → s.registry.closed = true →
      History.faults (before ++ e :: behind) = [fault] → Registers e number id ticket →
      (∃ e' ∈ behind, ∃ raw, Answers e' id raw ∧ s.registry.outcome? ticket = some (.ok raw)) ∨
      (∃ e' ∈ behind, Withdraws e' number id) ∨
      s.registry.outcome? ticket = some (.error (.transportClosed fault.closingReason)) := by
  intro hall
  have hrun : ∃ early ∈ (System.start ⟨[], ⟨1⟩, ⟨1⟩, none, 512, 512, 2⟩
      ⟨[⟨"urn:ietf:params:netconf:base:1.0", .empty⟩], by decide⟩ .fresh ⟨0⟩).trace
      (System.opening ++ [.begin (.ifOpen (.request "a") "<a/>"), .step (.call 1), .step (.call 1),
        .link (Link.fresh.arrive (Framing.endOfMessage.encode "<rpc-reply message-id=\"a\"/>")),
        .step .receiver, .step .receiver, .step .receiver, .step .receiver,
        .begin (.ifOpen (.request "a") "<a/>"), .step (.call 2)]),
      ∃ v ∈ early.2.perform (.step (.call 2)),
      ∃ late ∈ v.trace [.step (.call 2), .step (.call 2), .link { Link.fresh with ended := true },
        .step .receiver, .step .receiver, .step .receiver, .step .receiver,
        .step (.call 1), .step (.call 1), .step .receiver],
      early.2.calls.lookup 2 = some (.register "a" (.request "a") "<a/>") ∧
      (early.2.registry.register "a").toOption.map Prod.fst = some 1 ∧
      late.2.registry.closed = true ∧ late.2.registry.outcome? 1 = some Registry.abandoned ∧
      History.faults (early.1 ++ (early.2, .step (.call 2)) :: late.1) = [.unexpectedEnd] ∧
      late.1.map (fun e => e.1.calls.lookup 2) =
        [some (.ifStillOpen 1 (.request "a") "<a/>"),
          some (.enqueue (some 1) (.request "a") "<a/>"),
          none, none, none, none, none, none, none, none] := by
    decide +kernel
  obtain ⟨⟨before, u⟩, hbefore, v, hv, ⟨behind, s⟩, hbehind, hstage, hregister, hclosed, houtcome,
    hfaults, hstages⟩ := hrun
  have hwhole := (System.run_of_trace hbefore).append
    ((Run.single hv).append (System.run_of_trace hbehind))
  rcases hall _ _ _ _ before behind _ s _ 2 "a" 1 hwhole hclosed hfaults
    (registers_of_lookup hstage hregister) with ⟨e, -, raw, -, hok⟩ | ⟨e, he, -, purpose, fault,
      hwithdraw, -⟩ | hfailed
  · rw [houtcome] at hok
    cases hok
  · have hmem := List.mem_map_of_mem (f := fun e : System × Move => e.1.calls.lookup 2) he
    rw [hstages, hwithdraw] at hmem
    simp at hmem
  · rw [houtcome] at hfailed
    revert hfailed
    decide

end NetconfClient.Session
