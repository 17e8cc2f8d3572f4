/-
  NetconfClient/Proofs/Session/Course.lean
  ========================================
  **The course of one request, whatever the other tasks do.**

  A call that sends an operation registers its own identifier, gets its message
  into the queue once, and ends with the first reply that carries the
  identifier.  It fails when the session is over, or when its time is.  `Course`
  has one constructor for each place that such a call can be at, and every move
  leads from one of them to one of them (`Course.perform`).

  Histories are those since the call began.
-/
import NetconfClient.Proofs.Session.Identifiers
import NetconfClient.Proofs.Session.Opening
import NetconfClient.Proofs.Session.Retirement

namespace NetconfClient.Session

open Text

/-! ## 1. What a call has done -/

/-- The call whose message enters the queue with a move, and the message. -/
def System.admitted? (s : System) : Move → Option (Nat × String)
  | .step (.call number) => (s.accepted? (.step (.call number))).map (Prod.mk number)
  | _ => none

theorem enqueue_of_admitted? {s : System} {move : Move} {number : Nat} {message : String}
    (h : s.admitted? move = some (number, message)) :
    move = .step (.call number) ∧ s.accepts = true ∧
      ∃ ticket purpose, s.calls.lookup number = some (.enqueue ticket purpose message) := by
  cases move with
  | step task =>
    cases task with
    | call other =>
      obtain ⟨m, haccepted, heq⟩ := Option.map_eq_some_iff.mp h
      cases heq
      obtain ⟨stage, hstage, haccepting⟩ := Option.bind_eq_some_iff.mp haccepted
      cases stage
      case enqueue ticket purpose m =>
        rw [System.accepting] at haccepting
        split at haccepting
        · next haccepts =>
          cases haccepting
          exact ⟨rfl, haccepts, ticket, purpose, hstage⟩
        · cases haccepting
      all_goals cases haccepting
    | _ => cases h
  | _ => cases h

theorem admitted?_of_stage {s : System} {number : Nat} {stage : Stage}
    (hstage : s.calls.lookup number = some stage) :
    s.admitted? (.step (.call number)) = (s.accepting stage).map (Prod.mk number) := by
  rw [System.admitted?, System.accepted?, hstage, Option.bind_some]

namespace History

/-- The messages that have entered the queue, in that order, with the numbers of their calls. -/
def admissions (history : History) : List (Nat × String) :=
  history.filterMap fun e => e.1.admitted? e.2

/-- A call has registered its identifier, and nobody has taken that back. -/
def Holds (history : History) (number : Nat) (ticket : Ticket) : Prop :=
  ∃ before e behind, history = before ++ e :: behind ∧
    Registers e number (messageId number) ticket ∧
    ∀ e' ∈ behind, e'.1.op? e'.2 ≠ some (.cancel (messageId number))

/-- The first reply with the identifier of a call behind its registration. -/
def Answered (history : History) (number : Nat) (raw : String) : Prop :=
  ∃ before e between e' behind ticket, history = before ++ e :: (between ++ e' :: behind) ∧
    Registers e number (messageId number) ticket ∧ Answers e' (messageId number) raw ∧
    ∀ e'' ∈ between, ∀ other, ¬ Answers e'' (messageId number) other

variable {history : History} {s : System} {move : Move} {number : Nat} {ticket : Ticket}
  {raw message : String}

theorem admissions_snoc (history : History) (s : System) (move : Move) :
    admissions (history ++ [(s, move)]) = history.admissions ++ (s.admitted? move).toList := by
  rw [admissions, List.filterMap_append]
  cases hadmitted : s.admitted? move <;> simp [admissions, hadmitted]

theorem mem_admissions_snoc :
    (number, message) ∈ admissions (history ++ [(s, move)]) ↔
      (number, message) ∈ history.admissions ∨ s.admitted? move = some (number, message) := by
  rw [admissions_snoc, List.mem_append, Option.mem_toList]

theorem admissions_of_other (hmove : move ≠ .step (.call number)) :
    (number, message) ∈ admissions (history ++ [(s, move)]) ↔
      (number, message) ∈ history.admissions := by
  rw [mem_admissions_snoc]
  exact or_iff_left fun hadmitted => hmove (enqueue_of_admitted? hadmitted).1

/-- A step at a stage that sends nothing leaves a call without messages. -/
theorem silent_snoc {stage : Stage} (hstage : s.calls.lookup number = some stage)
    (haccepting : s.accepting stage = none) (hnone : ∀ m, (number, m) ∉ history.admissions) :
    ∀ m, (number, m) ∉ admissions (history ++ [(s, .step (.call number))]) := by
  intro m hm
  rcases mem_admissions_snoc.mp hm with hm | hm
  · exact hnone m hm
  · rw [admitted?_of_stage hstage, haccepting] at hm
    cases hm

theorem holds_of_registers (h : Registers (s, move) number (messageId number) ticket) :
    Holds (history ++ [(s, move)]) number ticket := by
  refine ⟨history, (s, move), [], rfl, h, ?_⟩
  intro e' he'
  cases he'

theorem Holds.snoc (h : history.Holds number ticket)
    (hop : s.op? move ≠ some (.cancel (messageId number))) :
    Holds (history ++ [(s, move)]) number ticket := by
  obtain ⟨before, e, behind, rfl, hregisters, hnever⟩ := h
  refine ⟨before, e, behind ++ [(s, move)], by simp, hregisters, ?_⟩
  intro e' he'
  rcases List.mem_append.mp he' with he' | he'
  · exact hnever e' he'
  · rw [List.mem_singleton.mp he']
    exact hop

theorem Holds.snoc_of_stage {stage : Stage} (h : history.Holds number ticket)
    (hstage : s.calls.lookup number = some stage) (hop : stage.op? = none) :
    Holds (history ++ [(s, .step (.call number))]) number ticket := by
  refine h.snoc ?_
  rw [System.op?, hstage, Option.bind_some, hop]
  exact (Option.some_ne_none _).symm

theorem Answered.snoc (h : history.Answered number raw) (e : System × Move) :
    Answered (history ++ [e]) number raw := by
  obtain ⟨before, e₁, between, e₂, behind, ticket, rfl, hrest⟩ := h
  exact ⟨before, e₁, between, e₂, behind ++ [e], ticket, by simp, hrest⟩

end History

theorem op?_of_answers {e : System × Move} {id raw : String} (h : Answers e id raw) :
    e.1.op? e.2 = some (.reply (some id) raw) := by
  obtain ⟨hmove, hreceiver, hkind⟩ := h
  rw [hmove, System.op?, hreceiver]
  simp only [Receiver.op?, hkind]

theorem isOver_of_torn {history : History} {s : System} (h : Torn history s)
    (hclosed : s.registry.closed = true) : s.IsOver := by
  cases h with
  | whole _ hopen =>
    rw [hopen] at hclosed
    cases hclosed
  | half _ _ hphase => exact System.isOver_of_closed hphase
  | done _ _ hphase => exact System.isOver_of_closed hphase

section Replies

variable {config : Config} {own : CapabilitySet} {link : Link} {now : Duration}
  {before history : History} {s : System} {number : Nat} {ticket : Ticket}

/-- **What a request that nobody takes back comes to**: the first reply with its identifier, or
    the end of the session. -/
theorem History.Holds.outcome {o : Outcome}
    (hrun : Run (.start config own link now) (before ++ history) s)
    (h : history.Holds number ticket) (ho : s.registry.outcome? ticket = some o) :
    (∃ raw, o = .ok raw ∧ history.Answered number raw) ∨
      (∃ fault, o = .error fault ∧ s.IsOver) := by
  obtain ⟨front, e, behind, rfl, hregisters, hnever⟩ := h
  rw [← List.append_assoc] at hrun
  obtain ⟨r, hwell, hticket, hr⟩ := registry_of_registers hrun hregisters
  rw [hr, Registry.outcome?_replay hwell hticket] at ho
  obtain ⟨quiet, w, move, rest, op, rfl, hquiet, hop, hsettled⟩ := History.exists_first_settling ho
  cases op with
  | cancel id =>
    rw [Registry.settlement] at hsettled
    split at hsettled
    · next hid =>
      subst hid
      exact absurd hop (hnever (w, move) (List.mem_append_right _ List.mem_cons_self))
    · cases hsettled
  | reply id raw =>
    cases id with
    | none => cases hsettled
    | some id =>
      rw [Registry.settlement] at hsettled
      split at hsettled
      · next hid =>
        subst hid
        cases hsettled
        refine .inl ⟨raw, rfl, front, e, quiet, (w, move), rest, ticket, rfl, hregisters,
          System.answers_of_op? hop, ?_⟩
        -- an earlier reply would have settled the request
        intro e' he' other hanswers
        rw [List.findSome?_eq_none_iff] at hquiet
        have hsilent := hquiet (.reply (some (messageId number)) other)
          (List.mem_flatMap.mpr ⟨e', he', by rw [op?_of_answers hanswers]; simp⟩)
        simp [Registry.settlement] at hsilent
      · cases hsettled
  | fail fault =>
    cases hsettled
    rw [← List.cons_append, ← List.append_assoc] at hrun
    obtain ⟨hw, v, hv, hrest⟩ := hrun.split
    have hclosed : v.registry.closed = true := by
      rw [Torn.closed_perform hv, hop]
      exact Bool.or_true _
    exact .inr ⟨_, rfl, (isOver_of_torn (.run (hw.snoc hv)) hclosed).run hrest⟩
  | register | notify | subscribe | unsubscribe => cases hsettled

end Replies

namespace System

variable {s t : System} {ticket : Ticket} {next : Next}

/-- A call leaves the queue because nobody can send any more, or with its message sent. -/
theorem enqueue_cases {purpose : Purpose} {message : String}
    (h : s.stepStage (.enqueue (some ticket) purpose message) = some (t, next)) :
    (s.queue.closed = true ∧ next = .goOn (.withdraw purpose .notConnected)) ∨
      (s.accepts = true ∧ next = s.queued (some ticket) purpose) := by
  simp only [stepStage] at h
  split at h
  · next hclosed =>
    cases h
    exact .inl ⟨hclosed, rfl⟩
  · next hopen =>
    split at h
    · next hroom =>
      cases h
      exact .inr ⟨by simp [accepts, hopen, hroom], rfl⟩
    · cases h

/-- What a call that waits for its reply ends with. -/
theorem awaitReply_cases {limit : Option (Duration × Duration)}
    (h : s.stepStage (.awaitReply ticket limit) = some (t, next)) :
    (∃ raw, s.registry.outcome? ticket = some (.ok raw) ∧ next = .finish (.replied raw)) ∨
    (∃ fault, s.registry.outcome? ticket = some (.error fault) ∧ next = .finish (.failed fault)) ∨
    ∃ span, limit.map Prod.fst = some span ∧ next = .finish (.failed (.timeout span)) := by
  simp only [stepStage] at h
  split at h
  · next raw houtcome =>
    cases h
    exact .inl ⟨raw, houtcome, rfl⟩
  · next fault houtcome =>
    cases h
    exact .inr (.inl ⟨fault, houtcome, rfl⟩)
  · split at h
    · next span deadline =>
      split at h
      · cases h
        exact .inr (.inr ⟨span, rfl, rfl⟩)
      · cases h
    · cases h

end System

/-! ## 2. Where a call is -/

/-- The place that a call with an operation is at. -/
inductive Course (history : History) (s : System) (number : Nat) (message : String) : Prop where
  | begun (hstage : s.calls.lookup number =
      some (.ifOpen (.operation (messageId number)) message))
    (hfree : s.registry.ticket? (messageId number) = none)
    (hnone : ∀ m, (number, m) ∉ history.admissions)
  | registering (hstage : s.calls.lookup number =
      some (.register (messageId number) (.operation (messageId number)) message))
    (hfree : s.registry.ticket? (messageId number) = none)
    (hnone : ∀ m, (number, m) ∉ history.admissions)
  | looking (ticket : Ticket) (hstage : s.calls.lookup number =
      some (.ifStillOpen ticket (.operation (messageId number)) message))
    (hholds : history.Holds number ticket) (hnone : ∀ m, (number, m) ∉ history.admissions)
  | queueing (ticket : Ticket) (hstage : s.calls.lookup number =
      some (.enqueue (some ticket) (.operation (messageId number)) message))
    (hholds : history.Holds number ticket) (hnone : ∀ m, (number, m) ∉ history.admissions)
  | leaving (hstage : s.calls.lookup number =
      some (.withdraw (.operation (messageId number)) .notConnected)) (hover : s.IsOver)
  | waiting (ticket : Ticket) (limit : Option (Duration × Duration))
    (hstage : s.calls.lookup number = some (.awaitReply ticket limit))
    (hholds : history.Holds number ticket) (hlimit : limit.map Prod.fst = s.config.requestTimeout)
    (hsent : (number, message) ∈ history.admissions)
  | answered (raw : String) (hgone : s.calls.lookup number = none)
    (hresult : s.results.lookup number = some (.replied raw))
    (hsent : (number, message) ∈ history.admissions) (hanswered : history.Answered number raw)
  | ended (fault : Fault) (hgone : s.calls.lookup number = none)
    (hresult : s.results.lookup number = some (.failed fault)) (hover : s.IsOver)
  | late (limit : Duration) (hgone : s.calls.lookup number = none)
    (hresult : s.results.lookup number = some (.failed (.timeout limit)))
    (hlimit : s.config.requestTimeout = some limit)
    (hsent : (number, message) ∈ history.admissions)

/-- A call with an operation that has just begun. -/
def System.Fresh (s : System) (number : Nat) (message : String) : Prop :=
  number < s.begun ∧
    s.calls.lookup number = some (.ifOpen (.operation (messageId number)) message) ∧
    s.registry.ticket? (messageId number) = none

namespace Course

variable {history : History} {s t : System} {move : Move} {number : Nat} {message : String}

/-- The moves of others leave a call where it is. -/
theorem aside (h : Course history s number message) (hid : Identified s)
    (hmove : move ≠ .step (.call number)) (hstep : s.perform move = some t)
    (hsame : t.calls.lookup number = s.calls.lookup number) :
    Course (history ++ [(s, move)]) t number message := by
  obtain ⟨hregister, hcancel⟩ := hid.ops_of_other hmove
  have hadmissions : ∀ m, (number, m) ∈ History.admissions (history ++ [(s, move)]) ↔
      (number, m) ∈ history.admissions := fun m => History.admissions_of_other hmove
  have hfree' : s.registry.ticket? (messageId number) = none →
      t.registry.ticket? (messageId number) = none := by
    intro hfree
    rw [System.registry_perform hstep]
    cases hop : s.op? move with
    | none => exact hfree
    | some op => exact Registry.ticket?_apply_of_free hfree fun heq => hregister (heq ▸ hop)
  have hresults := System.results_perform hstep hmove
  have hconfig := config_perform hstep
  cases h with
  | begun hstage hfree hnone =>
    exact .begun (hsame.trans hstage) (hfree' hfree) fun m hm => hnone m ((hadmissions m).mp hm)
  | registering hstage hfree hnone =>
    exact .registering (hsame.trans hstage) (hfree' hfree) fun m hm =>
      hnone m ((hadmissions m).mp hm)
  | looking ticket hstage hholds hnone =>
    exact .looking ticket (hsame.trans hstage) (hholds.snoc hcancel) fun m hm =>
      hnone m ((hadmissions m).mp hm)
  | queueing ticket hstage hholds hnone =>
    exact .queueing ticket (hsame.trans hstage) (hholds.snoc hcancel) fun m hm =>
      hnone m ((hadmissions m).mp hm)
  | leaving hstage hover => exact .leaving (hsame.trans hstage) (hover.perform hstep)
  | waiting ticket limit hstage hholds hlimit hsent =>
    exact .waiting ticket limit (hsame.trans hstage) (hholds.snoc hcancel)
      (hlimit.trans (congrArg Config.requestTimeout hconfig.symm)) ((hadmissions message).mpr hsent)
  | answered raw hgone hresult hsent hanswered =>
    exact .answered raw (hsame.trans hgone) (hresults.trans hresult)
      ((hadmissions message).mpr hsent) (hanswered.snoc _)
  | ended fault hgone hresult hover =>
    exact .ended fault (hsame.trans hgone) (hresults.trans hresult) (hover.perform hstep)
  | late limit hgone hresult hlimit hsent =>
    exact .late limit (hsame.trans hgone) (hresults.trans hresult)
      ((congrArg Config.requestTimeout hconfig).trans hlimit) ((hadmissions message).mpr hsent)

/-- A step of the call itself. -/
theorem step {past : History} (h : Course history s number message) (htorn : Torn past s)
    (hretiring : Retiring s) (hopened : s.phase = .opened ∨ s.IsOver)
    (hheard : ∀ ticket o, history.Holds number ticket → s.registry.outcome? ticket = some o →
      (∃ raw, o = .ok raw ∧ history.Answered number raw) ∨ ∃ fault, o = .error fault ∧ s.IsOver)
    (hstep : s.perform (.step (.call number)) = some t) :
    Course (history ++ [(s, .step (.call number))]) t number message := by
  obtain ⟨stage, u, next, hstage', hcall, -, -, hself, -, hresult, -⟩ :=
    System.stage?_stepCall hstep
  have hlater : s.IsOver → t.IsOver := fun hover => hover.perform hstep
  have hregistry := System.registry_perform hstep
  rw [System.op?, hstage', Option.bind_some] at hregistry
  have hconfig := config_perform hstep
  cases h with
  | begun hstage hfree hnone =>
    obtain rfl := Option.some.inj (hstage'.symm.trans hstage)
    simp only [System.stepStage, Purpose.id?] at hcall
    split at hcall
    · cases hcall
      exact .registering hself (hregistry ▸ hfree) (History.silent_snoc hstage rfl hnone)
    · next hnot =>
      cases hcall
      exact .ended _ hself (hresult _ rfl) (hlater (hopened.resolve_left hnot))
  | registering hstage hfree hnone =>
    obtain rfl := Option.some.inj (hstage'.symm.trans hstage)
    simp only [System.stepStage] at hcall
    split at hcall
    · next ticket registry heq =>
      cases hcall
      have hregisters : Registers (s, .step (.call number)) number (messageId number) ticket :=
        ⟨rfl, _, _, registry, hstage, heq⟩
      exact .looking ticket hself (History.holds_of_registers hregisters)
        (History.silent_snoc hstage rfl hnone)
    · next fault heq =>
      cases hcall
      -- the identifier is free, so it is the end of the session that refuses it
      have hclosed : s.registry.closed = true := by
        by_contra hopen
        simp [Registry.register, hopen, hfree] at heq
      exact .ended fault hself (hresult _ rfl) (hlater (isOver_of_torn htorn hclosed))
  | looking ticket hstage hholds hnone =>
    obtain rfl := Option.some.inj (hstage'.symm.trans hstage)
    simp only [System.stepStage] at hcall
    split at hcall
    · cases hcall
      exact .queueing ticket hself (hholds.snoc_of_stage hstage rfl)
        (History.silent_snoc hstage rfl hnone)
    · next hnot =>
      cases hcall
      exact .leaving hself (hlater (hopened.resolve_left hnot))
  | queueing ticket hstage hholds hnone =>
    obtain rfl := Option.some.inj (hstage'.symm.trans hstage)
    rcases System.enqueue_cases hcall with ⟨hclosed, rfl⟩ | ⟨haccepts, rfl⟩
    · exact .leaving hself (hlater (hretiring.closed hclosed))
    · have hsent : s.admitted? (.step (.call number)) = some (number, message) := by
        rw [admitted?_of_stage hstage, System.accepting, if_pos haccepts]
        rfl
      refine .waiting ticket _ hself (hholds.snoc_of_stage hstage rfl) ?_
        (History.mem_admissions_snoc.mpr (.inr hsent))
      rw [hconfig]
      cases s.config.requestTimeout <;> rfl
  | leaving hstage hover =>
    obtain rfl := Option.some.inj (hstage'.symm.trans hstage)
    simp only [System.stepStage, Purpose.id?] at hcall
    cases hcall
    exact .ended _ hself (hresult _ rfl) (hlater hover)
  | waiting ticket limit hstage hholds hlimit hsent =>
    obtain rfl := Option.some.inj (hstage'.symm.trans hstage)
    rcases System.awaitReply_cases hcall with ⟨raw, houtcome, rfl⟩ | ⟨fault, houtcome, rfl⟩ |
      ⟨span, hspan, rfl⟩
    · rcases hheard ticket _ hholds houtcome with ⟨raw', heq, hanswered⟩ | ⟨fault, heq, -⟩
      · cases heq
        exact .answered raw hself (hresult _ rfl) (History.mem_admissions_snoc.mpr (.inl hsent))
          (hanswered.snoc _)
      · cases heq
    · rcases hheard ticket _ hholds houtcome with ⟨raw, heq, -⟩ | ⟨fault', heq, hover⟩
      · cases heq
      · exact .ended fault hself (hresult _ rfl) (hlater hover)
    · exact .late span hself (hresult _ rfl) (hconfig ▸ hlimit.symm.trans hspan)
        (History.mem_admissions_snoc.mpr (.inl hsent))
  | answered raw hgone =>
    rw [hgone] at hstage'
    cases hstage'
  | ended fault hgone =>
    rw [hgone] at hstage'
    cases hstage'
  | late limit hgone =>
    rw [hgone] at hstage'
    cases hstage'

theorem not_asks {stage : Stage} (h : Course history s number message)
    (hstage : s.calls.lookup number = some stage) : ¬ Asks s stage := by
  intro hasks
  cases h with
  | begun hstage' => cases hstage.symm.trans hstage'; exact hasks
  | registering hstage' => cases hstage.symm.trans hstage'; exact hasks
  | looking _ hstage' => cases hstage.symm.trans hstage'; exact hasks
  | queueing _ hstage' => cases hstage.symm.trans hstage'; exact hasks
  | leaving hstage' => cases hstage.symm.trans hstage'; exact hasks
  | waiting _ _ hstage' => cases hstage.symm.trans hstage'; exact hasks
  | answered _ hgone => cases hstage.symm.trans hgone
  | ended _ hgone => cases hstage.symm.trans hgone
  | late _ hgone => cases hstage.symm.trans hgone

section Runs

variable {config : Config} {own : CapabilitySet} {link : Link} {now : Duration}
  {before later : History}

/-- **Every move leads a call from one of its places to one of them.** -/
theorem perform (h : Course history s number message)
    (hrun : Run (.start config own link now) (before ++ history) s)
    (horderly : History.Orderly (before ++ history)) (hmade : History.MadeUp (before ++ history))
    (hbegun : number < s.begun) (hstep : s.perform move = some t) :
    Course (history ++ [(s, move)]) t number message := by
  have hid := Identified.run hrun hmade
  rcases System.lookup_perform hid.numbered hstep number with ⟨hmove, hsame⟩ |
    ⟨stage, u, next, rfl, hstage, -⟩ | ⟨_, _, _, rfl, _⟩
  · exact h.aside hid hmove hstep hsame
  · have hconnected : s.results.lookup 0 = some .connected := by
      rcases (Connection.run hrun horderly).of_lookup hstage with ⟨-, -, -, hasks⟩ |
        ⟨-, -, hconnected⟩
      · exact absurd hasks (h.not_asks hstage)
      · exact hconnected
    exact h.step (.run hrun) (.run hrun horderly) (opened_or_over hrun horderly hconnected)
      (fun ticket o hholds ho => hholds.outcome hrun ho) hstep
  · exact absurd hbegun (Nat.lt_irrefl _)

/-- **A call with an operation keeps to its course.** -/
theorem run {u : System} (h : u.Fresh number message)
    (hrun : Run (.start config own link now) before u) (hlater : Run u later s)
    (horderly : History.Orderly (before ++ later)) (hmade : History.MadeUp (before ++ later)) :
    Course later s number message ∧ number < s.begun := by
  induction hlater with
  | nil => exact ⟨.begun h.2.1 h.2.2 nofun, h.1⟩
  | snoc hlater hstep ih =>
    rw [← List.append_assoc] at horderly hmade
    obtain ⟨hcourse, hnumber⟩ := ih horderly.front hmade.front
    refine ⟨hcourse.perform (hrun.append hlater) horderly.front hmade.front hnumber hstep, ?_⟩
    rw [System.begun_perform hstep]
    exact Nat.lt_of_lt_of_le hnumber (Nat.le_add_right _ _)

end Runs

end Course

/-! ## 3. In front of the queue, in it, and behind it -/

/-- Whether a call has not come to the queue yet. -/
def Stage.isEarly : Stage → Bool
  | ifOpen _ _ | register _ _ _ | ifStillOpen _ _ _ => true
  | _ => false

/-- Whether a call waits for room in the queue. -/
def Stage.queues : Stage → Bool
  | enqueue _ _ _ => true
  | _ => false

namespace System

def isEarly (s : System) (number : Nat) : Bool := (s.calls.lookup number).any Stage.isEarly

def queues (s : System) (number : Nat) : Bool := (s.calls.lookup number).any Stage.queues

theorem exists_perform_of_stepStage {s : System} {number : Nat} {stage : Stage}
    (hstage : s.calls.lookup number = some stage) (hstep : s.stepStage stage ≠ none) :
    ∃ t, s.perform (.step (.call number)) = some t := by
  obtain ⟨⟨u, next⟩, hnext⟩ := Option.ne_none_iff_exists'.mp hstep
  simp only [perform, step, stepCall, hstage, hnext]
  cases next <;> exact ⟨_, rfl⟩

end System

namespace Course

variable {history : History} {s : System} {number : Nat} {message : String}

theorem of_queues (h : Course history s number message) (hqueues : s.queues number = true) :
    ∃ ticket, s.calls.lookup number =
        some (.enqueue (some ticket) (.operation (messageId number)) message) ∧
      ∀ m, (number, m) ∉ history.admissions := by
  rw [System.queues] at hqueues
  cases h with
  | queueing ticket hstage _ hnone => exact ⟨ticket, hstage, hnone⟩
  | begun hstage => rw [hstage] at hqueues; cases hqueues
  | registering hstage => rw [hstage] at hqueues; cases hqueues
  | looking _ hstage => rw [hstage] at hqueues; cases hqueues
  | leaving hstage => rw [hstage] at hqueues; cases hqueues
  | waiting _ _ hstage => rw [hstage] at hqueues; cases hqueues
  | answered _ hgone => rw [hgone] at hqueues; cases hqueues
  | ended _ hgone => rw [hgone] at hqueues; cases hqueues
  | late _ hgone => rw [hgone] at hqueues; cases hqueues

/-- While the session is open, a call that has left the queue behind it has sent its message. -/
theorem sent (h : Course history s number message) (hearly : s.isEarly number = false)
    (hqueues : s.queues number = false) (hopen : s.phase = .opened) :
    (number, message) ∈ history.admissions := by
  rw [System.isEarly] at hearly
  rw [System.queues] at hqueues
  cases h with
  | begun hstage => rw [hstage] at hearly; cases hearly
  | registering hstage => rw [hstage] at hearly; cases hearly
  | looking _ hstage => rw [hstage] at hearly; cases hearly
  | queueing _ hstage => rw [hstage] at hqueues; cases hqueues
  | leaving _ hover => exact absurd hopen hover.not_opened
  | waiting _ _ _ _ _ hsent => exact hsent
  | answered _ _ _ hsent => exact hsent
  | ended _ _ _ hover => exact absurd hopen hover.not_opened
  | late _ _ _ _ hsent => exact hsent

/-- **A call that is not over can go on, or waits for room in the queue or for its reply.** -/
theorem progress {config : Config} {own : CapabilitySet} {link : Link} {now : Duration}
    {before : History} (h : Course history s number message)
    (hrun : Run (.start config own link now) (before ++ history) s)
    (hnone : s.results.lookup number = none) :
    (∃ t, s.perform (.step (.call number)) = some t) ∨
    (s.queues number = true ∧ s.queue.closed = false ∧
      s.config.queueDepth ≤ s.queue.items.length) ∨
    ∃ ticket limit, s.calls.lookup number = some (.awaitReply ticket limit) ∧
      s.registry.ticket? (messageId number) = some ticket := by
  cases h with
  | begun hstage =>
    refine .inl (System.exists_perform_of_stepStage hstage ?_)
    simp only [System.stepStage, Purpose.id?]
    split <;> exact Option.some_ne_none _
  | registering hstage =>
    refine .inl (System.exists_perform_of_stepStage hstage ?_)
    simp only [System.stepStage]
    split <;> exact Option.some_ne_none _
  | looking _ hstage =>
    refine .inl (System.exists_perform_of_stepStage hstage ?_)
    simp only [System.stepStage]
    split <;> exact Option.some_ne_none _
  | queueing _ hstage =>
    by_cases hroom : s.queue.closed = true ∨ s.queue.items.length < s.config.queueDepth
    · refine .inl (System.exists_perform_of_stepStage hstage ?_)
      simp only [System.stepStage]
      split
      · exact Option.some_ne_none _
      · next hopen =>
        rw [if_pos (hroom.resolve_left hopen)]
        exact Option.some_ne_none _
    · rw [not_or] at hroom
      refine .inr (.inl ⟨?_, by simpa using hroom.1, Nat.le_of_not_lt hroom.2⟩)
      rw [System.queues, hstage]
      rfl
  | leaving hstage =>
    refine .inl (System.exists_perform_of_stepStage hstage ?_)
    simp only [System.stepStage, Purpose.id?]
    exact Option.some_ne_none _
  | waiting ticket limit hstage hholds =>
    cases houtcome : s.registry.outcome? ticket with
    | some o =>
      refine .inl (System.exists_perform_of_stepStage hstage ?_)
      simp only [System.stepStage, houtcome]
      cases o <;> exact Option.some_ne_none _
    | none =>
      -- nothing has settled the request, so it is still registered
      obtain ⟨front, e, behind, rfl, hregisters, -⟩ := hholds
      rw [← List.append_assoc] at hrun
      obtain ⟨r, hwell, hticket, hr⟩ := registry_of_registers hrun hregisters
      rw [hr, Registry.outcome?_replay hwell hticket] at houtcome
      refine .inr (.inr ⟨ticket, limit, hstage, ?_⟩)
      rw [hr]
      exact Registry.ticket?_replay hwell hticket _ houtcome
  | answered _ _ hresult => cases hresult.symm.trans hnone
  | ended _ _ hresult => cases hresult.symm.trans hnone
  | late _ _ hresult => cases hresult.symm.trans hnone

end Course

end NetconfClient.Session
