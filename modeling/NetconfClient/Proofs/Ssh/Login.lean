/-
  NetconfClient/Proofs/Ssh/Login.lean
  ===================================
  **The order of a login.**

  Whatever a library answers and whatever came before, a login keeps to one order
  (`Login`): with a password nothing else is tried; without one the key files come
  first, in their order, and the agent only if that was not enough.
-/
import NetconfClient.Proofs.Ssh.Calls

namespace NetconfClient.Ssh

variable {library : Library} {host : Host} {start made more calls before behind : List Call}
  {call : Call} {result : Except Fault Unit}

/-! ## 1. The order of a login -/

/-- How a login goes that comes behind a history. -/
structure Login (library : Library) (host : Host) (start made : List Call)
    (result : Except Fault Unit) : Prop where
  /-- With a password nothing else is tried. -/
  passwordAlone : ∀ text, host.credentials = .password text → ∀ call ∈ made,
    call.role.isLogin = true → call = .passwordLogin host.user text
  /-- Without one no password is ever sent. -/
  noPassword : ∀ files, host.credentials = .publicKey files → ∀ call ∈ made,
    call.role ≠ .password
  /-- The key files are tried in their order up to the first that is accepted, unless the
      attempt fails before any login. -/
  keysInTurn : ∀ files, host.credentials = .publicKey files →
    InTurn library Call.isKey (files.map (Call.keyLogin host.user)) start made ∨
      (∀ call ∈ made, call.role = .preparation) ∧ ∃ fault, result = .error fault
  /-- The agent is needed only behind the key files, and only if the session does not count as
      logged in then. -/
  agentLast : ∀ before call behind, made = before ++ call :: behind → call.role = .agent →
    ∃ front back, before = front ++ .authenticated :: back ∧
      library.authenticated (start ++ front) = false ∧
        ∀ other ∈ back ++ behind, other.isKey = false
  /-- A key of the agent is tried only if the agent has been asked for its keys. -/
  identitiesAsked : ∀ before call behind, made = before ++ call :: behind →
    call.isIdentity = true → .agentIdentities ∈ before
  /-- The keys of the agent are tried in the order it tells up to the first that is accepted. -/
  identitiesInTurn : ∀ before behind, made = before ++ .agentIdentities :: behind →
    library.answer (start ++ before) .agentIdentities = .ok () →
      InTurn library Call.isIdentity
        ((library.identities (start ++ (before ++ [.agentIdentities]))).map
          (Call.agentLogin host.user)) (start ++ (before ++ [.agentIdentities])) behind
  /-- A rejected offer fails nothing; any other failure is the end. -/
  stops : Stops library start made result

namespace Login

/-- What comes behind a login changes nothing about it. -/
theorem append (h : Login library host start made (.ok ()))
    (hplain : ∀ call ∈ more, call.role.isLogin = false)
    (hstops : Stops library (start ++ made) more result) :
    Login library host start (made ++ more) result := by
  have hsplit : ∀ before call behind, made ++ more = before ++ call :: behind →
      call.role.isLogin = true →
        ∃ back, behind = back ++ more ∧ made = before ++ call :: back := by
    intro before call behind heq hcall
    apply exists_append_behind heq
    intro hmem
    rw [hplain call hmem] at hcall
    cases hcall
  constructor
  case passwordAlone =>
    intro text htext call hcall hauth
    rcases List.mem_append.mp hcall with hcall | hcall
    · exact h.passwordAlone text htext call hcall hauth
    · rw [hplain call hcall] at hauth
      cases hauth
  case noPassword =>
    intro files hfiles call hcall
    rcases List.mem_append.mp hcall with hcall | hcall
    · exact h.noPassword files hfiles call hcall
    · exact (Role.ne_of_isLogin (hplain call hcall)).1
  case keysInTurn =>
    intro files hfiles
    rcases h.keysInTurn files hfiles with hturn | ⟨-, fault, hfault⟩
    · left
      apply hturn.append
      intro call hcall
      exact Call.isKey_of_role (Role.ne_of_isLogin (hplain call hcall)).2.1
    · cases hfault
  case agentLast =>
    intro before call behind heq hagent
    obtain ⟨back, rfl, hmade⟩ := hsplit before call behind heq (by rw [hagent]; rfl)
    obtain ⟨front, middle, hbefore, hfalse, hkeys⟩ := h.agentLast before call back hmade hagent
    refine ⟨front, middle, hbefore, hfalse, ?_⟩
    intro other hother
    rw [← List.append_assoc] at hother
    rcases List.mem_append.mp hother with hother | hother
    · exact hkeys other hother
    · exact Call.isKey_of_role (Role.ne_of_isLogin (hplain other hother)).2.1
  case identitiesAsked =>
    intro before call behind heq hidentity
    obtain ⟨back, rfl, hmade⟩ :=
      hsplit before call behind heq (by rw [Call.role_of_isIdentity hidentity]; rfl)
    exact h.identitiesAsked before call back hmade hidentity
  case identitiesInTurn =>
    intro before behind heq hanswer
    obtain ⟨back, rfl, hmade⟩ := hsplit before .agentIdentities behind heq rfl
    apply (h.identitiesInTurn before back hmade hanswer).append
    intro call hcall
    exact Call.isIdentity_of_role (Role.ne_of_isLogin (hplain call hcall)).2.2
  case stops => exact h.stops.append hstops

/-- Nor does what comes in front of it. -/
theorem prepend {front : List Call} (h : Login library host (start ++ front) made result)
    (hearly : ∀ call ∈ front, call.role = .preparation)
    (hstops : Stops library start (front ++ made) result) :
    Login library host start (front ++ made) result := by
  have hplain : ∀ call ∈ front, call.role.isLogin = false := by
    intro call hcall
    rw [hearly call hcall]
    rfl
  have hsplit : ∀ before call behind, front ++ made = before ++ call :: behind →
      call.role.isLogin = true →
        ∃ middle, before = front ++ middle ∧ made = middle ++ call :: behind := by
    intro before call behind heq hcall
    apply exists_before_append heq
    intro hmem
    rw [hplain call hmem] at hcall
    cases hcall
  constructor
  case passwordAlone =>
    intro text htext call hcall hauth
    rcases List.mem_append.mp hcall with hcall | hcall
    · rw [hplain call hcall] at hauth
      cases hauth
    · exact h.passwordAlone text htext call hcall hauth
  case noPassword =>
    intro files hfiles call hcall
    rcases List.mem_append.mp hcall with hcall | hcall
    · exact (Role.ne_of_isLogin (hplain call hcall)).1
    · exact h.noPassword files hfiles call hcall
  case keysInTurn =>
    intro files hfiles
    rcases h.keysInTurn files hfiles with hturn | ⟨hnone, hfault⟩
    · left
      apply hturn.prepend
      intro call hcall
      exact Call.isKey_of_role (Role.ne_of_isLogin (hplain call hcall)).2.1
    · right
      refine ⟨?_, hfault⟩
      intro call hcall
      rcases List.mem_append.mp hcall with hcall | hcall
      · exact hearly call hcall
      · exact hnone call hcall
  case agentLast =>
    intro before call behind heq hagent
    obtain ⟨middle, rfl, hmade⟩ := hsplit before call behind heq (by rw [hagent]; rfl)
    obtain ⟨first, back, rfl, hfalse, hkeys⟩ := h.agentLast middle call behind hmade hagent
    refine ⟨front ++ first, back, (List.append_assoc ..).symm, ?_, hkeys⟩
    rwa [← List.append_assoc]
  case identitiesAsked =>
    intro before call behind heq hidentity
    obtain ⟨middle, rfl, hmade⟩ :=
      hsplit before call behind heq (by rw [Call.role_of_isIdentity hidentity]; rfl)
    exact List.mem_append_right front (h.identitiesAsked middle call behind hmade hidentity)
  case identitiesInTurn =>
    intro before behind heq hanswer
    obtain ⟨middle, rfl, hmade⟩ := hsplit before .agentIdentities behind heq rfl
    rw [← List.append_assoc] at hanswer
    have hturn := h.identitiesInTurn middle behind hmade hanswer
    rw [List.append_assoc] at hturn
    rwa [List.append_assoc front]
  case stops => exact hstops

end Login
/-! ## 2. The agent -/

/-- What comes of asking an agent and of trying its keys, if that is needed. -/
inductive AgentLogin (library : Library) (host : Host) (start : List Call) :
    List Call → Except Fault Unit → Prop where
  | spared : AgentLogin library host start [] (.ok ())
  | refused {made : List Call} {fault : Fault} :
      Through library start agentCalls made (.error fault) →
        AgentLogin library host start made (.error fault)
  | offered {tried : List Call} :
      Through library start agentCalls agentCalls (.ok ()) →
        Trial library (start ++ agentCalls)
          ((library.identities (start ++ agentCalls)).map (Call.agentLogin host.user)) tried →
          AgentLogin library host start (agentCalls ++ tried) (.ok ())

/-- The keys are the last thing that an agent is asked for. -/
theorem agentCalls_eq (h : agentCalls = before ++ .agentIdentities :: behind) :
    before ++ [.agentIdentities] = agentCalls ∧ behind = [] := by
  have hfront : agentCalls = [.agent, .agentConnect, .agentList] ++ [.agentIdentities] := rfl
  rw [hfront] at h
  obtain ⟨front, hbefore, hlast⟩ := exists_before_append h (by decide)
  rcases front with _ | ⟨c, front⟩
  · cases hlast
    rw [hbefore]
    exact ⟨rfl, rfl⟩
  · simp at hlast

theorem Through.exists_failed {fault : Fault} (h : Through library start calls made (.error fault)) :
    ∃ front call text, made = front ++ [call] ∧ library.answer (start ++ front) call = .error text := by
  generalize hresult : (.error fault : Except Fault Unit) = result at h
  induction h with
  | done => cases hresult
  | next _ _ ih =>
    obtain ⟨front, call, text, rfl, hanswer⟩ := ih hresult
    rw [List.append_assoc] at hanswer
    exact ⟨_ :: front, call, text, rfl, hanswer⟩
  | @failed start _ call text hanswer =>
    refine ⟨[], call, text, rfl, ?_⟩
    rwa [List.append_nil]

theorem isIdentity_of_mem_tried {tried : List Call} {user : String} {comments : List String}
    (h : Trial library start (comments.map (Call.agentLogin user)) tried) :
    ∀ call ∈ tried, call.isIdentity = true := by
  intro call hcall
  obtain ⟨comment, -, rfl⟩ := List.mem_map.mp (h.isPrefix.subset hcall)
  rfl

namespace AgentLogin

theorem identitiesAsked (h : AgentLogin library host start made result)
    (hmade : made = before ++ call :: behind) (hidentity : call.isIdentity = true) :
    .agentIdentities ∈ before := by
  have hnot : call ∉ agentCalls := by
    have hasked : ∀ other ∈ agentCalls, other.isIdentity = false := by decide
    intro hmem
    rw [hasked call hmem] at hidentity
    cases hidentity
  cases h with
  | spared => simp at hmade
  | refused hthrough =>
    exact absurd (hthrough.isPrefix.subset (mem_of_split hmade)) hnot
  | offered _ _ =>
    obtain ⟨front, rfl, -⟩ := exists_before_append hmade hnot
    exact List.mem_append_left front (by decide)

theorem identitiesInTurn (h : AgentLogin library host start made result)
    (hmade : made = before ++ .agentIdentities :: behind)
    (hanswer : library.answer (start ++ before) .agentIdentities = .ok ()) :
    InTurn library Call.isIdentity
      ((library.identities (start ++ (before ++ [.agentIdentities]))).map
        (Call.agentLogin host.user)) (start ++ (before ++ [.agentIdentities])) behind := by
  cases h with
  | spared => simp at hmade
  | refused hthrough =>
    obtain ⟨rest, hrest⟩ := hthrough.isPrefix
    obtain ⟨front, last, text, hlast, herror⟩ := hthrough.exists_failed
    rw [hmade, List.append_assoc] at hrest
    obtain ⟨-, hbehind⟩ := agentCalls_eq hrest.symm
    obtain ⟨rfl, -⟩ := List.append_eq_nil_iff.mp hbehind
    obtain ⟨rfl, hcall⟩ := List.append_inj' (hmade.symm.trans hlast) rfl
    cases hcall
    rw [hanswer] at herror
    cases herror
  | @offered tried _ htrial =>
    have hnot : Call.agentIdentities ∉ tried := by
      intro hmem
      cases isIdentity_of_mem_tried htrial _ hmem
    obtain ⟨back, rfl, hasked⟩ := exists_append_behind hmade hnot
    obtain ⟨hbefore, rfl⟩ := agentCalls_eq hasked
    rw [hbefore]
    exact htrial.inTurn Call.isIdentity

theorem stops (h : AgentLogin library host start made result) : Stops library start made result := by
  cases h with
  | spared => exact stops_nil
  | refused hthrough => exact hthrough.stops
  | offered hthrough htrial =>
    apply hthrough.stops.append
    apply stops_of_offers
    intro call hcall
    rw [Call.isOffer, isIdentity_of_mem_tried htrial call hcall, Bool.or_true]

/-- If nothing comes of the agent, then not because it holds a key that is rejected. -/
theorem ended {fault : Fault} (h : AgentLogin library host start made (.error fault)) :
    ∀ front call, made = front ++ [call] → call.isOffer = false := by
  intro front call hmade
  have hasked : ∀ other ∈ agentCalls, other.isOffer = false := by decide
  cases h with
  | refused hthrough =>
    exact hasked call (hthrough.isPrefix.subset (mem_of_split hmade))

end AgentLogin

/-! ## 3. Logging in -/

end NetconfClient.Ssh
