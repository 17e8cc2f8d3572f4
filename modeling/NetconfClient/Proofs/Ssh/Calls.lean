/-
  NetconfClient/Proofs/Ssh/Calls.lean
  ===================================
  **What becomes of a list of calls.**

  Calls that all have to succeed are made up to the first failure (`Through`);
  of calls of which one has to succeed, all are made up to the first success
  (`Trial`).  Of the calls that fail, only a rejected offer is followed by another
  call; this is said of one stretch of a history (`Stops`), and stretches can be
  put together (`Stops.append`).
-/
import NetconfClient.Ssh.Connect

namespace NetconfClient.Ssh

/-! ## 1. What a call is for -/

/-- What a call is for. -/
inductive Role where
  | preparation
  | password
  | key
  | agent
  | question
  | opening
  | transfer
  deriving DecidableEq

namespace Role

/-- The roles of a login. -/
def isLogin : Role → Bool
  | password | key | agent => true
  | _ => false

/-- The roles of what comes behind a login. -/
def isLate : Role → Bool
  | question | opening => true
  | _ => false

variable {role : Role}

theorem isLogin_of_isLate (h : role.isLate = true) : role.isLogin = false := by
  revert h
  cases role <;> decide

theorem ne_of_isLogin (h : role.isLogin = false) :
    role ≠ .password ∧ role ≠ .key ∧ role ≠ .agent := by
  revert h
  cases role <;> decide

end Role

namespace Call

def role : Call → Role
  | create _ | prefer _ _ | handshake => .preparation
  | passwordLogin _ _ => .password
  | keyLogin _ _ => .key
  | agent | agentConnect | agentList | agentIdentities | agentLogin _ _ => .agent
  | authenticated => .question
  | openChannel | subsystem _ => .opening
  | sendEnd | closeChannel | disconnect | read | write _ | flush => .transfer

def isPreference : Call → Bool
  | prefer _ _ => true
  | _ => false

def isKey (call : Call) : Bool := call.role == .key

/-- Whether a key of the agent is tried. -/
def isIdentity : Call → Bool
  | agentLogin _ _ => true
  | _ => false

/-- Whether a call offers something that may be rejected. -/
def isOffer (call : Call) : Bool := call.isKey || call.isIdentity

variable {call : Call}

theorem role_of_isPreference (h : call.isPreference = true) : call.role = .preparation := by
  cases call with
  | prefer _ _ => rfl
  | _ => cases h

theorem role_of_isIdentity (h : call.isIdentity = true) : call.role = .agent := by
  cases call with
  | agentLogin _ _ => rfl
  | _ => cases h

theorem isPreference_of_role (h : call.role ≠ .preparation) : call.isPreference = false := by
  rw [Bool.eq_false_iff]
  intro hpreference
  exact h (role_of_isPreference hpreference)

theorem isKey_of_role (h : call.role ≠ .key) : call.isKey = false := beq_false_of_ne h

theorem isIdentity_of_role (h : call.role ≠ .agent) : call.isIdentity = false := by
  rw [Bool.eq_false_iff]
  intro hidentity
  exact h (role_of_isIdentity hidentity)

theorem isOffer_of_role (h : call.role.isLogin = false) : call.isOffer = false := by
  obtain ⟨-, hkey, hagent⟩ := Role.ne_of_isLogin h
  rw [isOffer, isKey_of_role hkey, isIdentity_of_role hagent, Bool.or_false]

end Call

variable {library : Library} {start made more calls before behind : List Call} {call : Call}
  {result : Except Fault Unit} {text : String}

/-! ## 2. A call in a history of two parts -/

theorem mem_of_split (h : made = before ++ call :: behind) : call ∈ made := by
  rw [h]
  exact List.mem_append_cons_self

/-- A call that the first part does not have is in the second. -/
theorem exists_before_append {first second : List Call}
    (h : first ++ second = before ++ call :: behind) (hnot : call ∉ first) :
    ∃ front, before = first ++ front ∧ second = front ++ call :: behind := by
  rcases List.append_eq_append_iff.mp h with ⟨front, hbefore, hsecond⟩ | ⟨back, hfirst, hback⟩
  · exact ⟨front, hbefore, hsecond⟩
  · cases back with
    | nil =>
      rw [List.append_nil] at hfirst
      exact ⟨[], by rw [hfirst, List.append_nil], hback.symm⟩
    | cons c back =>
      rw [List.cons_append, List.cons.injEq] at hback
      rw [← hback.1] at hfirst
      exact absurd (mem_of_split hfirst) hnot

/-- A call that the second part does not have is in the first. -/
theorem exists_append_behind {first second : List Call}
    (h : first ++ second = before ++ call :: behind) (hnot : call ∉ second) :
    ∃ back, behind = back ++ second ∧ first = before ++ call :: back := by
  rcases List.append_eq_append_iff.mp h with ⟨front, -, hsecond⟩ | ⟨back, hfirst, hback⟩
  · exact absurd (mem_of_split hsecond) hnot
  · cases back with
    | nil =>
      rw [List.nil_append] at hback
      rw [← hback] at hnot
      exact absurd List.mem_cons_self hnot
    | cons c back =>
      rw [List.cons_append, List.cons.injEq] at hback
      exact ⟨back, hback.2, by rw [hfirst, hback.1]⟩

/-! ## 3. Calls that all have to succeed -/

/-- What is made of calls that all have to succeed, and what comes of it. -/
inductive Through (library : Library) :
    List Call → List Call → List Call → Except Fault Unit → Prop where
  | done {start : List Call} : Through library start [] [] (.ok ())
  | next {start calls made : List Call} {call : Call} {result : Except Fault Unit} :
      library.answer start call = .ok () → Through library (start ++ [call]) calls made result →
        Through library start (call :: calls) (call :: made) result
  | failed {start calls : List Call} {call : Call} {text : String} :
      library.answer start call = .error text →
        Through library start (call :: calls) [call] (.error (.ssh text))

namespace Through

theorem isPrefix (h : Through library start calls made result) : made <+: calls := by
  induction h with
  | done => exact List.prefix_rfl
  | next _ _ ih => exact (List.prefix_cons_inj _).mpr ih
  | failed => exact (List.prefix_cons_inj _).mpr (List.nil_prefix)

end Through

/-! ## 4. Calls of which one has to succeed -/

/-- What is made of calls that are offered in their order, up to the first that is accepted. -/
inductive Trial (library : Library) : List Call → List Call → List Call → Prop where
  | none {start : List Call} : Trial library start [] []
  | accepted {start others : List Call} {call : Call} :
      library.answer start call = .ok () → Trial library start (call :: others) [call]
  | rejected {start others tried : List Call} {call : Call} {text : String} :
      library.answer start call = .error text → Trial library (start ++ [call]) others tried →
        Trial library start (call :: others) (call :: tried)

theorem Trial.isPrefix (h : Trial library start calls made) : made <+: calls := by
  induction h with
  | none => exact List.prefix_rfl
  | accepted => exact (List.prefix_cons_inj _).mpr List.nil_prefix
  | rejected _ _ ih => exact (List.prefix_cons_inj _).mpr ih

/-- In a stretch of a history, all the calls of one kind are a trial of those candidates. -/
def InTurn (library : Library) (kind : Call → Bool) (candidates start made : List Call) : Prop :=
  ∃ front tried back, made = front ++ (tried ++ back) ∧
    Trial library (start ++ front) candidates tried ∧
      ∀ call ∈ front ++ back, kind call = false

namespace InTurn

variable {kind : Call → Bool} {candidates : List Call}

theorem append (h : InTurn library kind candidates start made)
    (hmore : ∀ call ∈ more, kind call = false) :
    InTurn library kind candidates start (made ++ more) := by
  obtain ⟨front, tried, back, hmade, htrial, hothers⟩ := h
  refine ⟨front, tried, back ++ more, ?_, htrial, ?_⟩
  · rw [hmade]
    simp only [List.append_assoc]
  · intro call hcall
    rw [← List.append_assoc] at hcall
    rcases List.mem_append.mp hcall with hcall | hcall
    · exact hothers call hcall
    · exact hmore call hcall

theorem prepend {front : List Call} (h : InTurn library kind candidates (start ++ front) made)
    (hfront : ∀ call ∈ front, kind call = false) :
    InTurn library kind candidates start (front ++ made) := by
  obtain ⟨before, tried, back, hmade, htrial, hothers⟩ := h
  refine ⟨front ++ before, tried, back, ?_, ?_, ?_⟩
  · rw [hmade, List.append_assoc]
  · rwa [← List.append_assoc]
  · intro call hcall
    rw [List.append_assoc] at hcall
    rcases List.mem_append.mp hcall with hcall | hcall
    · exact hfront call hcall
    · exact hothers call hcall

end InTurn

theorem Trial.inTurn {candidates : List Call} (h : Trial library start candidates made)
    (kind : Call → Bool) : InTurn library kind candidates start made := by
  refine ⟨[], made, [], ?_, ?_, ?_⟩
  · rw [List.append_nil, List.nil_append]
  · rwa [List.append_nil]
  · intro call hcall
    cases hcall

/-! ## 5. Failures -/

/-- A call that fails is a rejected offer, or it is the last one and its error is the result. -/
def Stops (library : Library) (start made : List Call) (result : Except Fault Unit) : Prop :=
  ∀ before call behind text, made = before ++ call :: behind → call ≠ .authenticated →
    library.answer (start ++ before) call = .error text →
      call.isOffer = true ∨ (behind = [] ∧ result = .error (.ssh text))

theorem Stops.append (h : Stops library start made (.ok ()))
    (hmore : Stops library (start ++ made) more result) :
    Stops library start (made ++ more) result := by
  intro before call behind text hsplit hcall hanswer
  rcases List.append_eq_append_iff.mp hsplit with ⟨front, rfl, hsecond⟩ | ⟨back, hfirst, hback⟩
  · rw [← List.append_assoc] at hanswer
    exact hmore front call behind text hsecond hcall hanswer
  · cases back with
    | nil =>
      rw [List.append_nil] at hfirst
      rw [← hfirst, ← List.append_nil (start ++ made)] at hanswer
      exact hmore [] call behind text hback.symm hcall hanswer
    | cons c back =>
      rw [List.cons_append, List.cons.injEq] at hback
      rw [← hback.1] at hfirst
      rcases h before call back text hfirst hcall hanswer with hoffer | ⟨-, hresult⟩
      · exact .inl hoffer
      · cases hresult

theorem stops_nil : Stops library start [] result := by
  intro before call behind text hsplit
  simp at hsplit

theorem Through.stops (h : Through library start calls made result) :
    Stops library start made result := by
  induction h with
  | done => exact stops_nil
  | @next start calls made call result hanswer hthrough ih =>
    have hone : Stops library start [call] (.ok ()) := by
      intro before d behind text hsplit hd herror
      rcases before with _ | ⟨c, before⟩
      · cases hsplit
        rw [List.append_nil, hanswer] at herror
        cases herror
      · simp at hsplit
    exact hone.append ih
  | @failed start calls call text hanswer =>
    intro before d behind other hsplit hd herror
    rcases before with _ | ⟨c, before⟩
    · cases hsplit
      rw [List.append_nil, hanswer] at herror
      cases herror
      exact .inr ⟨rfl, rfl⟩
    · simp at hsplit

theorem stops_of_offers (h : ∀ call ∈ made, call.isOffer = true) :
    Stops library start made result := by
  intro before call behind text hsplit _ _
  exact .inl (h call (mem_of_split hsplit))

end NetconfClient.Ssh
