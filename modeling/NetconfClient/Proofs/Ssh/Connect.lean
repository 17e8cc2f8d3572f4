/-
  NetconfClient/Proofs/Ssh/Connect.lean
  =====================================
  **No channel without a login.**

  An attempt to connect puts a login behind the preparation: a preference for each
  method that is configured, then the handshake (`Attempt`).  It succeeds only if the
  session counts as logged in then, and the channel is opened only if it does so once
  more.
-/
import Mathlib.Data.List.Basic
import NetconfClient.Proofs.Ssh.Login
import NetconfClient.Ssh.Script

namespace NetconfClient.Ssh

variable {library : Library} {host : Host} {made more before behind : List Call}
  {result : Except Fault Unit}

/-! ## 1. Preferences -/

/-- The algorithms that a configuration names for a method: the same in both directions. -/
def configured (p : Parameters) : Method → Option (List String)
  | .keyExchange => p.kexAlgorithms
  | .hostKey => p.hostKeyAlgorithms
  | .cipherOut | .cipherIn => p.ciphers
  | .macOut | .macIn => p.macs

/-- The methods, in the order in which preferences are stated. -/
def methods : List Method := [.keyExchange, .hostKey, .cipherOut, .cipherIn, .macOut, .macIn]

/-- How an attempt to connect goes. -/
structure Attempt (library : Library) (host : Host) (made : List Call)
    (result : Except Fault Unit) : Prop extends Login library host [] made result where
  /-- In front of the handshake stands a preference for each method that is configured, with the
      algorithms of the configuration, and for no other. -/
  preferred : ∀ before behind, made = before ++ .handshake :: behind → ∀ method algorithms,
    .prefer method algorithms ∈ before ↔ configured host.parameters method = some algorithms
  /-- Each of them is stated once, in the order of the methods, and none behind the handshake. -/
  inOrder : ∀ before behind, made = before ++ .handshake :: behind →
    before.filter Call.isPreference =
        methods.filterMap (fun method =>
          (configured host.parameters method).map (Call.prefer method)) ∧
      ∀ call ∈ behind, call.isPreference = false
  /-- The handshake comes before every login. -/
  shaken : ∀ before call behind, made = before ++ call :: behind →
    call.role.isLogin = true → .handshake ∈ before
  /-- An attempt never ends with an offer, as if that had been its last chance. -/
  offered : ∀ before call, made = before ++ [call] → call.isOffer = false

/-- What comes behind a login changes nothing about the attempt. -/
theorem Attempt.append (h : Attempt library host made (.ok ()))
    (hlate : ∀ call ∈ more, call.role.isLate = true) (hmore : more ≠ [])
    (hstops : Stops library made more result) : Attempt library host (made ++ more) result := by
  have hplain : ∀ call ∈ more, call.role.isLogin = false := by
    intro call hcall
    exact Role.isLogin_of_isLate (hlate call hcall)
  have hshake : Call.handshake ∉ more := by
    intro hmem
    cases hlate _ hmem
  constructor
  case toLogin => exact h.toLogin.append hplain hstops
  case preferred =>
    intro before behind heq
    obtain ⟨back, -, hmade⟩ := exists_append_behind heq hshake
    exact h.preferred before back hmade
  case inOrder =>
    intro before behind heq
    obtain ⟨back, rfl, hmade⟩ := exists_append_behind heq hshake
    obtain ⟨hbefore, hback⟩ := h.inOrder before back hmade
    refine ⟨hbefore, ?_⟩
    intro call hcall
    rcases List.mem_append.mp hcall with hcall | hcall
    · exact hback call hcall
    · apply Call.isPreference_of_role
      intro hrole
      have hcall := hlate call hcall
      rw [hrole] at hcall
      cases hcall
  case shaken =>
    intro before call behind heq hauth
    have hnot : call ∉ more := by
      intro hmem
      rw [hplain call hmem] at hauth
      cases hauth
    obtain ⟨back, rfl, hmade⟩ := exists_append_behind heq hnot
    exact h.shaken before call back hmade hauth
  case offered =>
    intro before call heq
    obtain ⟨front, last, rfl⟩ := more.eq_nil_or_concat.resolve_left hmore
    rw [List.concat_eq_append] at hplain heq
    rw [← List.append_assoc] at heq
    obtain ⟨-, hcall⟩ := List.append_inj' heq rfl
    cases hcall
    exact Call.isOffer_of_role (hplain call (List.mem_append_right front List.mem_cons_self))

/-- Every key file is rejected, and so is the first key of the agent. -/
def sampleScript : Script where
  failures := [("userauth_pubkey_file", "no"), ("agent_userauth old", "no")]
  blocked := []
  authenticated := false
  incomplete := false
  identities := ["old", "new", "spare"]

/-- Ciphers are configured, and two key files. -/
def sampleHost : Host :=
  ⟨"r1", "r1", Host.standardPort, "u", .publicKey ["a", "b"],
    { Parameters.empty with ciphers := some ["aes256-ctr", "aes128-ctr"] }⟩

example : (connectChannel sampleScript.library (.ok ()) sampleHost .empty).2.history =
    [.create [.timeout callTimeout], .prefer .cipherOut ["aes256-ctr", "aes128-ctr"],
      .prefer .cipherIn ["aes256-ctr", "aes128-ctr"], .handshake, .keyLogin "u" "a",
      .keyLogin "u" "b", .authenticated, .agent, .agentConnect, .agentList, .agentIdentities,
      .agentLogin "u" "old", .agentLogin "u" "new", .authenticated, .authenticated, .openChannel,
      .subsystem "netconf"] := by
  decide

end NetconfClient.Ssh
