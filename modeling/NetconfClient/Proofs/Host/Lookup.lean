/-
  NetconfClient/Proofs/Host/Lookup.lean
  =====================================
  **Under which name the ssh configuration is asked.**

  It is asked about the address as it was given, brackets and port included, and
  not about the name in it.  All the rest of a device is the same whatever way the
  port is given (`resolve_alike`): the name, the user, the credentials, the
  settings.  So an address with a port stands for the same device as the one
  without, but for the port, exactly if the configuration says the same about the
  two texts.

    * `configured_alike_iff`: that condition, for any source of settings;
    * `query_passingNames`: a configuration file does not meet it in general.
      Blocks that list plain host names say nothing about an address with a port
      or with brackets;
    * `asked_as_given`: the three together.

  `not_found_under_name` is the smallest case: `Host router` is lost for
  `router:22`.
-/
import NetconfClient.Host.Basic
import NetconfClient.Host.Configuration
import NetconfClient.Proofs.Host.Address

namespace NetconfClient

open Text

/-! ## 1. The same device but for the port -/

namespace Host

/-- Both are refused, or they are one device.  The first has the port that is
    given, else a configured one, else the standard one. -/
inductive SameButPort (given : Option Nat) : Except Fault Host → Except Fault Host → Prop
  | refused (fault fault' : Fault) : SameButPort given (.error fault) (.error fault')
  | device {host bare : Host} (hsame : host =
      { bare with port := (given <|> bare.parameters.port).getD standardPort }) :
      SameButPort given (.ok host) (.ok bare)

variable {text bare name : String} {port : Option Nat} {query : String → Parameters}

/-- With one and the same settings, the way the port is given changes the port only. -/
theorem resolve_alike (hbare : Address.parse bare = .ok ⟨name, none⟩)
    (htext : Address.parse text = .ok ⟨name, port⟩) (username password : Option String)
    (parameters : Parameters) :
    SameButPort port (resolve text username password parameters)
      (resolve bare username password parameters) := by
  simp only [resolve, hbare, htext]
  rcases username <|> parameters.user with _ | user
  · exact .refused _ _
  · rcases credentials? password parameters.identityFiles with _ | credentials
    · exact .refused _ _
    · exact .device rfl

/-- Who says how to log in gets a device for every address. -/
theorem exists_resolve (htext : Address.parse text = .ok ⟨name, port⟩) (user password : String)
    (parameters : Parameters) :
    ∃ host, resolve text (some user) (some password) parameters = .ok host ∧
      host.parameters = parameters := by
  unfold resolve
  rw [htext]
  exact ⟨_, rfl, rfl⟩

/-- **The port makes no other difference exactly if the same is configured for both texts.** -/
theorem configured_alike_iff (hbare : Address.parse bare = .ok ⟨name, none⟩)
    (htext : Address.parse text = .ok ⟨name, port⟩) :
    (∀ username password, SameButPort port (configured query username password text)
        (configured query username password bare)) ↔ query text = query bare := by
  constructor
  · intro h
    obtain ⟨host, hhost, hsettings⟩ := exists_resolve htext "" "" (query text)
    obtain ⟨host', hhost', hsettings'⟩ := exists_resolve hbare "" "" (query bare)
    have hsame := h (some "") (some "")
    rw [configured, configured, hhost, hhost'] at hsame
    rcases hsame with _ | hsame
    rw [← hsettings, ← hsettings', hsame]
  · intro h username password
    rw [configured, configured, ← h]
    exact resolve_alike hbare htext username password (query text)

end Host

/-! ## 2. Blocks of plain names -/

/-- All patterns of the block are names, without wildcards, brackets and colons. -/
def HostBlock.listsNames (block : HostBlock) : Bool :=
  block.patterns.all fun p => p.wildcard.all fun c => c ∉ ['*', '?', '[', ':']

/-- The blocks with patterns that may fit an address with a port. -/
def HostConfiguration.passingNames (configuration : HostConfiguration) : HostConfiguration :=
  ⟨configuration.blocks.filter (!·.listsNames)⟩

/-- An address that is not its name alone has a bracket or a colon in it. -/
theorem Address.mark_of_parse {text name : String} {port : Option Nat}
    (h : parse text = .ok ⟨name, port⟩) (hne : text ≠ name) : '[' ∈ text.toList ∨ ':' ∈ text.toList := by
  obtain ⟨port, hform, -, -⟩ := parse_eq_ok_iff_spells.mp h
  generalize hcs : text.toList = cs at hform ⊢
  cases hform with
  | bracketed hname => simp
  | bracketedPort hname => simp
  | plainPort hbare hone => simp
  | plain hbare hcolons => exact absurd (String.toList_inj.mp hcs) hne

theorem HostBlock.appliesTo_of_listsNames {block : HostBlock} (h : block.listsNames = true)
    {text : String} (hmark : '[' ∈ text.toList ∨ ':' ∈ text.toList) :
    block.appliesTo text = false := by
  have hnone : ∀ p ∈ block.patterns, Wildcard.fits p.wildcard text.toList = false := by
    intro p hp
    have hplain : ∀ c ∈ p.wildcard, c ∉ ['*', '?', '[', ':'] := by
      simpa [listsNames] using List.all_eq_true.mp h p hp
    have hstar : '*' ∉ p.wildcard := fun hmem => hplain _ hmem (by decide)
    have hany : '?' ∉ p.wildcard := fun hmem => hplain _ hmem (by decide)
    rw [Bool.eq_false_iff, ne_eq, Wildcard.fits_literal_iff hstar hany]
    intro hsame
    rw [hsame] at hmark
    rcases hmark with hmark | hmark
    · exact hplain _ hmark (by decide)
    · exact hplain _ hmark (by decide)
  have hfitting : (block.patterns.filter fun p => Wildcard.fits p.wildcard text.toList) = [] :=
    List.filter_eq_nil_iff.mpr fun p hp => by simp [hnone p hp]
  simp [appliesTo, hfitting]

/-- **Blocks that list names are passed over for an address with a port or in brackets.** -/
theorem HostConfiguration.query_passingNames (configuration : HostConfiguration)
    {text name : String} {port : Option Nat} (h : Address.parse text = .ok ⟨name, port⟩)
    (hne : text ≠ name) : configuration.query text = configuration.passingNames.query text := by
  have hmark := Address.mark_of_parse h hne
  unfold query passingNames
  rw [List.filter_filter]
  congr 1
  refine List.filter_congr fun block _ => ?_
  by_cases hnames : block.listsNames = true
  · simp [hnames, HostBlock.appliesTo_of_listsNames hnames hmark]
  · simp [hnames]

/-! ## 3. What the configuration is asked about -/

namespace Host

/-- **The configuration is asked about the address as it was given.**  Let `bare` be an
    address of a host without a port, its name as a rule, and `text` an address of the
    same host.  Then `text` gets the device that `bare` would get with the settings for
    `text`, but for the port; it gets the device of `bare` exactly if the settings for
    the two texts are the same; and no block that lists host names has a say in the
    settings for an address that is not the name itself. -/
theorem asked_as_given (name bare text : String) (port : Option Nat)
    (hbare : Address.parse bare = .ok ⟨name, none⟩)
    (htext : Address.parse text = .ok ⟨name, port⟩) :
    (∀ (query : String → Parameters) (username password : Option String),
      SameButPort port (configured query username password text)
        (resolve bare username password (query text))) ∧
    (∀ query : String → Parameters,
      (∀ username password, SameButPort port (configured query username password text)
        (configured query username password bare)) ↔ query text = query bare) ∧
    (text ≠ name → ∀ configuration : HostConfiguration,
      configuration.query text = configuration.passingNames.query text) := by
  refine ⟨?_, fun query => configured_alike_iff hbare htext, ?_⟩
  · intro query username password
    exact resolve_alike hbare htext username password (query text)
  · intro hne configuration
    exact configuration.query_passingNames htext hne

/-- A block for every host is found whatever way the port is given. -/
theorem asked_as_given_star :
    SameButPort (some 22)
      (configured (HostConfiguration.query
          ⟨[⟨[.ofWord ['*']], { Parameters.empty with port := some 2830 }⟩]⟩)
        (some "ops") (some "secret") "router:22")
      (configured (HostConfiguration.query
          ⟨[⟨[.ofWord ['*']], { Parameters.empty with port := some 2830 }⟩]⟩)
        (some "ops") (some "secret") "router") := by
  have hasked := (asked_as_given "router" "router" "router:22" (some 22) rfl rfl).2.1
  exact (hasked _).mpr rfl (some "ops") (some "secret")

/-- **An entry is not found under the name in the address.**  With `Host router` in the
    configuration there is a user and a key for `router`, and none for `router:22`. -/
theorem not_found_under_name :
    ¬ ∀ (query : String → Parameters) (username password : Option String) (name text : String)
      (port : Option Nat), Address.parse name = .ok ⟨name, none⟩ →
        Address.parse text = .ok ⟨name, port⟩ →
        SameButPort port (configured query username password text)
          (configured query username password name) := by
  intro h
  let configuration : HostConfiguration := ⟨[⟨[.ofWord "router".toList], { Parameters.empty with
    user := some "ops", identityFiles := some ["/keys/ops"] }⟩]⟩
  have hsame := h configuration.query none none "router" "router:22" (some 22) rfl rfl
  have hport : configured configuration.query none none "router:22" =
      .error (.other "No username for host 'router:22'") := rfl
  have hname : configured configuration.query none none "router" =
      .ok ⟨"router", "router", 830, "ops", .publicKey ["/keys/ops"],
        configuration.query "router"⟩ := rfl
  rw [hport, hname] at hsame
  cases hsame

end Host

end NetconfClient
