/-
  NetconfClient/Proofs/Session/Agreement.lean
  ===========================================
  **Two ends agree on the framing and understand each other.**

  Each end sends its greeting and negotiates with the one that it receives.  The
  greeting is read as it was meant, so both look at the same two sets and come to
  the same base version (`negotiate_hello`).  Behind the greeting one end changes
  the framing where the other does, and takes the messages that were sent
  (`understands`).
-/
import NetconfClient.Proofs.Capability.Negotiation
import NetconfClient.Proofs.Message.Greeting
import NetconfClient.Proofs.Session.Reception
import NetconfClient.Session.System

namespace NetconfClient.Session

open Text Framing CapabilitySet

/-! ## 1. Ends -/

/-- One end of a connection: the capabilities that it holds and, at a server, the
    identifier of the session. -/
structure Endpoint where
  held : CapabilitySet
  sessionId : Option Nat

namespace Endpoint

/-- The greeting that an end sends. -/
def hello (e : Endpoint) : String := Hello.render ⟨e.held.announcements, e.sessionId⟩

/-- What its greeting is to be read as. -/
def greeting (e : Endpoint) : Greeting := ⟨e.sessionId, e.held⟩

/-- Every capability is announced by a text that is read as that capability, and the session
    identifier is a number of 64 bits. -/
def Announceable (e : Endpoint) : Prop :=
  (∀ c ∈ e.held.entries, Capability.parse c.render = .ok c) ∧
    ∀ id ∈ e.sessionId, id ≤ Unsigned.max64

instance (e : Endpoint) : Decidable e.Announceable := inferInstanceAs (Decidable (_ ∧ _))

end Endpoint

/-- The greeting of a session is that of an end without a session identifier. -/
theorem System.hello_eq (s : System) : s.hello = Endpoint.hello ⟨s.own, none⟩ := rfl

/-- A message that comes through the framing of a version as it is. -/
def Fits (limit : Nat) (m : String) : BaseVersion → Prop
  | .v1_1 => Utf8.size m.toList ≤ min limit Unsigned.max32
  | .v1_0 => Utf8.size m.toList ≤ limit ∧ Terminated.Closable m ∧ trimString m = m

/-- Whatever the reads it comes in, a stream of a greeting and of messages in the framing
    of a version is taken as the greeting and those messages, and nothing is left over. -/
def Understands (listener speaker : Endpoint) (v : BaseVersion) : Prop :=
  ∀ (limit : Nat) (messages : List String) (reads : List (List UInt8)),
    Utf8.size speaker.hello.toList ≤ limit → (∀ m ∈ messages, Fits limit m v) →
    reads.flatten =
      Framing.endOfMessage.encode speaker.hello ++ messages.flatMap v.framing.encode →
    ∃ f g, ((Framer.start limit).extend reads.flatten).next = (.message speaker.hello, f) ∧
      (if v = .v1_1 then f.upgrade else f).drain = (messages, none, g) ∧ g.buffer = [] ∧
      receive listener.held limit reads = ⟨speaker.hello :: messages, .waiting ⟨g, false⟩⟩

/-! ## 2. Greetings -/

theorem negotiate_hello (own : CapabilitySet) {peer : Endpoint} (h : peer.Announceable) :
    (∃ v, shared own peer.held = some v ∧ negotiate own peer.hello = .ok ⟨peer.greeting, v⟩) ∨
      (shared own peer.held = none ∧
        ∃ text, negotiate own peer.hello = .error (.capabilityExchange text)) := by
  rw [Endpoint.hello, negotiate, Greeting.parse_render h.1 h.2]
  dsimp only
  rcases negotiate_eq own peer.held with ⟨v, hv, hbase⟩ | ⟨hnone, text, herror⟩
  · refine .inl ⟨v, hv, ?_⟩
    rw [hbase]
    rfl
  · refine .inr ⟨hnone, text, ?_⟩
    rw [herror]

/-! ## 3. Messages behind the greeting -/

/-- Once the exchange is decided, the intake is its framer. -/
theorem Intake.drain_of_settled (own : CapabilitySet) {f g : Framer} {texts : List String}
    (h : f.drain = (texts, none, g)) :
    Intake.drain own ⟨f, false⟩ = ⟨texts, .waiting ⟨g, false⟩⟩ := by
  fun_induction Framer.drain f generalizing texts with
  | case1 f text next hnext later error last hdrain ih =>
    cases h
    have haccept : Intake.accept ⟨next, false⟩ own text = (none, ⟨next, false⟩) := by
      rw [Intake.accept, if_neg (fun h => Bool.false_ne_true h.1)]
    rw [Intake.drain_of_message (i := ⟨f, false⟩) hnext haccept, ih hdrain]
    rfl
  | case2 f next hnext =>
    cases h
    exact Intake.drain_of_incomplete (i := ⟨f, false⟩) hnext
  | case3 => cases h

/-- A reception that waits is told by its outcome. -/
theorem Reception.eq_of_outcome {r : Reception} {routed : List String} {i : Intake}
    (h : r.outcome = (routed, some (none, i))) : r = ⟨routed, .waiting i⟩ := by
  obtain ⟨texts, standing⟩ := r
  cases standing with
  | waiting j =>
    cases h
    rfl
  | refused fault j unread => cases h
  | broken error => cases h

/-- **Messages in the framing of a version are taken as they were sent.** -/
theorem drain_framed {limit : Nat} {messages : List String} {v : BaseVersion}
    (hfits : ∀ m ∈ messages, Fits limit m v) :
    Framer.drain ⟨messages.flatMap v.framing.encode, v.decoder, limit⟩ =
      (messages, none, ⟨[], v.decoder, limit⟩) := by
  cases v with
  | v1_1 => exact Framer.drain_chunked messages hfits
  | v1_0 =>
    have hkept : messages.map trimString = messages := by
      refine (List.map_congr_left fun m hm => (hfits m hm).2.2).trans (List.map_id _)
    have hdrain := Framer.drain_terminated messages fun m hm => ⟨(hfits m hm).1, (hfits m hm).2.1⟩
    rwa [hkept] at hdrain

/-- **A greeting that is negotiated opens the way for the messages behind it.** -/
theorem understands {listener speaker : Endpoint} {v : BaseVersion}
    (h : negotiate listener.held speaker.hello = .ok ⟨speaker.greeting, v⟩) :
    Understands listener speaker v := by
  intro limit messages reads hsize hfits hreads
  have hnext : ((Framer.start limit).extend reads.flatten).next =
      (.message speaker.hello, ⟨messages.flatMap v.framing.encode, .terminated 0, limit⟩) := by
    have := Framer.next_terminated hsize (Greeting.closable_render _)
      (messages.flatMap v.framing.encode)
    rw [Endpoint.hello, Greeting.trimString_render] at this
    rw [hreads]
    exact this
  have haccept : Intake.accept
      ⟨⟨messages.flatMap v.framing.encode, .terminated 0, limit⟩, true⟩ listener.held
        speaker.hello =
      (none, ⟨⟨messages.flatMap v.framing.encode, v.decoder, limit⟩, false⟩) := by
    rw [Intake.accept, if_pos ⟨rfl, Greeting.classify_render _⟩, h]
    dsimp only
    rw [Framer.greeted_eq]
  refine ⟨_, ⟨[], v.decoder, limit⟩, hnext, ?_, rfl, ?_⟩
  · rw [Framer.greeted_eq]
    exact drain_framed hfits
  · have hdrain := Intake.drain_of_message (i := (Intake.start limit).extend reads.flatten)
      hnext haccept
    rw [Intake.drain_of_settled listener.held (drain_framed hfits)] at hdrain
    refine Reception.eq_of_outcome ?_
    rw [outcome_receive, hdrain]
    rfl

/-! ## 4. Both directions -/

/-- **Two ends agree and understand each other.**  Both negotiate version 1.1 if both hold
    its URI, or else version 1.0 if both hold that one, or else both refuse; and once they
    agree, either takes what the other sends behind its greeting. -/
theorem endpoints_agree (a b : Endpoint) (ha : a.Announceable) (hb : b.Announceable) :
    match shared a.held b.held with
    | some v =>
      negotiate a.held b.hello = .ok ⟨b.greeting, v⟩ ∧
        negotiate b.held a.hello = .ok ⟨a.greeting, v⟩ ∧ Understands a b v ∧ Understands b a v
    | none =>
      (∃ text, negotiate a.held b.hello = .error (.capabilityExchange text)) ∧
        ∃ text, negotiate b.held a.hello = .error (.capabilityExchange text) := by
  have hcomm := shared_comm a.held b.held
  rcases negotiate_hello a.held hb with ⟨v, hv, hab⟩ | ⟨hnone, hab⟩
  · rcases negotiate_hello b.held ha with ⟨w, hw, hba⟩ | ⟨hnone, -⟩
    · obtain rfl : v = w := Option.some.inj (hv.symm.trans (hcomm.trans hw))
      rw [hv]
      exact ⟨hab, hba, understands hab, understands hba⟩
    · rw [hcomm, hnone] at hv
      cases hv
  · rcases negotiate_hello b.held ha with ⟨w, hw, -⟩ | ⟨-, hba⟩
    · rw [hcomm, hw] at hnone
      cases hnone
    · rw [hnone]
      exact ⟨hab, hba⟩

/-- A client that holds both versions and a server that holds the newer one, and has a
    capability with parameters. -/
theorem endpoints_agree_chunked :
    ∃ a b : Endpoint,
      CapabilitySet.parse [":base", ":base:1.1", ":candidate"] = .ok a.held ∧
      CapabilitySet.parse [":base:1.1", "urn:x?revision=2<3&module=x"] = .ok b.held ∧
      b.sessionId = some 7 ∧ a.Announceable ∧ b.Announceable ∧
      negotiate a.held b.hello = .ok ⟨b.greeting, .v1_1⟩ ∧
      negotiate b.held a.hello = .ok ⟨a.greeting, .v1_1⟩ ∧
      Understands a b .v1_1 ∧ Understands b a .v1_1 := by
  let a : Endpoint :=
    ⟨⟨[⟨"urn:ietf:params:netconf:base:1.0", .empty⟩, ⟨"urn:ietf:params:netconf:base:1.1", .empty⟩,
      ⟨"urn:ietf:params:netconf:capability:candidate:1.0", .empty⟩], by decide⟩, none⟩
  let b : Endpoint :=
    ⟨⟨[⟨"urn:ietf:params:netconf:base:1.1", .empty⟩,
      ⟨"urn:x", .ofPairs [("module", "x"), ("revision", "2<3")]⟩], by decide⟩, some 7⟩
  have ha : a.Announceable := by decide +kernel
  have hb : b.Announceable := by decide +kernel
  have hshared : shared a.held b.held = some .v1_1 := by decide +kernel
  have hagree := endpoints_agree a b ha hb
  rw [hshared] at hagree
  exact ⟨a, b, by decide +kernel, by decide +kernel, rfl, ha, hb, hagree⟩

end NetconfClient.Session
