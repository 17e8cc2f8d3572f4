/-
  NetconfClient/Proofs/Message/Announcement.lean
  ==============================================
  **What a peer announces is what the other one learns.**

  The greeting of a peer goes through the framing that every session begins with,
  is recognised by its root tag and read.  What comes out are the capabilities that
  were announced and the session identifier (`announced_is_learnt`), as long as each
  capability is read from the text that it is announced by.
-/
import NetconfClient.Proofs.Framing.Acts
import NetconfClient.Proofs.Message.Greeting

namespace NetconfClient

open Text

/-- The greeting that announces a set; that of a server has a session identifier. -/
def Hello.announcing (set : CapabilitySet) : Option Nat → Hello
  | none => .ofCapabilities set
  | some id => (Hello.ofCapabilities set).withSessionId id

namespace Hello

theorem announcing_eq (set : CapabilitySet) (sessionId : Option Nat) :
    announcing set sessionId = ⟨set.announcements, sessionId⟩ := by
  cases sessionId with
  | none => rfl
  | some id => rfl

/-- **A greeting arrives as it was written**, whatever the pieces it comes in. -/
theorem feedAll_render {limit : Nat} (hello : Hello) (hsize : Utf8.size hello.render.toList ≤ limit)
    {pieces : List (List UInt8)}
    (hpieces : pieces.flatten = Framing.endOfMessage.encode hello.render) :
    (Framer.start limit).feedAll pieces = ([hello.render], none, Framer.start limit) := by
  have hne : pieces ≠ [] := by
    rintro rfl
    have hlength := congrArg List.length hpieces
    simp [Framing.encode, Framing.terminator] at hlength
  have hone : ∀ m ∈ [hello.render], Utf8.size m.toList ≤ limit ∧ Framing.Terminated.Closable m := by
    intro m hm
    rw [List.mem_singleton.mp hm]
    exact ⟨hsize, Greeting.closable_render hello⟩
  have hfeed := Framer.feedAll_terminated hone hne (by rw [hpieces, List.flatMap_singleton])
  rwa [List.map_singleton, Greeting.trimString_render] at hfeed

end Hello

namespace Greeting

/-- **What is announced is learnt.**  The greeting of a set arrives as the message that was
    sent, is taken for a greeting, and is read as that set and that session identifier. -/
theorem announced_is_learnt (set : CapabilitySet) (sessionId : Option Nat) (limit : Nat)
    (pieces : List (List UInt8))
    (hset : ∀ c ∈ set.entries, Capability.parse c.render = .ok c)
    (hid : ∀ id ∈ sessionId, id ≤ Unsigned.max64)
    (hsize : Utf8.size (Hello.announcing set sessionId).render.toList ≤ limit)
    (hpieces : pieces.flatten =
      Framing.endOfMessage.encode (Hello.announcing set sessionId).render) :
    (Framer.start limit).feedAll pieces =
        ([(Hello.announcing set sessionId).render], none, Framer.start limit) ∧
      Inbound.classify (Hello.announcing set sessionId).render = .ok .hello ∧
      parse (Hello.announcing set sessionId).render = .ok ⟨sessionId, set⟩ := by
  refine ⟨Hello.feedAll_render _ hsize hpieces, classify_render _, ?_⟩
  rw [Hello.announcing_eq]
  exact parse_render hset hid

/-- Capabilities with markup and terminators in them, the largest session identifier, and a
    greeting that comes in three pieces. -/
theorem announced_is_learnt_delimiters :
    ∃ set : CapabilitySet,
      CapabilitySet.parse [":base:1.1", "urn:a?x=<&>\"'", "urn:b]]>]]>c?]]>=]]>&amp;"] = .ok set ∧
      (∀ c ∈ set.entries, Capability.parse c.render = .ok c) ∧
      18446744073709551615 ≤ Unsigned.max64 ∧
      (let xml := (Hello.announcing set (some 18446744073709551615)).render
       let octets := Framing.endOfMessage.encode xml
       Utf8.size xml.toList ≤ 512 ∧ [octets.take 9, [], octets.drop 9].flatten = octets ∧
       (Framer.start 512).feedAll [octets.take 9, [], octets.drop 9] =
         ([xml], none, Framer.start 512) ∧
       Inbound.classify xml = .ok .hello ∧
       parse xml = .ok ⟨some 18446744073709551615, set⟩) := by
  let set : CapabilitySet :=
    ⟨[⟨"urn:ietf:params:netconf:base:1.1", .empty⟩,
      ⟨"urn:a", .ofPairs [("x", "<"), (">\"'", "")]⟩,
      ⟨"urn:b]]>]]>c", .ofPairs [("]]>", "]]>"), ("amp;", "")]⟩], by decide⟩
  have hset : ∀ c ∈ set.entries, Capability.parse c.render = .ok c := by decide +kernel
  have hid : ∀ id ∈ some 18446744073709551615, id ≤ Unsigned.max64 := by decide
  have hsize :
      Utf8.size (Hello.announcing set (some 18446744073709551615)).render.toList ≤ 512 := by
    rw [toList_render]
    decide +kernel
  have hpieces : ∀ octets : List UInt8, [octets.take 9, [], octets.drop 9].flatten = octets := by
    simp
  exact ⟨set, by decide +kernel, hset, by decide, hsize, hpieces _,
    announced_is_learnt set (some 18446744073709551615) 512 _ hset hid hsize (hpieces _)⟩

end Greeting
end NetconfClient
