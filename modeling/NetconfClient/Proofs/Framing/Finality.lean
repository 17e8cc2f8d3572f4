/-
  NetconfClient/Proofs/Framing/Finality.lean
  ==========================================
  **A stream that is out of step stays out of step.**

  No error is written down anywhere.  It shows again on every pull, because what
  stands at the front of the buffer is still there and nothing that is appended
  can mend it: such a framer is `Stuck`.  An error leaves a stuck framer
  (`stuck_of_next`), and without a change of framing a stuck framer stays stuck
  and keeps every octet (`Stuck.after`).
-/
import NetconfClient.Proofs.Framing.Grammar

namespace NetconfClient

open Framing

/-! ## 1. Terminated messages -/

namespace Framing.Terminated

variable {limit searched searched' : Nat} {buffer : List UInt8}

/-- What a pull gives does not depend on how far the search has come. -/
theorem result_pull_congr (h : Searched searched buffer) (h' : Searched searched' buffer) :
    (pull limit searched buffer).result = (pull limit searched' buffer).result := by
  rw [pull_of_searched h, pull_of_searched h']
  cases find? buffer with
  | none => rfl
  | some stop =>
    dsimp only [found]
    split <;> rfl

theorem buffer_of_broken {error : FrameError}
    (h : (pull limit searched buffer).result = .broken error) :
    (pull limit searched buffer).buffer = buffer := by
  unfold pull found missed at h ⊢
  split
  · split
    · rfl
    · next hpos hlimit => simp [hpos, hlimit] at h
  · split <;> rfl

end Framing.Terminated

/-! ## 2. Chunks -/

namespace Framing.Chunked

variable {limit : Nat} {collected behind : Collected} {buffer rest : List UInt8}
  {error : FrameError}

/-- **What is refused cannot be mended by further octets.** -/
theorem Stop.append (h : Stop limit collected buffer ⟨.broken error, buffer, collected⟩)
    (more : List UInt8) : ∃ error',
      Stop limit collected (buffer ++ more) ⟨.broken error', buffer ++ more, collected⟩ := by
  have hd := readDelimiter_append buffer more
  cases h with
  | invalid h =>
    rw [h] at hd
    obtain ⟨error', hd⟩ := hd
    exact ⟨error', .invalid hd⟩
  | tooLarge h hlarge =>
    rw [h] at hd
    exact ⟨_, .tooLarge hd hlarge⟩
  | noChunk h hnone =>
    rw [h] at hd
    exact ⟨_, .noChunk hd hnone⟩

/-- A refusal comes from what it leaves at the front of the buffer. -/
theorem stop_of_broken (h : pull limit collected buffer = ⟨.broken error, rest, behind⟩) :
    Stop limit behind rest ⟨.broken error, rest, behind⟩ := by
  obtain ⟨chunks, front, -, -, hstop⟩ := pull_stops limit collected buffer
  rw [h] at hstop
  cases hstop with
  | invalid hdelimiter => exact .invalid hdelimiter
  | tooLarge hdelimiter hlarge => exact .tooLarge hdelimiter hlarge
  | noChunk hdelimiter hnone => exact .noChunk hdelimiter hnone

end Framing.Chunked

/-! ## 3. Framers -/

namespace Framer

variable {f g : Framer} {error : FrameError}

/-- What stands at the front of the buffer is refused, whatever follows it. -/
def Stuck (f : Framer) : Prop :=
  match f.decoder with
  | .terminated searched =>
    Terminated.Searched searched f.buffer ∧
      ∃ error, (Terminated.pull f.limit searched f.buffer).result = .broken error
  | .chunked collected =>
    ∃ error, Chunked.Stop f.limit collected f.buffer ⟨.broken error, f.buffer, collected⟩

/-- **An error leaves a framer that is stuck.** -/
theorem stuck_of_next (hf : f.Sound) (h : f.next = (.broken error, g)) : g.Stuck := by
  obtain ⟨buffer, decoder, limit⟩ := f
  cases decoder with
  | terminated searched =>
    simp only [next, Prod.mk.injEq] at h
    obtain ⟨hresult, rfl⟩ := h
    have hsearched := @Terminated.searched_pull limit searched buffer hf
    refine ⟨hsearched, error, ?_⟩
    rw [Terminated.buffer_of_broken hresult] at hsearched ⊢
    rw [Terminated.result_pull_congr hsearched hf, hresult]
  | chunked collected =>
    simp only [next, Prod.mk.injEq] at h
    obtain ⟨hresult, rfl⟩ := h
    exact ⟨error, Chunked.stop_of_broken (by rw [← hresult])⟩

theorem Stuck.sound (h : f.Stuck) : f.Sound := by
  obtain ⟨buffer, decoder, limit⟩ := f
  cases decoder with
  | terminated searched => exact h.1
  | chunked collected => trivial

theorem Stuck.extend (h : f.Stuck) (more : List UInt8) : (f.extend more).Stuck := by
  obtain ⟨buffer, decoder, limit⟩ := f
  cases decoder with
  | terminated searched =>
    obtain ⟨hsearched, error, hresult⟩ := h
    have hpersists := @Terminated.pull_append limit searched buffer hsearched more
    simp only [Terminated.Pulled.Persists, hresult] at hpersists
    exact ⟨hsearched.append more, hpersists⟩
  | chunked collected =>
    obtain ⟨error, hstop⟩ := h
    exact hstop.append more

/-- **A stuck framer refuses every pull and takes nothing.** -/
theorem Stuck.next (h : f.Stuck) :
    ∃ error g, f.next = (.broken error, g) ∧ g.Stuck ∧ g.buffer = f.buffer := by
  have hrefused : ∃ error g, f.next = (.broken error, g) ∧ g.buffer = f.buffer := by
    obtain ⟨buffer, decoder, limit⟩ := f
    cases decoder with
    | terminated searched =>
      obtain ⟨-, error, hresult⟩ := h
      exact ⟨error, _, Prod.ext hresult rfl, Terminated.buffer_of_broken hresult⟩
    | chunked collected =>
      obtain ⟨error, hstop⟩ := h
      exact ⟨error, ⟨buffer, .chunked collected, limit⟩, by simp only [Framer.next, hstop.pull], rfl⟩
  obtain ⟨error, g, hnext, hbuffer⟩ := hrefused
  exact ⟨error, g, hnext, stuck_of_next h.sound hnext, hbuffer⟩

theorem stuck_of_feed (hf : f.Sound) {octets : List UInt8}
    (h : f.feed octets = (.error error, g)) : g.Stuck := by
  obtain ⟨-, n, hend⟩ := exists_pulls (f.extend octets)
  have hsound := sound_after (hf.extend octets) (.replicate n .next)
  unfold feed at h
  split at h
  · simp at h
  · next heq =>
    simp only [Prod.mk.injEq] at h
    obtain ⟨-, rfl⟩ := h
    rw [heq] at hend
    exact stuck_of_next hsound hend

theorem Stuck.feed (h : f.Stuck) (octets : List UInt8) :
    ∃ error g, f.feed octets = (.error error, g) ∧ g.Stuck ∧ g.buffer = f.buffer ++ octets := by
  obtain ⟨error, g, hnext, hg, hbuffer⟩ := (h.extend octets).next
  exact ⟨error, g, by rw [Framer.feed, drain_of_broken hnext], hg, hbuffer⟩

/-- **Until the framing changes, a stuck framer stays stuck and keeps every octet.** -/
theorem Stuck.after (h : f.Stuck) {acts : List Act} (hacts : .upgrade ∉ acts) :
    (f.after acts).Stuck ∧ (f.after acts).buffer = f.buffer ++ acts.flatMap Act.octets := by
  induction acts generalizing f with
  | nil => exact ⟨h, by simp⟩
  | cons act acts ih =>
    simp only [List.mem_cons, not_or] at hacts
    have hact : (f.perform act).Stuck ∧ (f.perform act).buffer = f.buffer ++ act.octets := by
      cases act with
      | extend octets => exact ⟨h.extend octets, rfl⟩
      | next =>
        obtain ⟨error, g, hnext, hg, hbuffer⟩ := h.next
        rw [perform, hnext]
        exact ⟨hg, by simpa [Act.octets] using hbuffer⟩
      | feed octets =>
        obtain ⟨error, g, hfeed, hg, hbuffer⟩ := h.feed octets
        rw [perform, hfeed]
        exact ⟨hg, hbuffer⟩
      | upgrade => exact absurd rfl hacts.1
    obtain ⟨hstuck, hbuffer⟩ := ih hact.1 hacts.2
    exact ⟨hstuck, by rw [after_cons, hbuffer, hact.2, List.flatMap_cons, List.append_assoc]⟩

/-- That an act is answered with an error. -/
def Refuses (f : Framer) : Act → Prop
  | .next => ∃ error g, f.next = (.broken error, g)
  | .feed octets => ∃ error g, f.feed octets = (.error error, g)
  | .extend _ => False
  | .upgrade => False

theorem stuck_of_refuses (hf : f.Sound) {act : Act} (h : f.Refuses act) :
    (f.perform act).Stuck := by
  cases act with
  | next =>
    obtain ⟨error, g, hnext⟩ := h
    rw [perform, hnext]
    exact stuck_of_next hf hnext
  | feed octets =>
    obtain ⟨error, g, hfeed⟩ := h
    rw [perform, hfeed]
    exact stuck_of_feed hf hfeed
  | extend octets => exact h.elim
  | upgrade => exact h.elim

/-- **An error is final.**  Behind a run whose last act is answered with an error, and until
    the framing changes, every pull and every feed is answered with an error again, so no
    message comes out, and every octet stays in the buffer. -/
theorem refused_for_good (limit : Nat) (acts : List Act) (act : Act)
    (h : ((start limit).after acts).Refuses act) (more : List Act) (hmore : .upgrade ∉ more) :
    let stuck := ((start limit).after acts).perform act
    (stuck.after more).buffer = stuck.buffer ++ more.flatMap Act.octets ∧
      (∃ error g, (stuck.after more).next = (.broken error, g) ∧
        g.buffer = (stuck.after more).buffer) ∧
      ∀ octets, ∃ error g, (stuck.after more).feed octets = (.error error, g) ∧
        g.buffer = (stuck.after more).buffer ++ octets := by
  intro stuck
  have hstuck : stuck.Stuck := stuck_of_refuses (sound_after (sound_start limit) acts) h
  obtain ⟨hafter, hbuffer⟩ := hstuck.after hmore
  refine ⟨hbuffer, ?_, fun octets => ?_⟩
  · obtain ⟨error, g, hnext, -, hkept⟩ := hafter.next
    exact ⟨error, g, hnext, hkept⟩
  · obtain ⟨error, g, hfeed, -, hkept⟩ := hafter.feed octets
    exact ⟨error, g, hfeed, hkept⟩

/-- Two good chunks, the second of them shorter than its octets. -/
def misaligned : List UInt8 := Text.Utf8.encodeString "\n#2\nab\n#3\nabcd\n##\n"

theorem refused_for_good_misaligned :
    ((start 16).after [.upgrade, .extend misaligned]).Refuses .next ∧
      (((start 16).after [.upgrade, .extend misaligned, .next]).after
          [.extend endOfChunks, .next, .feed misaligned]).buffer =
        Text.Utf8.encodeString "d\n##\n" ++ (endOfChunks ++ misaligned) ∧
      ∀ octets, ∃ error g, (((start 16).after [.upgrade, .extend misaligned, .next]).after
        [.extend endOfChunks, .next, .feed misaligned]).feed octets = (.error error, g) := by
  have hrefuses : ((start 16).after [.upgrade, .extend misaligned]).Refuses .next :=
    ⟨.misplaced lf 100, ⟨Text.Utf8.encodeString "d\n##\n",
      .chunked ⟨Text.Utf8.encodeString "ababc", 2⟩, 16⟩, by decide +kernel⟩
  have hbuffer : (((start 16).after [.upgrade, .extend misaligned]).perform .next).buffer =
      Text.Utf8.encodeString "d\n##\n" := by decide +kernel
  obtain ⟨hkept, -, hfeed⟩ := refused_for_good 16 [.upgrade, .extend misaligned] .next hrefuses
    [.extend endOfChunks, .next, .feed misaligned] (by simp)
  rw [hbuffer] at hkept
  refine ⟨hrefuses, hkept, fun octets => ?_⟩
  obtain ⟨error, g, hrefused, -⟩ := hfeed octets
  exact ⟨error, g, hrefused⟩

end Framer

end NetconfClient
