/-
  NetconfClient/Proofs/Framing/Arrival.lean
  =========================================
  **Octets may arrive in any pieces.**

  A framer is `Sound` when its search for the terminator has passed over no
  beginning of one; every framer that a stream leads to is.  What a sound framer
  pulls does not depend on how much of the stream has arrived behind it
  (`next_extend`): a message stays, a refusal stays, and an incomplete pull is
  taken up again as if all octets had been there at once.
-/
import NetconfClient.Framing.Framer
import NetconfClient.Proofs.Framing.Chunks
import NetconfClient.Proofs.Framing.Search

namespace NetconfClient.Framer

open Framing

/-! ## 1. Sound framers -/

/-- No terminator begins in front of the offset of the search. -/
def Sound (f : Framer) : Prop :=
  match f.decoder with
  | .terminated searched => Terminated.Searched searched f.buffer
  | .chunked _ => True

theorem sound_start (limit : Nat) : (start limit).Sound := Terminated.searched_zero []

theorem Sound.extend {f : Framer} (h : f.Sound) (more : List UInt8) : (f.extend more).Sound := by
  obtain ⟨buffer, decoder, limit⟩ := f
  cases decoder with
  | terminated searched => exact Terminated.Searched.append h more
  | chunked collected => trivial

theorem Sound.upgrade {f : Framer} (h : f.Sound) : f.upgrade.Sound := by
  obtain ⟨buffer, decoder, limit⟩ := f
  cases decoder with
  | terminated searched => trivial
  | chunked collected => exact h

theorem Sound.next {f g : Framer} {p : Pull} (h : f.Sound) (hp : f.next = (p, g)) : g.Sound := by
  obtain ⟨buffer, decoder, limit⟩ := f
  cases decoder with
  | terminated searched =>
    cases hp
    exact Terminated.searched_pull h
  | chunked collected =>
    cases hp
    trivial

/-! ## 2. More octets -/

@[simp] theorem extend_nil (f : Framer) : f.extend [] = f := by
  simp [extend]

@[simp] theorem extend_extend (f : Framer) (first second : List UInt8) :
    (f.extend first).extend second = f.extend (first ++ second) := by
  simp [extend]

theorem buffer_upgrade (f : Framer) : f.upgrade.buffer = f.buffer := by
  obtain ⟨buffer, decoder, limit⟩ := f
  cases decoder <;> rfl

theorem upgrade_extend (f : Framer) (more : List UInt8) :
    (f.extend more).upgrade = f.upgrade.extend more := by
  obtain ⟨buffer, decoder, limit⟩ := f
  cases decoder <;> rfl

/-- Two pulls that come out alike: they are the same, or both are refused. -/
def Alike (p q : Pull × Framer) : Prop :=
  p = q ∨ (∃ error g, p = (.broken error, g)) ∧ ∃ error g, q = (.broken error, g)

/-- How a pull comes out when more octets stand behind the buffer. -/
def Persists (more : List UInt8) : Pull × Framer → Pull × Framer → Prop
  | (.message text, g), q => q = (.message text, g.extend more)
  | (.incomplete, g), q => Alike q (g.extend more).next
  | (.broken _, _), q => ∃ error g, q = (.broken error, g)

/-- **Octets that arrive later do not change what has been pulled.** -/
theorem next_extend {f : Framer} (h : f.Sound) (more : List UInt8) :
    Persists more f.next (f.extend more).next := by
  obtain ⟨buffer, decoder, limit⟩ := f
  cases decoder with
  | terminated searched =>
    have hpull := @Terminated.pull_append limit searched buffer h more
    simp only [next, extend]
    -- the two pulls are related by `hpull` alone
    revert hpull
    generalize Terminated.pull limit searched (buffer ++ more) = q
    rcases Terminated.pull limit searched buffer with ⟨result, rest, searched'⟩
    intro hpull
    cases result with
    | message text =>
      cases hpull
      rfl
    | incomplete =>
      rcases hpull with heq | ⟨⟨error, hq⟩, ⟨error', hp⟩⟩
      · exact Or.inl (by rw [heq]; rfl)
      · exact Or.inr ⟨⟨error, _, by rw [hq]⟩, ⟨error', _, by rw [next]; dsimp only [extend]; rw [hp]⟩⟩
    | broken error =>
      obtain ⟨error', hq⟩ := hpull
      exact ⟨error', _, by rw [hq]⟩
  | chunked collected =>
    have hpull := Chunked.pull_append limit collected buffer more
    simp only [next, extend]
    revert hpull
    generalize Chunked.pull limit collected (buffer ++ more) = q
    rcases Chunked.pull limit collected buffer with ⟨result, rest, collected'⟩
    intro hpull
    cases result with
    | message text =>
      cases hpull
      rfl
    | incomplete => exact Or.inl (by rw [hpull]; rfl)
    | broken error =>
      obtain ⟨error', hq⟩ := hpull
      exact ⟨error', _, by rw [hq]⟩

end NetconfClient.Framer
