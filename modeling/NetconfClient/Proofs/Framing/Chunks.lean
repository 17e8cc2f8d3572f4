/-
  NetconfClient/Proofs/Framing/Chunks.lean
  ========================================
  **Pulling a chunked message while its octets are still arriving.**

  `pull` has one equation for each delimiter.  From them follows what more
  octets do to a pull (`pull_append`): a message stays the same message, a
  refusal stays a refusal, and a pull that waits goes on from where it stopped.
-/
import NetconfClient.Proofs.Framing.Delimiter

namespace NetconfClient.Framing.Chunked

open Text

variable {limit size : Nat} {collected : Collected} {buffer rest : List UInt8}

/-! ## 1. One delimiter -/

theorem pull_of_unfinished (h : readDelimiter buffer = .unfinished) :
    pull limit collected buffer = ⟨.incomplete, buffer, collected⟩ := by
  rw [pull]
  split <;> simp_all

theorem pull_of_invalid {error : FrameError} (h : readDelimiter buffer = .invalid error) :
    pull limit collected buffer = ⟨.broken error, buffer, collected⟩ := by
  rw [pull]
  split <;> simp_all

theorem pull_of_chunk (h : readDelimiter buffer = .chunk size rest) :
    pull limit collected buffer =
      if collected.payload.length + size > limit then ⟨.broken (.tooLarge limit), buffer, collected⟩
      else if rest.length < size then ⟨.incomplete, buffer, collected⟩
      else pull limit (collected.add (rest.take size)) (rest.drop size) := by
  rw [pull]
  split <;> simp_all

theorem pull_of_endOfChunks (h : readDelimiter buffer = .endOfChunks rest) :
    pull limit collected buffer =
      if collected.chunks = 0 then ⟨.broken .noChunk, buffer, collected⟩
      else ⟨.message (Utf8.decodeString collected.payload), rest, .nothing⟩ := by
  rw [pull]
  split <;> simp_all

/-! ## 2. More octets -/

/-- How a pull comes out when more octets stand behind the buffer. -/
def Pulled.Persists (limit : Nat) (more : List UInt8) (p q : Pulled) : Prop :=
  match p.result with
  | .message _ => q = { p with buffer := p.buffer ++ more }
  | .incomplete => q = pull limit p.collected (p.buffer ++ more)
  | .broken _ => ∃ error, q.result = .broken error

/-- **Octets that arrive later do not change what has been pulled.** -/
theorem pull_append (limit : Nat) (collected : Collected) (buffer more : List UInt8) :
    (pull limit collected buffer).Persists limit more (pull limit collected (buffer ++ more)) := by
  fun_induction pull limit collected buffer with
  | case1 => rfl
  | case2 collected buffer error h =>
    have hd := readDelimiter_append buffer more
    rw [h] at hd
    obtain ⟨error', hd⟩ := hd
    exact ⟨error', by rw [pull_of_invalid hd]⟩
  | case3 collected buffer size rest h hlarge =>
    have hd := readDelimiter_append buffer more
    rw [h] at hd
    exact ⟨_, by rw [pull_of_chunk hd, if_pos hlarge]⟩
  | case4 => rfl
  | case5 collected buffer size rest h hfits hthere ih =>
    have hd := readDelimiter_append buffer more
    rw [h] at hd
    -- the chunk is all there, so it is cut off at the same place
    have hlen : ¬ (rest ++ more).length < size := by
      rw [List.length_append]
      omega
    rw [pull_of_chunk hd, if_neg hfits, if_neg hlen, List.take_append_of_le_length (by omega),
      List.drop_append_of_le_length (by omega)]
    exact ih
  | case6 collected buffer rest h hnone =>
    have hd := readDelimiter_append buffer more
    rw [h] at hd
    exact ⟨_, by rw [pull_of_endOfChunks hd, if_pos hnone]⟩
  | case7 collected buffer rest h hsome =>
    have hd := readDelimiter_append buffer more
    rw [h] at hd
    exact (pull_of_endOfChunks hd).trans (if_neg hsome)

end NetconfClient.Framing.Chunked
