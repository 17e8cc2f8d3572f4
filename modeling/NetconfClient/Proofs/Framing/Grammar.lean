/-
  NetconfClient/Proofs/Framing/Grammar.lean
  =========================================
  **The streams that are read as chunks.**

  A `Chunk` is `LF # SIZE LF` and exactly SIZE octets, where SIZE is written
  without a superfluous zero (`IsSize`); a `Frame` is one or more chunks and the
  end marker.  A pull goes over the chunks at the front of the buffer and stops
  at the first place where it cannot go on (`pull_stops`).  `Stop` lists these
  places once for all that is said about pulls; from it follows that what is
  accepted to the last octet is frames and nothing else
  (`feed_ok_iff_frames`).
-/
import Mathlib.Data.List.Basic
import NetconfClient.Proofs.Framing.Acts

namespace NetconfClient

open Text

namespace Framing.Chunked

/-! ## 1. Sizes -/

/-- The number that decimal digits stand for. -/
def valueOf (digits : List UInt8) : Nat :=
  digits.foldl (fun value b => 10 * value + (b.toNat - zero.toNat)) 0

/-- A chunk size as it is written: decimal digits, no superfluous zero, at most 32 bits. -/
structure IsSize (digits : List UInt8) (size : Nat) : Prop where
  ne_nil : digits ≠ []
  digit : ∀ b ∈ digits, isDigit b = true
  canonical : digits.head? = some zero → digits = [zero]
  value : valueOf digits = size
  bound : size ≤ Unsigned.max32

variable {digits buffer rest : List UInt8} {size limit : Nat} {collected : Collected}

def digitOf (b : UInt8) : Char := Char.ofNat b.toNat

theorem toNat_range_of_isDigit {b : UInt8} (h : isDigit b = true) :
    48 ≤ b.toNat ∧ b.toNat ≤ 57 := by
  simpa [isDigit, UInt8.le_iff_toNat_le] using h

theorem toNat_digitOf {b : UInt8} (h : isDigit b = true) : (digitOf b).toNat = b.toNat := by
  have hall : ∀ n < 58, (Char.ofNat n).toNat = n := by decide
  have hrange := toNat_range_of_isDigit h
  exact hall _ (by omega)

theorem isDigit_digitOf {b : UInt8} (h : isDigit b = true) : (digitOf b).isDigit = true := by
  have hall : ∀ n < 58, 48 ≤ n → (Char.ofNat n).isDigit = true := by decide
  have hrange := toNat_range_of_isDigit h
  exact hall _ (by omega) hrange.1

/-- Digits are characters of their own. -/
theorem decode_digits (h : ∀ b ∈ digits, isDigit b = true) :
    Utf8.decode digits = digits.map digitOf := by
  unfold Utf8.decode
  induction digits with
  | nil => rfl
  | cons b digits ih =>
    have hrange := toNat_range_of_isDigit (h b List.mem_cons_self)
    have hlead : Utf8.lead b = .whole (digitOf b) := by
      simp only [Utf8.lead, digitOf, if_pos (show b.toNat < 0x80 by omega)]
    simp only [Utf8.decodeFrom, hlead, List.map_cons,
      ih fun d hd => h d (List.mem_cons_of_mem b hd)]

theorem valueOf_eq_ofDigitChars (h : ∀ b ∈ digits, isDigit b = true) :
    valueOf digits = Nat.ofDigitChars 10 (Utf8.decode digits) 0 := by
  rw [decode_digits h, valueOf, Nat.ofDigitChars_eq_foldl, List.foldl_map]
  refine List.foldl_ext _ _ 0 fun value b hb => ?_
  rw [toNat_digitOf (h b hb)]
  rfl

theorem IsSize.eq_sizeOctets (h : IsSize digits size) : digits = sizeOctets size := by
  have hprinted : Nat.toDigits 10 size = digits.map digitOf := by
    rw [← h.value, valueOf_eq_ofDigitChars h.digit, decode_digits h.digit]
    refine Unsigned.toDigits_ofDigitChars (by simpa using h.ne_nil) ?_ ?_
    · intro c hc
      obtain ⟨b, hb, rfl⟩ := List.mem_map.mp hc
      exact isDigit_digitOf (h.digit b hb)
    · intro hhead
      simp only [List.head?_map, Option.map_eq_some_iff] at hhead
      obtain ⟨b, hb, hzero⟩ := hhead
      have hnat := toNat_digitOf (h.digit b (List.mem_of_mem_head? hb))
      have hbzero : b = zero := UInt8.toNat_inj.mp (by rw [← hnat, hzero]; rfl)
      rw [h.canonical (hbzero ▸ hb)]
      rfl
  have hoctets : digits.map (fun b => UInt8.ofNat (digitOf b).toNat) = digits.map id := by
    refine List.map_congr_left fun b hb => ?_
    rw [toNat_digitOf (h.digit b hb), UInt8.ofNat_toNat, id]
  rw [sizeOctets_eq_map, hprinted, List.map_map]
  exact (hoctets.trans (List.map_id digits)).symm

theorem isSize_sizeOctets (h : size ≤ Unsigned.max32) : IsSize (sizeOctets size) size where
  ne_nil := sizeOctets_ne_nil size
  digit _ hb := isDigit_of_mem_sizeOctets hb
  canonical hhead := by
    rw [head?_sizeOctets hhead]
    decide
  value := by
    rw [valueOf_eq_ofDigitChars fun _ hb => isDigit_of_mem_sizeOctets hb, sizeOctets,
      Utf8.decode_encode, Nat.ofDigitChars_ten_toDigits]
  bound := h

/-- **Digits that are accepted are a size.** -/
theorem isSize_of_size? (hdigits : ∀ b ∈ digits, isDigit b = true)
    (h : size? digits = .ok size) : IsSize digits size := by
  unfold size? at h
  split at h
  · simp at h
  · next hne =>
    split at h
    · simp at h
    · split at h
      · simp at h
      · next hlead =>
        have hchars : ∀ c ∈ Utf8.decode digits, c.isDigit = true := by
          intro c hc
          rw [decode_digits hdigits] at hc
          obtain ⟨b, hb, rfl⟩ := List.mem_map.mp hc
          exact isDigit_digitOf (hdigits b hb)
        have hcharsne : Utf8.decode digits ≠ [] := by
          rw [decode_digits hdigits]
          simpa using hne
        split at h
        · next n hparse =>
          cases h
          rw [Unsigned.parse_eq_readDigits hcharsne hchars] at hparse
          obtain ⟨hvalue, hbound⟩ := Unsigned.eq_ofDigitChars_of_readDigits (Nat.zero_le _) hparse
          refine ⟨hne, hdigits, fun hhead => ?_, ?_, hbound⟩
          · have hone : digits.length ≤ 1 := by
              by_contra hlong
              exact hlead ⟨by omega, hhead⟩
            obtain ⟨b, tail, rfl⟩ := List.exists_cons_of_ne_nil hne
            simp only [List.head?_cons, Option.some.injEq] at hhead
            simp only [List.length_cons] at hone
            rw [hhead, List.eq_nil_of_length_eq_zero (show tail.length = 0 by omega)]
          · rw [valueOf_eq_ofDigitChars hdigits, hvalue]
        · simp at h

/-! ## 2. Delimiters -/

/-- What a delimiter says about the octets that it is read from. -/
def Delimiter.Reads (buffer : List UInt8) : Delimiter → Prop
  | .unfinished => buffer.length ≤ 2 + maxDigits
  | .chunk size rest =>
    ∃ digits, IsSize digits size ∧ buffer = lf :: hash :: (digits ++ lf :: rest)
  | .endOfChunks rest => buffer = Framing.endOfChunks ++ rest
  | .invalid _ => True

theorem readSize_reads (octets : List UInt8) :
    (readSize octets).Reads (lf :: hash :: octets) := by
  have hdigits : ∀ b ∈ octets.takeWhile isDigit, isDigit b = true := fun _ hb =>
    List.mem_takeWhile_imp hb
  have hwhole := List.takeWhile_append_dropWhile (p := isDigit) (l := octets)
  unfold readSize readSizeEnd
  cases htail : octets.dropWhile isDigit with
  | nil =>
    rw [htail, List.append_nil] at hwhole
    simp only [hwhole]
    split
    · trivial
    · simp only [Delimiter.Reads, List.length_cons]
      omega
  | cons b tail =>
    dsimp only
    split
    · trivial
    · next hlf =>
      split
      · next size hsize =>
        rw [htail, not_not.mp hlf] at hwhole
        exact ⟨_, isSize_of_size? hdigits hsize, by rw [hwhole]⟩
      · trivial

theorem readKind_reads (octets : List UInt8) :
    (readKind octets).Reads (lf :: hash :: octets) := by
  rcases octets with _ | ⟨b, octets⟩
  · simp [readKind, Delimiter.Reads]
  · by_cases hb : b = hash
    · rcases octets with _ | ⟨c, octets⟩
      · simp [readKind, hb, Delimiter.Reads, maxDigits]
      · by_cases hc : c = lf <;> simp [readKind, hb, hc, Delimiter.Reads, Framing.endOfChunks]
    · simpa only [readKind, if_neg hb] using readSize_reads (b :: octets)

/-- **A delimiter is what stands in front of the octets.** -/
theorem readDelimiter_reads (buffer : List UInt8) :
    (readDelimiter buffer).Reads buffer := by
  rcases buffer with _ | ⟨b, _ | ⟨c, octets⟩⟩
  · simp [readDelimiter, Delimiter.Reads]
  · by_cases hb : b = lf <;> simp [readDelimiter, hb, Delimiter.Reads, maxDigits]
  · by_cases hb : b = lf
    · by_cases hc : c = hash
      · simpa only [readDelimiter, hb, hc, ne_eq, not_true, if_false] using readKind_reads octets
      · simp [readDelimiter, hb, hc, Delimiter.Reads]
    · simp [readDelimiter, hb, Delimiter.Reads]

theorem readDelimiter_of_isSize {digits : List UInt8} (h : IsSize digits size)
    (rest : List UInt8) :
    readDelimiter (lf :: hash :: (digits ++ lf :: rest)) = .chunk size rest := by
  have hheader := readDelimiter_chunkHeader h.bound rest
  rw [h.eq_sizeOctets]
  simpa [chunkHeader, sizeOctets] using hheader

/-! ## 3. Chunks -/

/-- A chunk on the wire: the digits of its size, and that many octets. -/
structure Chunk where
  digits : List UInt8
  payload : List UInt8
  isSize : IsSize digits payload.length

def Chunk.of (payload : List UInt8) (h : payload.length ≤ Unsigned.max32) : Chunk :=
  ⟨sizeOctets payload.length, payload, isSize_sizeOctets h⟩

def Chunk.octets (c : Chunk) : List UInt8 := lf :: hash :: (c.digits ++ lf :: c.payload)

def octetsOf (chunks : List Chunk) : List UInt8 := chunks.flatMap Chunk.octets

def payloadOf (chunks : List Chunk) : List UInt8 := chunks.flatMap Chunk.payload

theorem payloadOf_cons (c : Chunk) (chunks : List Chunk) :
    payloadOf (c :: chunks) = c.payload ++ payloadOf chunks := List.flatMap_cons

def Collected.addAll (collected : Collected) (chunks : List Chunk) : Collected :=
  ⟨collected.payload ++ payloadOf chunks, collected.chunks + chunks.length⟩

@[simp] theorem Collected.addAll_nil (collected : Collected) : collected.addAll [] = collected := by
  simp [addAll, payloadOf]

@[simp] theorem Collected.add_addAll (collected : Collected) (c : Chunk) (chunks : List Chunk) :
    (collected.add c.payload).addAll chunks = collected.addAll (c :: chunks) := by
  simp [addAll, add, payloadOf]
  omega

/-- **A pull goes over the chunks in front.** -/
theorem pull_octetsOf {chunks : List Chunk}
    (h : (collected.addAll chunks).payload.length ≤ limit) (rest : List UInt8) :
    pull limit collected (octetsOf chunks ++ rest) = pull limit (collected.addAll chunks) rest := by
  induction chunks generalizing collected with
  | nil => simp [octetsOf]
  | cons c chunks ih =>
    have hshape : octetsOf (c :: chunks) ++ rest =
        lf :: hash :: (c.digits ++ lf :: (c.payload ++ (octetsOf chunks ++ rest))) := by
      simp [octetsOf, Chunk.octets]
    have hfits : ¬ collected.payload.length + c.payload.length > limit := by
      simp only [Collected.addAll, payloadOf_cons, List.length_append] at h
      omega
    rw [hshape, pull_of_chunk (readDelimiter_of_isSize c.isSize _), if_neg hfits,
      if_neg (by simp), List.take_left, List.drop_left, ih (by simpa using h)]
    simp

/-- Where a pull cannot go on to a further chunk. -/
inductive Stop (limit : Nat) (collected : Collected) (buffer : List UInt8) : Pulled → Prop where
  | unfinished (h : readDelimiter buffer = .unfinished) :
      Stop limit collected buffer ⟨.incomplete, buffer, collected⟩
  | invalid {error : FrameError} (h : readDelimiter buffer = .invalid error) :
      Stop limit collected buffer ⟨.broken error, buffer, collected⟩
  | tooLarge {size : Nat} {rest : List UInt8} (h : readDelimiter buffer = .chunk size rest)
      (hlarge : collected.payload.length + size > limit) :
      Stop limit collected buffer ⟨.broken (.tooLarge limit), buffer, collected⟩
  | waiting {size : Nat} {rest : List UInt8} (h : readDelimiter buffer = .chunk size rest)
      (hfits : ¬ collected.payload.length + size > limit) (hshort : rest.length < size) :
      Stop limit collected buffer ⟨.incomplete, buffer, collected⟩
  | noChunk {rest : List UInt8} (h : readDelimiter buffer = .endOfChunks rest)
      (hnone : collected.chunks = 0) :
      Stop limit collected buffer ⟨.broken .noChunk, buffer, collected⟩
  | message {rest : List UInt8} (h : readDelimiter buffer = .endOfChunks rest)
      (hsome : collected.chunks ≠ 0) :
      Stop limit collected buffer ⟨.message (Utf8.decodeString collected.payload), rest, .nothing⟩

theorem Stop.pull {p : Pulled} (h : Stop limit collected buffer p) :
    pull limit collected buffer = p := by
  cases h with
  | unfinished h => exact pull_of_unfinished h
  | invalid h => exact pull_of_invalid h
  | tooLarge h hlarge => rw [pull_of_chunk h, if_pos hlarge]
  | waiting h hfits hshort => rw [pull_of_chunk h, if_neg hfits, if_pos hshort]
  | noChunk h hnone => rw [pull_of_endOfChunks h, if_pos hnone]
  | message h hsome => rw [pull_of_endOfChunks h, if_neg hsome]

/-- **A pull goes over chunks until it stops.** -/
theorem pull_stops (limit : Nat) (collected : Collected) (buffer : List UInt8) :
    ∃ chunks rest, buffer = octetsOf chunks ++ rest ∧
      (collected.payload.length ≤ limit → (collected.addAll chunks).payload.length ≤ limit) ∧
      Stop limit (collected.addAll chunks) rest (Chunked.pull limit collected buffer) := by
  have hnone : ∀ {collected : Collected} {buffer : List UInt8} {p : Pulled},
      Stop limit collected buffer p → ∃ chunks rest, buffer = octetsOf chunks ++ rest ∧
        (collected.payload.length ≤ limit → (collected.addAll chunks).payload.length ≤ limit) ∧
        Stop limit (collected.addAll chunks) rest p := by
    intro collected buffer p hstop
    exact ⟨[], buffer, rfl, by simp, by simpa using hstop⟩
  fun_induction Chunked.pull limit collected buffer with
  | case1 collected buffer h => exact hnone (.unfinished h)
  | case2 collected buffer error h => exact hnone (.invalid h)
  | case3 collected buffer size rest h hlarge => exact hnone (.tooLarge h hlarge)
  | case4 collected buffer size rest h hfits hshort => exact hnone (.waiting h hfits hshort)
  | case5 collected buffer size rest h hfits hthere ih =>
    have hreads := readDelimiter_reads buffer
    rw [h] at hreads
    obtain ⟨digits, hsize, hbuffer⟩ := hreads
    have hlen : (rest.take size).length = size := by
      rw [List.length_take]
      omega
    have hadd : (collected.add (rest.take size)).payload.length ≤ limit := by
      simp only [Collected.add, List.length_append, hlen]
      omega
    obtain ⟨chunks, behind, hrest, hall, hstop⟩ := ih
    let c : Chunk := ⟨digits, rest.take size, hlen.symm ▸ hsize⟩
    rw [show rest.take size = c.payload from rfl, Collected.add_addAll] at hall hstop
    refine ⟨c :: chunks, behind, ?_, fun _ => hall hadd, hstop⟩
    have htake := List.take_append_drop size rest
    rw [hrest] at htake
    rw [hbuffer, ← htake]
    simp [octetsOf, c, Chunk.octets]
  | case6 collected buffer rest h hchunks => exact hnone (.noChunk h hchunks)
  | case7 collected buffer rest h hchunks => exact hnone (.message h hchunks)

/-- **What is pulled off as a message is chunks and an end marker.** -/
theorem exists_chunks_of_message {text : String} {behind : Collected}
    (hheld : collected.payload.length ≤ limit)
    (h : pull limit collected buffer = ⟨.message text, rest, behind⟩) :
    ∃ chunks, buffer = octetsOf chunks ++ (Framing.endOfChunks ++ rest) ∧
      (collected.addAll chunks).payload.length ≤ limit ∧ (collected.addAll chunks).chunks ≠ 0 ∧
      text = Utf8.decodeString (collected.addAll chunks).payload ∧ behind = .nothing := by
  obtain ⟨chunks, front, hbuffer, hfits, hstop⟩ := pull_stops limit collected buffer
  rw [h] at hstop
  cases hstop with
  | message hdelimiter hsome =>
    have hreads := readDelimiter_reads front
    rw [hdelimiter] at hreads
    exact ⟨chunks, hreads ▸ hbuffer, hfits hheld, hsome, rfl, rfl⟩

/-- **A pull that waits has gone over chunks only.** -/
theorem exists_chunks_of_incomplete {behind : Collected}
    (hheld : collected.payload.length ≤ limit)
    (h : pull limit collected buffer = ⟨.incomplete, rest, behind⟩) :
    ∃ chunks, buffer = octetsOf chunks ++ rest ∧ behind = collected.addAll chunks ∧
      behind.payload.length ≤ limit ∧ Stop limit behind rest ⟨.incomplete, rest, behind⟩ := by
  obtain ⟨chunks, front, hbuffer, hfits, hstop⟩ := pull_stops limit collected buffer
  rw [h] at hstop
  cases hstop with
  | unfinished hdelimiter => exact ⟨chunks, hbuffer, rfl, hfits hheld, .unfinished hdelimiter⟩
  | waiting hdelimiter hroom hshort =>
    exact ⟨chunks, hbuffer, rfl, hfits hheld, .waiting hdelimiter hroom hshort⟩

/-! ## 4. Frames -/

def totalSize (chunks : List Chunk) : Nat :=
  chunks.foldr (fun c total => c.payload.length + total) 0

/-- A message on the wire: one or more chunks of at most `limit` octets altogether. -/
structure Frame (limit : Nat) where
  chunks : List Chunk
  ne_nil : chunks ≠ []
  fits : totalSize chunks ≤ limit

def Frame.octets (frame : Frame limit) : List UInt8 :=
  octetsOf frame.chunks ++ Framing.endOfChunks

def Frame.text (frame : Frame limit) : String := Utf8.decodeString (payloadOf frame.chunks)

theorem length_payloadOf (chunks : List Chunk) :
    (payloadOf chunks).length = totalSize chunks := by
  induction chunks with
  | nil => rfl
  | cons c chunks ih =>
    rw [payloadOf_cons, List.length_append, ih]
    rfl

/-- **A frame is pulled off whatever follows it.** -/
theorem pull_frame (frame : Frame limit) (rest : List UInt8) :
    pull limit .nothing (frame.octets ++ rest) = ⟨.message frame.text, rest, .nothing⟩ := by
  have hfits : ((Collected.nothing).addAll frame.chunks).payload.length ≤ limit := by
    simpa [Collected.addAll, Collected.nothing, length_payloadOf] using frame.fits
  have hsome : ((Collected.nothing).addAll frame.chunks).chunks ≠ 0 := by
    simpa [Collected.addAll, Collected.nothing] using frame.ne_nil
  rw [Frame.octets, List.append_assoc, pull_octetsOf hfits,
    (Stop.message (readDelimiter_endOfChunks rest) hsome).pull]
  simp [Collected.addAll, Collected.nothing, Frame.text]

end Framing.Chunked

/-! ## 5. Streams -/

namespace Framer

open Framing Framing.Chunked

variable {limit : Nat}

/-- Nothing is buffered and no chunk is collected. -/
def Idle (f : Framer) : Prop :=
  f.buffer = [] ∧ ∀ collected, f.decoder = .chunked collected → collected.chunks = 0

theorem drain_frames (frames : List (Frame limit)) :
    drain ⟨frames.flatMap Frame.octets, .chunked .nothing, limit⟩ =
      (frames.map Frame.text, none, ⟨[], .chunked .nothing, limit⟩) := by
  induction frames with
  | nil => exact drain_of_incomplete next_chunked_nil
  | cons frame frames ih =>
    have hnext : next ⟨(frame :: frames).flatMap Frame.octets, .chunked .nothing, limit⟩ =
        (.message frame.text, ⟨frames.flatMap Frame.octets, .chunked .nothing, limit⟩) := by
      simp only [next, List.flatMap_cons, pull_frame]
    rw [drain_of_message hnext, ih, List.map_cons]

/-- **What is drained to the last octet is frames.** -/
theorem exists_frames {octets : List UInt8} {texts : List String} {last : Framer}
    (h : drain ⟨octets, .chunked .nothing, limit⟩ = (texts, none, last)) (hidle : last.Idle) :
    ∃ frames : List (Frame limit), octets = frames.flatMap Frame.octets := by
  induction hlen : octets.length using Nat.strong_induction_on generalizing octets texts with
  | _ n ih =>
    rcases hpull : Chunked.pull limit .nothing octets with ⟨result, rest, behind⟩
    have hnext : next ⟨octets, .chunked .nothing, limit⟩ =
        (result, ⟨rest, .chunked behind, limit⟩) := by
      simp only [next, hpull]
    cases result with
    | message text =>
      obtain ⟨chunks, hoctets, hfits, hsome, -, rfl⟩ :=
        exists_chunks_of_message (Nat.zero_le _) hpull
      rw [drain_of_message hnext] at h
      simp only [Prod.mk.injEq] at h
      obtain ⟨frames, hrest⟩ :=
        ih rest.length (hlen ▸ next_buffer_lt hnext) (Prod.ext rfl (Prod.ext h.2.1 h.2.2)) rfl
      have hne : chunks ≠ [] := by
        rintro rfl
        exact hsome rfl
      have hsum : totalSize chunks ≤ limit := by
        simpa [Collected.addAll, Collected.nothing, length_payloadOf] using hfits
      exact ⟨⟨chunks, hne, hsum⟩ :: frames, by simp [hoctets, hrest, Frame.octets]⟩
    | incomplete =>
      obtain ⟨chunks, hoctets, hbehind, -⟩ := exists_chunks_of_incomplete (Nat.zero_le _) hpull
      rw [drain_of_incomplete hnext] at h
      simp only [Prod.mk.injEq] at h
      obtain ⟨-, -, rfl⟩ := h
      -- no chunk is held, so the pull has gone over none
      have hnone := hidle.2 behind rfl
      have hnil : chunks = [] := by simpa [hbehind, Collected.addAll, Collected.nothing] using hnone
      have hrest : rest = [] := hidle.1
      exact ⟨[], by simp [hoctets, hnil, hrest, octetsOf]⟩
    | broken error =>
      rw [drain_of_broken hnext] at h
      simp at h

theorem feed_upgrade_start (octets : List UInt8) {texts : List String} {g : Framer} :
    (start limit).upgrade.feed octets = (.ok texts, g) ↔
      drain ⟨octets, .chunked .nothing, limit⟩ = (texts, none, g) := feed_eq_ok_iff

/-- **The streams that are accepted to the last octet are those made of frames.**  What is read
    from them is their payloads, however these are cut into chunks, and no beginning of such a
    stream is refused. -/
theorem feed_ok_iff_frames (limit : Nat) (octets : List UInt8) :
    ((∃ texts g, (start limit).upgrade.feed octets = (.ok texts, g) ∧ g.Idle) ↔
      ∃ frames : List (Frame limit), octets = frames.flatMap Frame.octets) ∧
    ∀ frames : List (Frame limit), octets = frames.flatMap Frame.octets →
      (start limit).upgrade.feed octets =
        (.ok (frames.map Frame.text), ⟨[], .chunked .nothing, limit⟩) ∧
      ∀ part, part <+: octets → ∃ texts g, (start limit).upgrade.feed part = (.ok texts, g) := by
  refine ⟨⟨?_, ?_⟩, ?_⟩
  · rintro ⟨texts, g, hfeed, hidle⟩
    exact exists_frames (feed_upgrade_start octets |>.mp hfeed) hidle
  · rintro ⟨frames, rfl⟩
    refine ⟨_, _, (feed_upgrade_start _).mpr (drain_frames frames), rfl, ?_⟩
    rintro collected h
    cases h
    rfl
  · rintro frames rfl
    refine ⟨(feed_upgrade_start _).mpr (drain_frames frames), ?_⟩
    rintro part ⟨more, hwhole⟩
    -- the whole stream drains without an error, so its beginning does
    have hdrain := drain_frames frames
    rw [← hwhole] at hdrain
    obtain ⟨front, g, -, hfront, -⟩ :=
      drain_of_drain_extend (f := ⟨part, .chunked .nothing, limit⟩) trivial hdrain
    exact ⟨front, g, (feed_upgrade_start part).mpr hfront⟩

/-- A character cut into two chunks with an empty one between them, and a payload that looks
    like an end marker. -/
def splitFrames : List (Frame 16) :=
  [⟨[.of [0xC3] (by decide), .of [] (by decide), .of [0xA4] (by decide)], by simp, by decide⟩,
    ⟨[.of (Utf8.encodeString "\n##\n") (by decide)], by simp, by decide⟩]

theorem feed_ok_iff_frames_split :
    (start 16).upgrade.feed (splitFrames.flatMap Frame.octets) =
        (.ok ["ä", "\n##\n"], ⟨[], .chunked .nothing, 16⟩) ∧
      ∃ texts g, (start 16).upgrade.feed ((splitFrames.flatMap Frame.octets).take 9) =
        (.ok texts, g) := by
  have htexts : splitFrames.map Frame.text = ["ä", "\n##\n"] := by decide +kernel
  obtain ⟨hfeed, hpart⟩ :=
    (feed_ok_iff_frames 16 (splitFrames.flatMap Frame.octets)).2 splitFrames rfl
  rw [htexts] at hfeed
  exact ⟨hfeed, hpart _ (List.take_prefix 9 _)⟩

end Framer

end NetconfClient
