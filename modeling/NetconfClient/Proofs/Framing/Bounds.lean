/-
  NetconfClient/Proofs/Framing/Bounds.lean
  ========================================
  **What a framer holds is bounded, and the bound is exact.**

  The pulls are written once more with a cursor into the buffer and with every
  slice checked (`Terminated.pull?`, `Chunked.scan?`); they never fail and give
  what the pulls give.  A framer `Carries` a body when its octets begin with what
  is left of a frame around that body.  Messages come from bodies within the
  limit (`carries_of_message`), and a body within the limit is never refused,
  however much of its frame has arrived (`next_of_carries`).  All of it holds
  after every run (`measured_after`).
-/
import NetconfClient.Proofs.Framing.Grammar

namespace NetconfClient

open Text Framing

/-! ## 1. Slices -/

namespace Framing

/-- The octets from `start` up to `stop`, where that range lies within them. -/
def slice? (octets : List UInt8) (start stop : Nat) : Option (List UInt8) :=
  if start ≤ stop ∧ stop ≤ octets.length then some ((octets.take stop).drop start) else none

variable {octets : List UInt8} {start stop : Nat}

theorem slice?_of_le (h : start ≤ stop) (h' : stop ≤ octets.length) :
    slice? octets start stop = some ((octets.take stop).drop start) := if_pos ⟨h, h'⟩

theorem slice?_length (h : start ≤ octets.length) :
    slice? octets start octets.length = some (octets.drop start) := by
  rw [slice?_of_le h (Nat.le_refl _), List.take_length]

theorem eq_drop_of_slice? {part : List UInt8}
    (h : slice? octets start octets.length = some part) : part = octets.drop start := by
  unfold slice? at h
  split at h
  · rw [List.take_length, Option.some.injEq] at h
    exact h.symm
  · simp at h

theorem suffix_of_slice? {part : List UInt8}
    (h : slice? octets start octets.length = some part) : part <:+ octets :=
  eq_drop_of_slice? h ▸ List.drop_suffix start octets

theorem length_of_slice? {part : List UInt8} (h : slice? octets start stop = some part) :
    part.length = stop - start := by
  unfold slice? at h
  split at h
  · simp only [Option.some.injEq] at h
    simp only [← h, List.length_drop, List.length_take]
    omega
  · simp at h

end Framing

/-! ## 2. Terminated messages -/

namespace Framing.Terminated

variable {limit searched : Nat} {buffer : List UInt8}

/-- `pull` with every slice checked: what is searched, the message, and what is left. -/
def pull? (limit searched : Nat) (buffer : List UInt8) : Option Pulled :=
  (slice? buffer searched buffer.length).bind fun unsearched =>
    match find? unsearched with
    | none => some (missed limit (buffer.length - overlap) buffer)
    | some pos =>
      let stop := searched + pos
      if stop > limit then some ⟨.broken (.tooLarge limit), buffer, searched⟩
      else
        (slice? buffer 0 stop).bind fun message =>
          (slice? buffer (stop + terminator.length) buffer.length).map fun rest =>
            ⟨.message (body message), rest, 0⟩

/-- **No slice is out of range while the search begins within the buffer.** -/
theorem pull?_eq (h : searched ≤ buffer.length) :
    pull? limit searched buffer = some (pull limit searched buffer) := by
  rw [pull?, slice?_length h, Option.bind_some, pull]
  cases hfind : find? (buffer.drop searched) with
  | none => rfl
  | some pos =>
    have hlen := add_length_le_of_find? hfind
    rw [List.length_drop] at hlen
    dsimp only [found]
    split
    · rfl
    · rw [slice?_of_le (Nat.zero_le _) (by omega), Option.bind_some, slice?_length (by omega)]
      rfl

theorem Searched.le_length (h : Searched searched buffer) : searched ≤ buffer.length := by
  rcases searched with _ | searched
  · exact Nat.zero_le _
  · obtain ⟨hlen, -⟩ := h searched (Nat.lt_succ_self searched)
    have hpos : 0 < terminator.length := by decide
    omega

theorem pull_of_incomplete (h : (pull limit searched buffer).result = .incomplete) :
    pull limit searched buffer = ⟨.incomplete, buffer, buffer.length - overlap⟩ ∧
      buffer.length - overlap ≤ limit := by
  unfold pull found missed at h ⊢
  split at h
  · split at h <;> simp at h
  · split at h
    · simp at h
    · next hnone hlimit => simp only [if_neg hlimit]; exact ⟨trivial, by omega⟩

/-- **What is pulled off as a message stands before the first terminator.** -/
theorem exists_body_of_message {text : String} (hsearched : Searched searched buffer)
    (h : (pull limit searched buffer).result = .message text) :
    ∃ octets, buffer = octets ++ (terminator ++ (pull limit searched buffer).buffer) ∧
      find? buffer = some octets.length ∧ octets.length ≤ limit ∧ text = body octets := by
  rw [pull_of_searched hsearched] at h ⊢
  cases hfind : find? buffer with
  | none =>
    simp only [hfind, missed] at h
    split at h <;> simp at h
  | some stop =>
    simp only [hfind, found] at h ⊢
    have hlen := add_length_le_of_find? hfind
    have hstop : (buffer.take stop).length = stop := List.length_take_of_le (by omega)
    split at h
    · simp at h
    · next hlimit =>
      obtain ⟨behind, hbehind⟩ := (find?_eq_some_iff.mp hfind).1
      simp only [if_neg hlimit]
      refine ⟨buffer.take stop, ?_, by rw [hstop], by omega, by simpa using h.symm⟩
      rw [← List.drop_drop, ← hbehind, List.drop_left, hbehind, List.take_append_drop]

end Framing.Terminated

/-! ## 3. Chunks -/

namespace Framing.Chunked

variable {limit cursor : Nat} {collected : Collected} {buffer rest rest' : List UInt8}

/-- `pull` with a cursor in place of what is left, and with every slice checked. -/
def scan? (limit : Nat) (buffer : List UInt8) (cursor : Nat) (collected : Collected) :
    Option Pulled :=
  match _h : slice? buffer cursor buffer.length with
  | none => none
  | some ahead =>
    match _hd : readDelimiter ahead with
    | .unfinished => some ⟨.incomplete, ahead, collected⟩
    | .invalid error => some ⟨.broken error, ahead, collected⟩
    | .chunk size rest =>
      let start := buffer.length - rest.length
      if collected.payload.length + size > limit then
        some ⟨.broken (.tooLarge limit), ahead, collected⟩
      else if buffer.length < start + size then some ⟨.incomplete, ahead, collected⟩
      else
        match slice? buffer start (start + size) with
        | none => none
        | some chunk => scan? limit buffer (start + size) (collected.add chunk)
    | .endOfChunks rest =>
      if collected.chunks = 0 then some ⟨.broken .noChunk, ahead, collected⟩
      else
        (slice? buffer (buffer.length - rest.length) buffer.length).map fun left =>
          ⟨.message (Utf8.decodeString collected.payload), left, .nothing⟩
termination_by buffer.length - cursor
decreasing_by
  have hlen := length_of_slice? _h
  have hrest := readDelimiter_chunk_length _hd
  omega

theorem drop_of_suffix (h : rest <:+ buffer) : buffer.drop (buffer.length - rest.length) = rest :=
  (List.suffix_iff_eq_drop.mp h).symm

theorem suffix_of_chunk {size : Nat} (h : readDelimiter buffer = .chunk size rest) :
    rest <:+ buffer := by
  have hreads := readDelimiter_reads buffer
  rw [h] at hreads
  obtain ⟨digits, -, rfl⟩ := hreads
  exact ⟨lf :: hash :: (digits ++ [lf]), by simp⟩

theorem suffix_of_endOfChunks (h : readDelimiter buffer = .endOfChunks rest) :
    rest <:+ buffer := by
  have hreads := readDelimiter_reads buffer
  rw [h] at hreads
  exact ⟨_, hreads.symm⟩

/-- **No slice is out of range while the cursor is within the buffer.** -/
theorem scan?_eq (h : cursor ≤ buffer.length) :
    scan? limit buffer cursor collected = some (pull limit collected (buffer.drop cursor)) := by
  fun_induction scan? limit buffer cursor collected with
  | case1 cursor collected hslice =>
    rw [slice?_length h] at hslice
    simp at hslice
  | case2 cursor collected ahead hslice hd =>
    rw [← eq_drop_of_slice? hslice, pull_of_unfinished hd]
  | case3 cursor collected ahead hslice error hd =>
    rw [← eq_drop_of_slice? hslice, pull_of_invalid hd]
  | case4 cursor collected ahead hslice size rest hd hlarge =>
    rw [← eq_drop_of_slice? hslice, pull_of_chunk hd, if_pos hlarge]
  | case5 cursor collected ahead hslice size rest hd start hfits hshort =>
    have hlen := ((suffix_of_chunk hd).trans (suffix_of_slice? hslice)).length_le
    rw [← eq_drop_of_slice? hslice, pull_of_chunk hd, if_neg hfits, if_pos (by omega)]
  | case6 cursor collected ahead hslice size rest hd start hfits hthere hnone =>
    rw [slice?_of_le (by omega) (by omega)] at hnone
    simp at hnone
  | case7 cursor collected ahead hslice size rest hd start hfits hthere chunk hchunk ih =>
    have hsuffix := (suffix_of_chunk hd).trans (suffix_of_slice? hslice)
    have hlen := hsuffix.length_le
    have hrest : buffer.drop start = rest := drop_of_suffix hsuffix
    rw [slice?_of_le (by omega) (by omega), Option.some.injEq, List.drop_take, hrest,
      Nat.add_sub_cancel_left] at hchunk
    rw [← eq_drop_of_slice? hslice, pull_of_chunk hd, if_neg hfits, if_neg (by omega),
      ih (by omega), ← hchunk, ← List.drop_drop, hrest]
  | case8 cursor collected ahead hslice rest hd hnone =>
    rw [← eq_drop_of_slice? hslice, pull_of_endOfChunks hd, if_pos hnone]
  | case9 cursor collected ahead hslice rest hd hsome =>
    have hsuffix := (suffix_of_endOfChunks hd).trans (suffix_of_slice? hslice)
    rw [← eq_drop_of_slice? hslice, pull_of_endOfChunks hd, if_neg hsome,
      slice?_length (Nat.sub_le _ _), drop_of_suffix hsuffix]
    rfl

/-- **A pull that waits holds less than a whole delimiter and a whole chunk.** -/
theorem held_of_stop (hheld : collected.payload.length ≤ limit)
    (h : Stop limit collected rest ⟨.incomplete, rest, collected⟩) :
    rest.length + collected.payload.length ≤ limit + 12 := by
  have hreads := readDelimiter_reads rest
  cases h with
  | unfinished h =>
    rw [h] at hreads
    simp only [Delimiter.Reads, maxDigits] at hreads
    omega
  | waiting h hfits hshort =>
    rw [h] at hreads
    obtain ⟨digits, hsize, hrest⟩ := hreads
    have hdigits : digits.length ≤ 10 := by
      rw [hsize.eq_sizeOctets, length_sizeOctets]
      exact Unsigned.length_toDigits_le_ten hsize.bound
    simp only [hrest, List.length_cons, List.length_append]
    omega

theorem length_payload_pull_le (h : collected.payload.length ≤ limit) (buffer : List UInt8) :
    (pull limit collected buffer).collected.payload.length ≤ limit := by
  obtain ⟨chunks, front, -, hfits, hstop⟩ := pull_stops limit collected buffer
  have hall := hfits h
  -- a message leaves nothing behind, anything else what the pull went over
  generalize pull limit collected buffer = p at hstop ⊢
  cases hstop with
  | message => exact Nat.zero_le _
  | unfinished | invalid | tooLarge | waiting | noChunk => exact hall

/-- **Octets are chunks and an end marker in one way only.** -/
theorem octetsOf_cancel {chunks chunks' : List Chunk}
    (h : octetsOf chunks ++ (Framing.endOfChunks ++ rest) =
      octetsOf chunks' ++ (Framing.endOfChunks ++ rest')) :
    payloadOf chunks = payloadOf chunks' ∧ rest = rest' := by
  have hcons : ∀ (c : Chunk) (chunks : List Chunk) (rest : List UInt8),
      readDelimiter (octetsOf (c :: chunks) ++ (Framing.endOfChunks ++ rest)) =
        .chunk c.payload.length (c.payload ++ (octetsOf chunks ++ (Framing.endOfChunks ++ rest))) := by
    intro c chunks rest
    rw [← readDelimiter_of_isSize c.isSize]
    simp [octetsOf, Chunk.octets]
  have hnil : ∀ rest : List UInt8,
      readDelimiter (octetsOf [] ++ (Framing.endOfChunks ++ rest)) = .endOfChunks rest := fun rest =>
    readDelimiter_endOfChunks rest
  induction chunks generalizing chunks' with
  | nil =>
    have hread := congrArg readDelimiter h
    cases chunks' with
    | nil =>
      rw [hnil, hnil, Delimiter.endOfChunks.injEq] at hread
      exact ⟨rfl, hread⟩
    | cons c' chunks' =>
      rw [hnil, hcons] at hread
      simp at hread
  | cons c chunks ih =>
    have hread := congrArg readDelimiter h
    cases chunks' with
    | nil =>
      rw [hnil, hcons] at hread
      simp at hread
    | cons c' chunks' =>
      rw [hcons, hcons, Delimiter.chunk.injEq] at hread
      obtain ⟨hpayload, hbehind⟩ := List.append_inj hread.2 hread.1
      obtain ⟨hpayloads, hrest⟩ := ih hbehind
      exact ⟨by rw [payloadOf_cons, payloadOf_cons, hpayload, hpayloads], hrest⟩

end Framing.Chunked

/-! ## 4. Framers -/

namespace Framing

def textOf : Framing → List UInt8 → String
  | .endOfMessage, body => Terminated.body body
  | .chunked, body => Utf8.decodeString body

end Framing

namespace Framer

open Framing

variable {f g : Framer} {limit : Nat} {body body' rest rest' more : List UInt8} {text : String}

def next? (f : Framer) : Option (Pull × Framer) :=
  match f.decoder with
  | .terminated searched =>
    (Terminated.pull? f.limit searched f.buffer).map fun p =>
      (p.result, { f with buffer := p.buffer, decoder := .terminated p.searched })
  | .chunked collected =>
    (Chunked.scan? f.limit f.buffer 0 collected).map fun p =>
      (p.result, { f with buffer := p.buffer, decoder := .chunked p.collected })

theorem next?_eq (hf : f.Sound) : f.next? = some f.next := by
  obtain ⟨buffer, decoder, limit⟩ := f
  cases decoder with
  | terminated searched =>
    simp only [next?, next, Terminated.pull?_eq (Terminated.Searched.le_length hf), Option.map_some]
  | chunked collected =>
    simp only [next?, next, Chunked.scan?_eq (Nat.zero_le _), List.drop_zero, Option.map_some]

def Within (f : Framer) : Prop :=
  ∀ collected, f.decoder = .chunked collected → collected.payload.length ≤ f.limit

theorem Within.next (h : f.Within) : f.next.2.Within := by
  obtain ⟨buffer, decoder, limit⟩ := f
  intro behind hbehind
  cases decoder with
  | terminated searched => simp [Framer.next] at hbehind
  | chunked collected =>
    simp only [Framer.next, Decoder.chunked.injEq] at hbehind ⊢
    rw [← hbehind]
    exact Chunked.length_payload_pull_le (h collected rfl) buffer

theorem Within.upgrade (h : f.Within) : f.upgrade.Within := by
  obtain ⟨buffer, decoder, limit⟩ := f
  cases decoder with
  | terminated searched =>
    intro collected hcollected
    cases hcollected
    exact Nat.zero_le _
  | chunked collected => exact h

theorem within_after (limit : Nat) (acts : List Act) : ((start limit).after acts).Within :=
  after_keeps (fun _ _ h => h) (fun _ h => h.next) (fun _ h => h.upgrade)
    (fun _ h => by simp [start] at h) acts

/-- What a framer holds while it waits for a message within the limit. -/
def Waits (limit : Nat) (f : Framer) : Prop :=
  match f.decoder with
  | .terminated _ => f.buffer.length ≤ limit + 5
  | .chunked collected => f.buffer.length + collected.payload.length ≤ limit + 12

theorem waits_of_incomplete (hw : f.Within) (h : f.next = (.incomplete, g)) : g.Waits f.limit := by
  obtain ⟨buffer, decoder, limit⟩ := f
  cases decoder with
  | terminated searched =>
    simp only [next, Prod.mk.injEq] at h
    obtain ⟨hresult, rfl⟩ := h
    obtain ⟨hpull, hlimit⟩ := Terminated.pull_of_incomplete hresult
    simp only [Waits, hpull]
    have hoverlap : Terminated.overlap = 5 := rfl
    omega
  | chunked collected =>
    simp only [next, Prod.mk.injEq] at h
    obtain ⟨hresult, rfl⟩ := h
    obtain ⟨chunks, -, -, hfits, hstop⟩ :=
      Chunked.exists_chunks_of_incomplete (hw collected rfl) (by rw [← hresult])
    exact Chunked.held_of_stop hfits hstop

/-- The octets begin with what is left of a frame around `body`, and `rest` follows it. -/
def Carries (f : Framer) (body rest : List UInt8) : Prop :=
  match f.decoder with
  | .terminated _ =>
    f.buffer = body ++ (terminator ++ rest) ∧ Terminated.find? f.buffer = some body.length
  | .chunked collected =>
    ∃ chunks, f.buffer = Chunked.octetsOf chunks ++ (endOfChunks ++ rest) ∧
      body = (collected.addAll chunks).payload ∧ (collected.addAll chunks).chunks ≠ 0

/-- **There is one body at most at the front of the octets.** -/
theorem Carries.unique (h : f.Carries body rest) (h' : f.Carries body' rest') :
    body = body' ∧ rest = rest' := by
  obtain ⟨buffer, decoder, limit⟩ := f
  cases decoder with
  | terminated searched =>
    obtain ⟨hbuffer, hfind⟩ := h
    obtain ⟨hbuffer', hfind'⟩ := h'
    have hlen : body.length = body'.length := Option.some.inj (hfind.symm.trans hfind')
    obtain ⟨hbody, hbehind⟩ := List.append_inj (hbuffer.symm.trans hbuffer') hlen
    exact ⟨hbody, List.append_cancel_left hbehind⟩
  | chunked collected =>
    obtain ⟨chunks, hbuffer, hbody, -⟩ := h
    obtain ⟨chunks', hbuffer', hbody', -⟩ := h'
    obtain ⟨hpayload, hrest⟩ := Chunked.octetsOf_cancel (hbuffer.symm.trans hbuffer')
    refine ⟨?_, hrest⟩
    rw [hbody, hbody', Chunked.Collected.addAll, Chunked.Collected.addAll, hpayload]

/-- **A body within the limit is pulled off.** -/
theorem message_of_carries (hf : f.Sound) (h : f.Carries body rest)
    (hfits : body.length ≤ f.limit) :
    ∃ g, f.next = (.message (f.framing.textOf body), g) ∧ g.buffer = rest := by
  obtain ⟨buffer, decoder, limit⟩ := f
  cases decoder with
  | terminated searched =>
    obtain ⟨hbuffer, hfind⟩ := h
    have hpull : Terminated.pull limit searched buffer =
        ⟨.message (Terminated.body body), rest, 0⟩ := by
      have hbehind : (body ++ (terminator ++ rest)).drop (body.length + terminator.length) = rest := by
        rw [← List.append_assoc, ← List.length_append, List.drop_left]
      simp only at hfind hbuffer hfits
      rw [Terminated.pull_of_searched hf, hfind]
      simp only [Terminated.found, if_neg (Nat.not_lt.mpr hfits), hbuffer, List.take_left, hbehind]
    exact ⟨_, by simp only [next, hpull]; rfl, rfl⟩
  | chunked collected =>
    obtain ⟨chunks, hbuffer, hbody, hsome⟩ := h
    have hpull : Chunked.pull limit collected buffer =
        ⟨.message (Utf8.decodeString body), rest, .nothing⟩ := by
      simp only at hbuffer hfits
      rw [hbuffer, Chunked.pull_octetsOf (hbody ▸ hfits), hbody]
      exact (Chunked.Stop.message (Chunked.readDelimiter_endOfChunks rest) hsome).pull
    exact ⟨_, by simp only [next, hpull]; rfl, rfl⟩

/-- **What is pulled off is a body within the limit.** -/
theorem carries_of_message (hf : f.Sound) (hw : f.Within) (h : f.next = (.message text, g)) :
    ∃ body, f.Carries body g.buffer ∧ body.length ≤ f.limit ∧ text = f.framing.textOf body := by
  obtain ⟨buffer, decoder, limit⟩ := f
  cases decoder with
  | terminated searched =>
    simp only [next, Prod.mk.injEq] at h
    obtain ⟨hresult, rfl⟩ := h
    obtain ⟨body, hbuffer, hfind, hfits, htext⟩ := Terminated.exists_body_of_message hf hresult
    exact ⟨body, ⟨hbuffer, hfind⟩, hfits, htext⟩
  | chunked collected =>
    simp only [next, Prod.mk.injEq] at h
    obtain ⟨hresult, rfl⟩ := h
    obtain ⟨chunks, hbuffer, hfits, hsome, htext, -⟩ :=
      Chunked.exists_chunks_of_message (hw collected rfl) (by rw [← hresult])
    exact ⟨_, ⟨chunks, hbuffer, rfl, hsome⟩, hfits, htext⟩

/-- What a pull that waits has gone over belongs to the same body. -/
theorem carries_of_incomplete (hw : f.Within) (hnext : f.next = (.incomplete, g))
    (h : (g.extend more).Carries body rest) : (f.extend more).Carries body rest := by
  obtain ⟨buffer, decoder, limit⟩ := f
  cases decoder with
  | terminated searched =>
    simp only [next, Prod.mk.injEq] at hnext
    obtain ⟨hresult, rfl⟩ := hnext
    rw [(Terminated.pull_of_incomplete hresult).1] at h
    exact h
  | chunked collected =>
    simp only [next, Prod.mk.injEq] at hnext
    obtain ⟨hresult, rfl⟩ := hnext
    obtain ⟨front, hfront, hbehind, -, -⟩ :=
      Chunked.exists_chunks_of_incomplete (hw collected rfl) (by rw [← hresult])
    obtain ⟨chunks, hbuffer, hbody, hsome⟩ := h
    simp only [extend] at hbuffer hbody hsome
    rw [hbehind] at hbody hsome
    refine ⟨front ++ chunks, ?_, ?_, ?_⟩
    · simp only [extend]
      rw [hfront, List.append_assoc, hbuffer]
      simp [Chunked.octetsOf]
    · simpa [Chunked.Collected.addAll, Chunked.payloadOf] using hbody
    · simpa [Chunked.Collected.addAll] using hsome

/-- **A body within the limit is not refused, however much of its frame has arrived.** -/
theorem next_of_carries (hf : f.Sound) (hw : f.Within) (h : (f.extend more).Carries body rest)
    (hfits : body.length ≤ f.limit) :
    (∃ g, f.next = (.message (f.framing.textOf body), g) ∧ g.buffer ++ more = rest) ∨
      ∃ g, f.next = (.incomplete, g) ∧ (g.extend more).Carries body rest := by
  obtain ⟨last, hlast, hrest⟩ := message_of_carries (hf.extend more) h hfits
  have hpersists := next_extend hf more
  rcases hpull : f.next with ⟨result, g⟩
  rw [hpull, hlast] at hpersists
  cases result with
  | message text =>
    simp only [Persists, Prod.mk.injEq, Pull.message.injEq] at hpersists
    obtain ⟨htext, rfl⟩ := hpersists
    exact Or.inl ⟨g, by rw [← htext]; rfl, hrest⟩
  | incomplete =>
    refine Or.inr ⟨g, rfl, ?_⟩
    rcases hpersists with heq | ⟨⟨error, k, hbroken⟩, -⟩
    · have hgw : (g.extend more).Within := by
        have hgw := hw.next
        rw [hpull] at hgw
        exact hgw
      obtain ⟨body', hcarries, -⟩ :=
        carries_of_message ((hf.next hpull).extend more) hgw heq.symm
      obtain ⟨rfl, hrest'⟩ := (carries_of_incomplete hw hpull hcarries).unique h
      rwa [← hrest']
    · simp at hbroken
  | broken error =>
    obtain ⟨error', k, hbroken⟩ := hpersists
    simp at hbroken

/-- Behind octets that have arrived and `n` pulls. -/
def pulled (f : Framer) (octets : List UInt8) (n : Nat) : Framer :=
  f.after (.extend octets :: .replicate n .next)

/-- What the limit means for a framer. -/
structure Measured (limit : Nat) (f : Framer) : Prop where
  /-- No slice of a pull is out of range. -/
  sliced : f.next? = some f.next
  offset : ∀ searched, f.decoder = .terminated searched → searched ≤ f.buffer.length
  collected : ∀ collected, f.decoder = .chunked collected → collected.payload.length ≤ limit
  waiting : ∀ g, f.next = (.incomplete, g) → g.Waits limit
  /-- A message is the body at the front, and that is within the limit. -/
  emitted : ∀ text g, f.next = (.message text, g) →
    (∃ body, f.Carries body g.buffer) ∧
      ∀ body rest, f.Carries body rest →
        body.length ≤ limit ∧ text = f.framing.textOf body ∧ rest = g.buffer
  /-- A body within the limit comes out or is waited for, whatever is still to arrive. -/
  admitted : ∀ more body rest, (f.extend more).Carries body rest → body.length ≤ limit →
    (∃ g, f.next = (.message (f.framing.textOf body), g) ∧ g.buffer ++ more = rest) ∨
      ∃ g, f.next = (.incomplete, g) ∧ (g.extend more).Carries body rest
  /-- A feed is made of pulls, one after the other. -/
  fed : ∀ octets,
    (∀ texts g, f.feed octets = (.ok texts, g) →
      (∀ text ∈ texts, ∃ n h, (f.pulled octets n).next = (.message text, h)) ∧
        ∃ n, (f.pulled octets n).next = (.incomplete, g)) ∧
    ∀ error g, f.feed octets = (.error error, g) →
      ∃ n, (f.pulled octets n).next = (.broken error, g)
  /-- A frame around a body within the limit is read in whatever pieces it arrives. -/
  delivered : ∀ pieces body, pieces ≠ [] → (f.extend pieces.flatten).Carries body [] →
    body.length ≤ limit → ∃ g, f.feedAll pieces = ([f.framing.textOf body], none, g)

theorem pulls_of_feed (f : Framer) (octets : List UInt8) :
    (∀ texts g, f.feed octets = (.ok texts, g) →
      (∀ text ∈ texts, ∃ n h, (f.pulled octets n).next = (.message text, h)) ∧
        ∃ n, (f.pulled octets n).next = (.incomplete, g)) ∧
    ∀ error g, f.feed octets = (.error error, g) →
      ∃ n, (f.pulled octets n).next = (.broken error, g) := by
  obtain ⟨htexts, n, hend⟩ := exists_pulls (f.extend octets)
  have hpulled : ∀ n, (f.extend octets).after (.replicate n .next) = f.pulled octets n :=
    fun _ => rfl
  rcases hdrain : (f.extend octets).drain with ⟨texts, _ | error, last⟩
  all_goals simp only [hdrain, hpulled, feed] at htexts hend ⊢
  · refine ⟨?_, by simp⟩
    rintro _ _ ⟨⟩
    exact ⟨htexts, n, hend⟩
  · refine ⟨by simp, ?_⟩
    rintro _ _ ⟨⟩
    exact ⟨n, hend⟩

/-- Where nothing is buffered, a pull waits and changes nothing. -/
theorem next_of_buffer_nil (hf : f.Sound) (h : f.buffer = []) : f.next = (.incomplete, f) := by
  obtain ⟨buffer, decoder, limit⟩ := f
  cases h
  cases decoder with
  | terminated searched =>
    have hzero : searched = 0 := Nat.le_zero.mp (Terminated.Searched.le_length hf)
    cases hzero
    rfl
  | chunked collected =>
    have hpull : Chunked.pull limit collected [] = ⟨.incomplete, [], collected⟩ :=
      Chunked.pull_of_unfinished rfl
    simp only [next, hpull]

theorem feedAll_of_carries (hf : f.Sound) {pieces : List (List UInt8)} (hne : pieces ≠ [])
    (h : (f.extend pieces.flatten).Carries body []) (hfits : body.length ≤ f.limit) :
    ∃ g, f.feedAll pieces = ([f.framing.textOf body], none, g) := by
  have hwhole := hf.extend pieces.flatten
  obtain ⟨g, hnext, hnil⟩ := message_of_carries hwhole h hfits
  have hwait := next_of_buffer_nil (hwhole.next hnext) hnil
  refine ⟨g, feedAll_of_drain hf hne ?_⟩
  rw [drain_of_message hnext, drain_of_incomplete hwait]
  rfl

/-- **The limit bounds what is held, and it is exact**, after every run. -/
theorem measured_after (limit : Nat) (acts : List Act) :
    Measured limit ((start limit).after acts) := by
  have hsound := sound_after (sound_start limit) acts
  have hwithin := within_after limit acts
  have hlimit : ((start limit).after acts).limit = limit := limit_after (start limit) acts
  constructor
  case sliced => exact next?_eq hsound
  case offset =>
    intro searched hdecoder
    have hsearched := hsound
    simp only [Sound, hdecoder] at hsearched
    exact hsearched.le_length
  case collected =>
    intro collected hdecoder
    exact (hwithin collected hdecoder).trans_eq hlimit
  case waiting =>
    intro g hnext
    exact hlimit ▸ waits_of_incomplete hwithin hnext
  case emitted =>
    intro text g hnext
    obtain ⟨body, hcarries, hfits, htext⟩ := carries_of_message hsound hwithin hnext
    refine ⟨⟨body, hcarries⟩, fun body' rest hcarries' => ?_⟩
    obtain ⟨rfl, rfl⟩ := hcarries.unique hcarries'
    exact ⟨hfits.trans_eq hlimit, htext, rfl⟩
  case admitted =>
    intro more body rest hcarries hfits
    exact next_of_carries hsound hwithin hcarries (hfits.trans_eq hlimit.symm)
  case fed => exact pulls_of_feed _
  case delivered =>
    intro pieces body hne hcarries hfits
    exact feedAll_of_carries hsound hne hcarries (hfits.trans_eq hlimit.symm)

/-- Three octets are read where three are allowed, and refused where two are. -/
example :
    ((start 3).feedAll [[97, 98, 99, 93, 93], [62, 93, 93, 62]]).1 = ["abc"] ∧
      ((start 2).feedAll [[97, 98, 99, 93, 93], [62, 93, 93, 62]]).2.1 = some (.tooLarge 2) := by
  decide +kernel

end Framer

end NetconfClient
