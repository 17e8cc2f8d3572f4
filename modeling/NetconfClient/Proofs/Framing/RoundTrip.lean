/-
  NetconfClient/Proofs/Framing/RoundTrip.lean
  ===========================================
  **Encoded messages are received as they were sent.**

  Chunks carry any text: behind a header exactly as many octets are taken as it
  announces, so a payload may look like a delimiter.  A terminated message ends
  at the first terminator, and that is the one behind it exactly if the text
  neither contains a terminator nor ends in its first half
  (`find?_append_terminator_iff`): a terminator overlaps itself in three octets
  and in no other number.
-/
import NetconfClient.Framing.Framer
import NetconfClient.Proofs.Framing.Chunks
import NetconfClient.Proofs.Framing.Search
import NetconfClient.Proofs.Text.Ascii
import NetconfClient.Proofs.Text.Decimal

namespace NetconfClient

open Text

/-! ## 1. Chunk headers -/

namespace Framing.Chunked

theorem isDigit_ofNat {c : Char} (h : c.isDigit = true) : isDigit (UInt8.ofNat c.toNat) = true := by
  have hrange : 48 ≤ c.toNat ∧ c.toNat ≤ 57 := by
    simpa [Char.isDigit, UInt32.le_iff_toNat_le] using h
  have hoctet : (UInt8.ofNat c.toNat).toNat = c.toNat := Utf8.toNat_ofNat_octet (by omega)
  simp only [isDigit, Bool.and_eq_true, decide_eq_true_eq, UInt8.le_iff_toNat_le, hoctet]
  exact hrange

theorem encode_digits {cs : List Char} (h : ∀ c ∈ cs, c.isDigit = true) :
    Utf8.encode cs = cs.map fun c => UInt8.ofNat c.toNat := by
  induction cs with
  | nil => rfl
  | cons c cs ih =>
    have hc : 48 ≤ c.toNat ∧ c.toNat ≤ 57 := by
      simpa [Char.isDigit, UInt32.le_iff_toNat_le] using h c List.mem_cons_self
    rw [Utf8.encode_cons, Utf8.encodeChar_of_ascii (by omega),
      ih fun d hd => h d (List.mem_cons_of_mem c hd)]
    rfl

/-- The octets of a printed chunk size. -/
def sizeOctets (n : Nat) : List UInt8 := Utf8.encode (Nat.toDigits 10 n)

theorem sizeOctets_eq_map (n : Nat) :
    sizeOctets n = (Nat.toDigits 10 n).map fun c => UInt8.ofNat c.toNat :=
  encode_digits fun _ hc => Nat.isDigit_of_mem_toDigits (by decide) (by decide) hc

theorem isDigit_of_mem_sizeOctets {n : Nat} {b : UInt8} (h : b ∈ sizeOctets n) :
    isDigit b = true := by
  rw [sizeOctets_eq_map, List.mem_map] at h
  obtain ⟨c, hc, rfl⟩ := h
  exact isDigit_ofNat (Nat.isDigit_of_mem_toDigits (by decide) (by decide) hc)

theorem sizeOctets_ne_nil (n : Nat) : sizeOctets n ≠ [] := by
  rw [sizeOctets_eq_map]
  simp [Nat.toDigits_ne_nil]

theorem length_sizeOctets (n : Nat) : (sizeOctets n).length = (Nat.toDigits 10 n).length := by
  rw [sizeOctets_eq_map, List.length_map]

theorem head?_sizeOctets {n : Nat} (h : (sizeOctets n).head? = some zero) : n = 0 := by
  rw [sizeOctets_eq_map, List.head?_map, Option.map_eq_some_iff] at h
  obtain ⟨c, hc, hzero⟩ := h
  have hdigit : c.isDigit = true := Nat.isDigit_of_mem_toDigits (b := 10) (n := n) (by decide)
    (by decide) (List.mem_of_mem_head? hc)
  have hrange : 48 ≤ c.toNat ∧ c.toNat ≤ 57 := by
    simpa [Char.isDigit, UInt32.le_iff_toNat_le] using hdigit
  have hnat := congrArg UInt8.toNat hzero
  rw [Utf8.toNat_ofNat_octet (by omega)] at hnat
  have hc0 : c = '0' := Char.toNat_inj.mp (hnat.trans rfl)
  exact Unsigned.head?_toDigits (hc0 ▸ hc)

theorem size?_sizeOctets {n : Nat} (h : n ≤ Unsigned.max32) : size? (sizeOctets n) = .ok n := by
  have hlen : (sizeOctets n).length ≤ maxDigits := by
    rw [length_sizeOctets]
    exact Unsigned.length_toDigits_le_ten h
  have hlead : ¬ ((sizeOctets n).length > 1 ∧ (sizeOctets n).head? = some zero) := by
    rintro ⟨hlong, hhead⟩
    rw [head?_sizeOctets hhead] at hlong
    exact absurd hlong (by decide)
  rw [size?, if_neg (sizeOctets_ne_nil n), if_neg (Nat.not_lt.mpr hlen), if_neg hlead, sizeOctets,
    Utf8.decode_encode, Unsigned.parse_toDigits h]

/-- **A chunk header is read back.** -/
theorem readDelimiter_chunkHeader {n : Nat} (h : n ≤ Unsigned.max32) (rest : List UInt8) :
    readDelimiter (chunkHeader n ++ rest) = .chunk n rest := by
  have hdigits : ∀ b ∈ sizeOctets n, isDigit b = true := fun _ hb => isDigit_of_mem_sizeOctets hb
  have hshape : chunkHeader n ++ rest = lf :: hash :: (sizeOctets n ++ lf :: rest) := by
    simp [chunkHeader, sizeOctets]
  have hsize : readSize (sizeOctets n ++ lf :: rest) = .chunk n rest := by
    have htake : (sizeOctets n ++ lf :: rest).takeWhile isDigit = sizeOctets n := by
      rw [List.takeWhile_append_of_pos hdigits]
      simp [isDigit, lf]
    have hdrop : (sizeOctets n ++ lf :: rest).dropWhile isDigit = lf :: rest := by
      rw [List.dropWhile_append_of_pos hdigits]
      simp [isDigit, lf]
    rw [readSize, htake, hdrop, readSizeEnd, if_neg (not_not_intro rfl), size?_sizeOctets h]
  rw [hshape, readDelimiter, if_neg (not_not_intro rfl), if_neg (not_not_intro rfl)]
  obtain ⟨b, bs, hoctets⟩ := List.exists_cons_of_ne_nil (sizeOctets_ne_nil n)
  -- a size begins with a digit, so this is not the end of the chunks
  have hne : b ≠ hash := by
    rintro rfl
    exact absurd (hdigits hash (by rw [hoctets]; exact List.mem_cons_self)) (by decide)
  rw [hoctets, List.cons_append] at hsize ⊢
  unfold readKind
  dsimp only
  rw [if_neg hne, hsize]

theorem readDelimiter_endOfChunks (rest : List UInt8) :
    readDelimiter (endOfChunks ++ rest) = .endOfChunks rest := rfl

/-- **A chunked message is pulled off whatever follows it.** -/
theorem pull_encode {limit : Nat} {message : String}
    (h : Utf8.size message.toList ≤ min limit Unsigned.max32) (rest : List UInt8) :
    pull limit .nothing (Framing.chunked.encode message ++ rest) =
      ⟨.message message, rest, .nothing⟩ := by
  have hlimit : (Utf8.encodeString message).length ≤ limit := Nat.le_trans h (Nat.min_le_left _ _)
  have hmax : (Utf8.encodeString message).length ≤ Unsigned.max32 :=
    Nat.le_trans h (Nat.min_le_right _ _)
  have hheader := readDelimiter_chunkHeader hmax
    (Utf8.encodeString message ++ (endOfChunks ++ rest))
  rw [Framing.encode, List.append_assoc, List.append_assoc, pull_of_chunk hheader,
    if_neg (by simpa [Collected.nothing] using hlimit), if_neg (by simp),
    List.take_left, List.drop_left, pull_of_endOfChunks (readDelimiter_endOfChunks rest),
    if_neg (by simp [Collected.add])]
  rw [Collected.add, Collected.nothing, List.nil_append, Utf8.decodeString_encodeString]

end Framing.Chunked

/-! ## 2. The terminator behind a body -/

namespace Framing.Terminated

/-- The terminator as text. -/
def mark : List Char := "]]>]]>".toList

/-- Its first half, which is its second half as well. -/
def halfMark : List Char := "]]>".toList

/-- A text that a terminator can close: none is in it, and none begins in front of its end. -/
def Closable (message : String) : Prop :=
  ¬ mark <:+: message.toList ∧ ¬ halfMark <:+ message.toList

instance (message : String) : Decidable (Closable message) :=
  inferInstanceAs (Decidable (_ ∧ _))

theorem encode_mark : Utf8.encode mark = terminator := by decide

theorem isAscii_mark : Utf8.IsAscii mark := by
  simp [Utf8.IsAscii, mark]

theorem isAscii_halfMark : Utf8.IsAscii halfMark := by
  simp [Utf8.IsAscii, halfMark]

/-- A terminator overlaps another one in three octets or not at all. -/
theorem overlap_eq {k : Nat} (hpos : 0 < k) (hlt : k < terminator.length)
    (h : terminator.drop k <+: terminator) : k = 3 := by
  have hall : ∀ k < terminator.length, 0 < k → terminator.drop k <+: terminator → k = 3 := by
    decide
  exact hall k hlt hpos h

/-- **The first terminator is the one behind the body exactly if none is in the body and
    none begins in its last octets.** -/
theorem find?_append_terminator_iff (body : List UInt8) :
    find? (body ++ terminator) = some body.length ↔
      ¬ terminator <:+: body ∧ ¬ Utf8.encode halfMark <:+ body := by
  rw [find?_eq_some_iff]
  constructor
  · rintro ⟨-, hfirst⟩
    constructor
    · -- a terminator in the body would be the first one
      rintro ⟨before, behind, rfl⟩
      refine hfirst before.length (by simp [terminator]) ?_
      simp [List.append_assoc]
    · -- so would the one that a half makes up with the first half behind it
      rintro ⟨before, rfl⟩
      refine hfirst before.length (by simp [halfMark, Utf8.encode, Utf8.encodeChar]) ?_
      rw [List.append_assoc, List.drop_left]
      decide
  · rintro ⟨hinside, hend⟩
    refine ⟨by simp, fun j hj hp => ?_⟩
    rw [List.drop_append_of_le_length (Nat.le_of_lt hj)] at hp
    by_cases hlong : terminator.length ≤ (body.drop j).length
    · -- a whole terminator lies in the body
      have hwhole : terminator <+: body.drop j :=
        List.prefix_of_prefix_length_le hp (List.prefix_append _ _) hlong
      exact hinside (hwhole.isInfix.trans (List.drop_suffix j body).isInfix)
    · -- it begins in the body and ends in the terminator behind it
      have hshort : body.drop j <+: terminator :=
        List.prefix_of_prefix_length_le (List.prefix_append _ _) hp (by omega)
      obtain ⟨tail, htail⟩ := hshort
      have hk : (body.drop j).length = 3 := by
        refine overlap_eq (by rw [List.length_drop]; omega) (by omega) ?_
        have hdrop : terminator.drop (body.drop j).length = tail := by
          rw [← htail, List.drop_left]
        have hboth : body.drop j ++ tail <+: body.drop j ++ terminator := by
          rw [htail]
          exact hp
        rw [hdrop]
        exact (List.prefix_append_right_inj _).mp hboth
      have hhalf : body.drop j = Utf8.encode halfMark := by
        have htake : terminator.take (body.drop j).length = body.drop j := by
          rw [← htail, List.take_left]
        rw [← htake, hk]
        decide
      exact hend (hhalf ▸ List.drop_suffix j body)

theorem closable_iff (message : String) :
    Closable message ↔
      find? (Utf8.encodeString message ++ terminator) = some (Utf8.encodeString message).length := by
  rw [find?_append_terminator_iff, ← encode_mark, Utf8.encodeString,
    Utf8.infix_encode_iff isAscii_mark (by decide),
    Utf8.suffix_encode_iff isAscii_halfMark (by decide)]
  rfl

theorem body_encodeString (message : String) :
    body (Utf8.encodeString message) = trimString message := by
  rw [body, Utf8.encodeString, Utf8.decode_encode, trimString]

end Framing.Terminated

/-! ## 3. Draining -/

namespace Framer

open Framing Framing.Terminated

variable {f g : Framer}

theorem drain_of_message {text : String} (h : f.next = (.message text, g)) :
    f.drain = (text :: g.drain.1, g.drain.2.1, g.drain.2.2) := by
  rw [drain]
  split <;> simp_all

theorem drain_of_incomplete (h : f.next = (.incomplete, g)) : f.drain = ([], none, g) := by
  rw [drain]
  split <;> simp_all

theorem drain_of_broken {error : FrameError} (h : f.next = (.broken error, g)) :
    f.drain = ([], some error, g) := by
  rw [drain]
  split <;> simp_all

theorem feed_eq_ok_iff {octets : List UInt8} {texts : List String} :
    f.feed octets = (.ok texts, g) ↔ (f.extend octets).drain = (texts, none, g) := by
  unfold feed
  split
  · next heq => simp [heq]
  · next heq => simp [heq]

variable {limit : Nat}

theorem next_chunked_nil :
    next ⟨[], .chunked .nothing, limit⟩ = (.incomplete, ⟨[], .chunked .nothing, limit⟩) := by
  rw [next]
  dsimp only
  rw [Chunked.pull_of_unfinished rfl]

theorem drain_chunked (messages : List String)
    (h : ∀ m ∈ messages, Utf8.size m.toList ≤ min limit Unsigned.max32) :
    drain ⟨messages.flatMap Framing.chunked.encode, .chunked .nothing, limit⟩ =
      (messages, none, ⟨[], .chunked .nothing, limit⟩) := by
  induction messages with
  | nil => exact drain_of_incomplete next_chunked_nil
  | cons m messages ih =>
    have hpull := Chunked.pull_encode (h m List.mem_cons_self)
      (messages.flatMap Framing.chunked.encode)
    have hnext : next ⟨(m :: messages).flatMap Framing.chunked.encode, .chunked .nothing, limit⟩ =
        (.message m, ⟨messages.flatMap Framing.chunked.encode, .chunked .nothing, limit⟩) := by
      rw [next, List.flatMap_cons]
      dsimp only
      rw [hpull]
    rw [drain_of_message hnext, ih fun d hd => h d (List.mem_cons_of_mem m hd)]

/-- A terminated message that can be closed is pulled off whatever follows it. -/
theorem next_terminated {m : String} (hsize : Utf8.size m.toList ≤ limit) (hclose : Closable m)
    (rest : List UInt8) :
    next ⟨Framing.endOfMessage.encode m ++ rest, .terminated 0, limit⟩ =
      (.message (trimString m), ⟨rest, .terminated 0, limit⟩) := by
  have hfind := find?_append ((closable_iff m).mp hclose) rest
  have hlen : (Utf8.encodeString m).length ≤ limit := hsize
  have hpull : pull limit 0 (Framing.endOfMessage.encode m ++ rest) =
      ⟨.message (trimString m), rest, 0⟩ := by
    rw [Framing.encode, pull, List.drop_zero, hfind]
    dsimp only
    rw [Nat.zero_add, found, if_neg (Nat.not_lt.mpr hlen), List.append_assoc, List.take_left,
      body_encodeString, ← List.append_assoc, ← List.length_append, List.drop_left]
  rw [next]
  dsimp only
  rw [hpull]

theorem drain_terminated (messages : List String)
    (h : ∀ m ∈ messages, Utf8.size m.toList ≤ limit ∧ Closable m) :
    drain ⟨messages.flatMap Framing.endOfMessage.encode, .terminated 0, limit⟩ =
      (messages.map trimString, none, ⟨[], .terminated 0, limit⟩) := by
  induction messages with
  | nil => exact drain_of_incomplete rfl
  | cons m messages ih =>
    obtain ⟨hsize, hclose⟩ := h m List.mem_cons_self
    have hnext := next_terminated hsize hclose (messages.flatMap Framing.endOfMessage.encode)
    rw [List.flatMap_cons, drain_of_message hnext, ih fun d hd => h d (List.mem_cons_of_mem m hd)]
    rfl

/-- A terminated buffer in which nothing is found stays as it is. -/
theorem buffer_of_drain_eq_nil {buffer : List UInt8} {searched : Nat}
    (h : drain ⟨buffer, .terminated searched, limit⟩ = ([], none, g)) : g.buffer = buffer := by
  cases hnext : next ⟨buffer, .terminated searched, limit⟩ with
  | mk p f =>
    cases p with
    | message text =>
      rw [drain_of_message hnext] at h
      simp at h
    | broken error =>
      rw [drain_of_broken hnext] at h
      simp at h
    | incomplete =>
      rw [drain_of_incomplete hnext] at h
      obtain rfl : f = g := by simpa using h
      obtain ⟨hresult, rfl⟩ := Prod.mk.inj hnext
      dsimp only at hresult ⊢
      unfold pull found missed at hresult ⊢
      cases hfind : find? (buffer.drop searched) with
      | some pos =>
        simp only [hfind] at hresult
        split at hresult <;> cases hresult
      | none =>
        dsimp only
        split <;> rfl

/-- **A terminated message that comes back whole can be closed.** -/
theorem closable_of_feed {m : String} (hsize : Utf8.size m.toList ≤ limit)
    (h : (start limit).feed (Framing.endOfMessage.encode m) = (.ok [trimString m], g))
    (hempty : g.buffer = []) : Closable m := by
  rw [closable_iff]
  have hlen : (Utf8.encodeString m).length ≤ limit := hsize
  revert h hlen
  rw [Framing.encode]
  generalize Utf8.encodeString m = octets
  intro h hlen
  cases hfind : find? (octets ++ terminator) with
  | none => exact absurd (by simp) (find?_eq_none_iff.mp hfind octets.length)
  | some i =>
    obtain ⟨-, hfirst⟩ := find?_eq_some_iff.mp hfind
    have hi : i ≤ octets.length := by
      by_contra hlt
      exact hfirst octets.length (by omega) (by simp)
    have hnext : next ((start limit).extend (octets ++ terminator)) =
        (.message (body ((octets ++ terminator).take i)),
          ⟨(octets ++ terminator).drop (i + terminator.length), .terminated 0, limit⟩) := by
      rw [start, extend, List.nil_append, next]
      dsimp only
      rw [pull, List.drop_zero, hfind]
      dsimp only
      rw [Nat.zero_add, found, if_neg (by omega)]
    have hdrain : drain ⟨(octets ++ terminator).drop (i + terminator.length), .terminated 0, limit⟩ =
        ([], none, g) := by
      rw [feed_eq_ok_iff, drain_of_message hnext] at h
      obtain ⟨htexts, hrest⟩ := Prod.mk.inj h
      obtain ⟨herror, hlast⟩ := Prod.mk.inj hrest
      exact Prod.ext (List.cons.inj htexts).2 (Prod.ext herror hlast)
    -- what is behind the first terminator stays in the buffer, so nothing is
    have hrest := buffer_of_drain_eq_nil hdrain
    rw [hempty, eq_comm, List.drop_eq_nil_iff, List.length_append] at hrest
    rw [show i = octets.length by omega]

/-! ## 4. Feeding -/

/-- **What is encoded is received.**  Chunks carry every message of a size that the limit and
    a chunk header allow.  A terminated message comes back trimmed, and alone, exactly if a
    terminator can close it. -/
theorem feed_encode (limit : Nat) :
    (∀ messages : List String,
      (∀ m ∈ messages, Utf8.size m.toList ≤ min limit Unsigned.max32) →
      (start limit).upgrade.feed (messages.flatMap Framing.chunked.encode) =
        (.ok messages, ⟨[], .chunked .nothing, limit⟩)) ∧
    (∀ m : String, Utf8.size m.toList ≤ limit →
      ((∃ g, (start limit).feed (Framing.endOfMessage.encode m) = (.ok [trimString m], g) ∧
          g.buffer = []) ↔
        ¬ "]]>]]>".toList <:+: m.toList ∧ ¬ "]]>".toList <:+ m.toList)) ∧
    (∀ messages : List String,
      (∀ m ∈ messages, Utf8.size m.toList ≤ limit ∧
        ¬ "]]>]]>".toList <:+: m.toList ∧ ¬ "]]>".toList <:+ m.toList) →
      (start limit).feed (messages.flatMap Framing.endOfMessage.encode) =
        (.ok (messages.map trimString), start limit)) := by
  refine ⟨fun messages h => ?_, fun m hsize => ⟨?_, fun hclose => ?_⟩, fun messages h => ?_⟩
  · exact feed_eq_ok_iff.mpr (drain_chunked messages h)
  · rintro ⟨g, hfeed, hempty⟩
    exact closable_of_feed hsize hfeed hempty
  · refine ⟨start limit, feed_eq_ok_iff.mpr ?_, rfl⟩
    have hone : ∀ d ∈ [m], Utf8.size d.toList ≤ limit ∧ Closable d := by
      intro d hd
      rw [List.mem_singleton.mp hd]
      exact ⟨hsize, hclose⟩
    have hdrain := drain_terminated [m] hone
    rwa [List.flatMap_singleton] at hdrain
  · exact feed_eq_ok_iff.mpr (drain_terminated messages h)

/-- Payloads that imitate delimiters, and terminated messages in front of one another. -/
theorem feed_encode_imitations :
    (start 64).upgrade.feed
        (["", "a]]>]]>b", "\n##\n", "\n#4\nrest"].flatMap Framing.chunked.encode) =
      (.ok ["", "a]]>]]>b", "\n##\n", "\n#4\nrest"], ⟨[], .chunked .nothing, 64⟩) ∧
    (¬ ∃ g, (start 64).feed (Framing.endOfMessage.encode "<a/>]]>") =
        (.ok [trimString "<a/>]]>"], g) ∧ g.buffer = []) ∧
    (start 64).feed ([" <a/>]] ", "", ">]]>]x"].flatMap Framing.endOfMessage.encode) =
      (.ok ["<a/>]]", "", ">]]>]x"], start 64) := by
  refine ⟨(feed_encode 64).1 _ (by decide +kernel), ?_, ?_⟩
  · rw [(feed_encode 64).2.1 "<a/>]]>" (by decide +kernel)]
    decide +kernel
  · have htrim : [" <a/>]] ", "", ">]]>]x"].map trimString = ["<a/>]]", "", ">]]>]x"] := by decide +kernel
    rw [← htrim]
    exact (feed_encode 64).2.2 _ (by decide +kernel)

end Framer

end NetconfClient
