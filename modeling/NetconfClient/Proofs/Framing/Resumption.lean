/-
  NetconfClient/Proofs/Framing/Resumption.lean
  ============================================
  **A search that is resumed finds what a search from the first octet finds.**

  A framer of terminated messages remembers how far it has searched.  A
  `Rescanner` remembers nothing: it holds octets and a limit, and every pull looks
  for the terminator from the first octet on.  A framer `Mirrors` the rescanner
  with the same octets as long as no terminator begins where it has searched, and
  every act keeps that (`Mirrors.perform`).  So the two answer every run with the
  same transcript (`resumed_search_is_full_search`), whatever the octets, the limit
  and the cuts between the acts, and also behind an error.
-/
import NetconfClient.Proofs.Framing.Bounds

namespace NetconfClient

open Framing Framing.Terminated

/-! ## 1. Transcripts -/

/-- What an act returns. -/
inductive Returned where
  | nothing
  | pulled (result : Pull)
  | fed (messages : Except FrameError (List String))

/-- A way to receive terminated messages: what an act returns and what it leaves, and the
    octets held. -/
structure Receiving (σ : Type) where
  returned : σ → Framer.Act → Returned
  perform : σ → Framer.Act → σ
  held : σ → List UInt8

/-- What each act of a run returns, and the octets held behind it. -/
def Receiving.transcript {σ : Type} (m : Receiving σ) : σ → List Framer.Act →
    List (Returned × List UInt8)
  | _, [] => []
  | s, act :: acts =>
    (m.returned s act, m.held (m.perform s act)) :: m.transcript (m.perform s act) acts

/-- **Two ways to receive that go together step by step have the same transcripts.** -/
theorem Receiving.transcript_eq {σ τ : Type} {m : Receiving σ} {n : Receiving τ}
    {R : σ → τ → Prop} {acts : List Framer.Act}
    (hheld : ∀ s t, R s t → m.held s = n.held t)
    (hstep : ∀ s t, ∀ act ∈ acts, R s t →
      m.returned s act = n.returned t act ∧ R (m.perform s act) (n.perform t act))
    {s : σ} {t : τ} (h : R s t) : m.transcript s acts = n.transcript t acts := by
  induction acts generalizing s t with
  | nil => rfl
  | cons act acts ih =>
    obtain ⟨hreturned, hnext⟩ := hstep s t act List.mem_cons_self h
    have hrest := ih (fun s t act hact => hstep s t act (List.mem_cons_of_mem _ hact)) hnext
    simp only [transcript, hreturned, hheld _ _ hnext, hrest]

/-! ## 2. Searching from the first octet -/

/-- Octets on their way to become terminated messages, and nothing about them. -/
structure Rescanner where
  buffer : List UInt8
  limit : Nat

namespace Rescanner

def extend (r : Rescanner) (octets : List UInt8) : Rescanner :=
  { r with buffer := r.buffer ++ octets }

/-- Pulls the next message: what stands in front of the first terminator of the buffer. -/
def next (r : Rescanner) : Pull × Rescanner :=
  match find? r.buffer with
  | some stop =>
    if stop > r.limit then (.broken (.tooLarge r.limit), r)
    else (.message (body (r.buffer.take stop)),
      { r with buffer := r.buffer.drop (stop + terminator.length) })
  | none =>
    if r.buffer.length - overlap > r.limit then (.broken (.tooLarge r.limit), r)
    else (.incomplete, r)

/-- A message consumes octets. -/
theorem next_buffer_lt {r s : Rescanner} {text : String} (h : r.next = (.message text, s)) :
    s.buffer.length < r.buffer.length := by
  unfold next at h
  split at h
  · next stop hfind =>
    have hstop := lt_length_of_find? hfind
    have hterminator : 0 < terminator.length := by decide
    split at h
    · cases h
    · cases h
      rw [List.length_drop]
      omega
  · split at h
    · cases h
    · cases h

/-- Pulls messages until one is incomplete or the stream is out of step. -/
def drain (r : Rescanner) : List String × Option FrameError × Rescanner :=
  match _h : r.next with
  | (.message text, s) =>
    let (texts, error, last) := drain s
    (text :: texts, error, last)
  | (.incomplete, s) => ([], none, s)
  | (.broken error, s) => ([], some error, s)
termination_by r.buffer.length
decreasing_by exact next_buffer_lt _h

/-- What a drain is, by its first pull. -/
theorem drain_eq (r : Rescanner) :
    r.drain =
      match r.next with
      | (.message text, s) => (text :: s.drain.1, s.drain.2.1, s.drain.2.2)
      | (.incomplete, s) => ([], none, s)
      | (.broken error, s) => ([], some error, s) := by
  rw [drain]
  split
  · next hpull => rw [hpull]
  · next hpull => rw [hpull]
  · next hpull => rw [hpull]

/-- Appends octets and pulls every message they complete. -/
def feed (r : Rescanner) (octets : List UInt8) : Except FrameError (List String) × Rescanner :=
  match (r.extend octets).drain with
  | (texts, none, s) => (.ok texts, s)
  | (_, some error, s) => (.error error, s)

/-- A rescanner knows no other framing. -/
def perform (r : Rescanner) : Framer.Act → Rescanner
  | .extend octets => r.extend octets
  | .next => r.next.2
  | .feed octets => (r.feed octets).2
  | .upgrade => r

def returned (r : Rescanner) : Framer.Act → Returned
  | .extend _ => .nothing
  | .next => .pulled r.next.1
  | .feed octets => .fed (r.feed octets).1
  | .upgrade => .nothing

def receiving : Receiving Rescanner := ⟨returned, perform, buffer⟩

end Rescanner

/-! ## 3. Framers and rescanners -/

namespace Framer

def returned (f : Framer) : Act → Returned
  | .extend _ => .nothing
  | .next => .pulled f.next.1
  | .feed octets => .fed (f.feed octets).1
  | .upgrade => .nothing

def receiving : Receiving Framer := ⟨returned, perform, buffer⟩

/-- A framer that holds the octets of a rescanner, and has searched them up to some octet
    without missing a terminator. -/
structure Mirrors (f : Framer) (r : Rescanner) : Prop where
  buffer_eq : f.buffer = r.buffer
  limit_eq : f.limit = r.limit
  searched : ∃ searched, f.decoder = .terminated searched ∧ Searched searched f.buffer

variable {f g : Framer} {r : Rescanner}

theorem mirrors_start (limit : Nat) : (start limit).Mirrors ⟨[], limit⟩ :=
  ⟨rfl, rfl, 0, rfl, searched_zero []⟩

theorem Mirrors.extend (h : f.Mirrors r) (octets : List UInt8) :
    (f.extend octets).Mirrors (r.extend octets) := by
  obtain ⟨hbuffer, hlimit, searched, hdecoder, hsearched⟩ := h
  refine ⟨?_, hlimit, searched, hdecoder, hsearched.append octets⟩
  rw [Framer.extend, Rescanner.extend, hbuffer]

/-- **A pull that resumes the search comes out like one that searches all octets.** -/
theorem Mirrors.next (h : f.Mirrors r) :
    f.next.1 = r.next.1 ∧ f.next.2.Mirrors r.next.2 := by
  obtain ⟨buffer, decoder, limit⟩ := f
  obtain ⟨rfl, rfl, searched, rfl, hsearched⟩ := h
  suffices hsame : (pull r.limit searched r.buffer).result = r.next.1 ∧
      (pull r.limit searched r.buffer).buffer = r.next.2.buffer ∧ r.limit = r.next.2.limit from
    ⟨hsame.1, hsame.2.1, hsame.2.2, _, rfl, searched_pull hsearched⟩
  rw [pull_of_searched hsearched, Rescanner.next]
  cases find? r.buffer with
  | some stop =>
    dsimp only [found]
    split <;> exact ⟨rfl, rfl, rfl⟩
  | none =>
    dsimp only [missed]
    split <;> exact ⟨rfl, rfl, rfl⟩

theorem Mirrors.drain (h : f.Mirrors r) :
    f.drain.1 = r.drain.1 ∧ f.drain.2.1 = r.drain.2.1 ∧ f.drain.2.2.Mirrors r.drain.2.2 := by
  fun_induction Framer.drain f generalizing r with
  | case1 f text g hpull texts error last hdrain ih =>
    obtain ⟨hresult, hmirrors⟩ := h.next
    rw [hpull] at hresult hmirrors
    have hnext : r.next = (.message text, r.next.2) := Prod.ext hresult.symm rfl
    obtain ⟨htexts, herror, hlast⟩ := ih hmirrors
    rw [hdrain] at htexts herror hlast
    rw [Rescanner.drain_eq, hnext]
    exact ⟨congrArg (text :: ·) htexts, herror, hlast⟩
  | case2 f g hpull =>
    obtain ⟨hresult, hmirrors⟩ := h.next
    rw [hpull] at hresult hmirrors
    have hnext : r.next = (.incomplete, r.next.2) := Prod.ext hresult.symm rfl
    rw [Rescanner.drain_eq, hnext]
    exact ⟨rfl, rfl, hmirrors⟩
  | case3 f error g hpull =>
    obtain ⟨hresult, hmirrors⟩ := h.next
    rw [hpull] at hresult hmirrors
    have hnext : r.next = (.broken error, r.next.2) := Prod.ext hresult.symm rfl
    rw [Rescanner.drain_eq, hnext]
    exact ⟨rfl, rfl, hmirrors⟩

theorem Mirrors.feed (h : f.Mirrors r) (octets : List UInt8) :
    (f.feed octets).1 = (r.feed octets).1 ∧ (f.feed octets).2.Mirrors (r.feed octets).2 := by
  obtain ⟨htexts, herror, hlast⟩ := (h.extend octets).drain
  rw [Framer.feed, Rescanner.feed]
  rcases hf : (f.extend octets).drain with ⟨texts, error, last⟩
  rcases hr : (r.extend octets).drain with ⟨texts', error', last'⟩
  rw [hf, hr] at htexts herror hlast
  dsimp only at htexts herror hlast
  subst htexts herror
  cases error with
  | none => exact ⟨rfl, hlast⟩
  | some error => exact ⟨rfl, hlast⟩

/-- **Until the framing changes, every act returns the same**, and framer and rescanner go on
    together. -/
theorem Mirrors.perform (h : f.Mirrors r) {act : Act} (hact : act ≠ .upgrade) :
    f.returned act = r.returned act ∧ (f.perform act).Mirrors (r.perform act) := by
  cases act with
  | extend octets => exact ⟨rfl, h.extend octets⟩
  | next =>
    obtain ⟨hresult, hmirrors⟩ := h.next
    exact ⟨congrArg Returned.pulled hresult, hmirrors⟩
  | feed octets =>
    obtain ⟨hmessages, hmirrors⟩ := h.feed octets
    exact ⟨congrArg Returned.fed hmessages, hmirrors⟩
  | upgrade => exact absurd rfl hact

theorem Mirrors.after (h : f.Mirrors r) {acts : List Act} (hacts : .upgrade ∉ acts) :
    ∃ s, (f.after acts).Mirrors s := by
  induction acts generalizing f r with
  | nil => exact ⟨r, h⟩
  | cons act acts ih =>
    rw [List.mem_cons, not_or] at hacts
    exact ih (h.perform (Ne.symm hacts.1)).2 hacts.2

/-! ## 4. Every run -/

/-- **The resumed search is the full search.**  As long as messages are terminated, every act
    of every run returns what it returns to a decoder that searches all its octets each time,
    and leaves the same octets.  Behind every run, and so between any two acts, the search is
    resumed within the buffer, and no terminator begins in front of that octet, whatever
    arrives later. -/
theorem resumed_search_is_full_search (limit : Nat) (acts : List Act) (h : .upgrade ∉ acts) :
    receiving.transcript (start limit) acts =
        Rescanner.receiving.transcript ⟨[], limit⟩ acts ∧
      ∃ searched, ((start limit).after acts).decoder = .terminated searched ∧
        searched ≤ ((start limit).after acts).buffer.length ∧
        ∀ more, ∀ j < searched, ¬ terminator <+: (((start limit).after acts).buffer ++ more).drop j := by
  constructor
  · refine Receiving.transcript_eq (R := Mirrors) (fun f r hmirrors => hmirrors.buffer_eq) ?_
      (mirrors_start limit)
    intro f r act hact hmirrors
    exact hmirrors.perform (fun hupgrade => h (hupgrade ▸ hact))
  · obtain ⟨r, hmirrors⟩ := (mirrors_start limit).after h
    obtain ⟨searched, hdecoder, hsearched⟩ := hmirrors.searched
    refine ⟨searched, hdecoder, hsearched.le_length, fun more j hj => ?_⟩
    exact ((hsearched.append more) j hj).2

/-- A terminator behind the beginning of another one, in pieces of one octet, and then two
    messages in one piece. -/
def overlapping : List Act :=
  ((Text.Utf8.encodeString "]]>]]]>]]>").flatMap fun octet => [.extend [octet], .next]) ++
    [.extend (Text.Utf8.encodeString "a]]>]]>b]]>]]>"), .next, .next, .next]

/-- With a limit of 16 octets the last piece of the terminator completes the message, and with
    one of 3 it is refused. -/
theorem resumed_search_is_full_search_overlapping :
    .upgrade ∉ overlapping ∧
      receiving.transcript (start 16) overlapping =
        Rescanner.receiving.transcript ⟨[], 16⟩ overlapping ∧
      receiving.transcript (start 3) overlapping =
        Rescanner.receiving.transcript ⟨[], 3⟩ overlapping ∧
      ((start 16).after (overlapping.take 19)).next.1 = .message "]]>]" ∧
      ((start 3).after (overlapping.take 19)).next.1 = .broken (.tooLarge 3) := by
  have h : .upgrade ∉ overlapping := by decide
  refine ⟨h, ?_, ?_, by decide +kernel, by decide +kernel⟩
  · exact (resumed_search_is_full_search 16 overlapping h).1
  · exact (resumed_search_is_full_search 3 overlapping h).1

end Framer

end NetconfClient
