/-
  NetconfClient/Proofs/Framing/Acts.lean
  ======================================
  **What is done with a framer, one act after the other.**

  A run is a list of acts.  Every framer that a run leads to is sound
  (`sound_after`), and a drain is nothing but pulls, so what is said about every
  pull of every run is said about fed octets as well (`exists_pulls`).  A stream
  that can be drained without an error can be drained piece by piece
  (`feedAll_of_drain`), terminated messages among them (`feedAll_terminated`).
-/
import NetconfClient.Proofs.Framing.Arrival
import NetconfClient.Proofs.Framing.RoundTrip

namespace NetconfClient.Framer

open Text Framing

/-! ## 1. Runs -/

/-- Something that is done with a framer. -/
inductive Act where
  | extend (octets : List UInt8)
  | next
  | feed (octets : List UInt8)
  | upgrade
  deriving DecidableEq, Repr

def Act.octets : Act → List UInt8
  | .extend octets => octets
  | .feed octets => octets
  | .next => []
  | .upgrade => []

def perform (f : Framer) : Act → Framer
  | .extend octets => f.extend octets
  | .next => f.next.2
  | .feed octets => (f.feed octets).2
  | .upgrade => f.upgrade

/-- The framer that acts leave, done one after the other. -/
def after (f : Framer) (acts : List Act) : Framer := acts.foldl perform f

variable {f g last : Framer} {texts : List String}

@[simp] theorem after_nil (f : Framer) : f.after [] = f := rfl

@[simp] theorem after_cons (f : Framer) (act : Act) (acts : List Act) :
    f.after (act :: acts) = (f.perform act).after acts := rfl

@[simp] theorem after_append (f : Framer) (acts more : List Act) :
    f.after (acts ++ more) = (f.after acts).after more := List.foldl_append

/-- What every pull keeps, a drain keeps. -/
theorem drain_keeps {P : Framer → Prop} (hnext : ∀ f, P f → P f.next.2) (f : Framer) (h : P f) :
    P f.drain.2.2 := by
  fun_induction drain f with
  | case1 f text g hpull texts error last hdrain ih =>
    have hg := hnext f h
    rw [hpull] at hg
    rw [hdrain] at ih
    exact ih hg
  | case2 f g hpull =>
    have hg := hnext f h
    rwa [hpull] at hg
  | case3 f error g hpull =>
    have hg := hnext f h
    rwa [hpull] at hg

theorem snd_feed (f : Framer) (octets : List UInt8) :
    (f.feed octets).2 = (f.extend octets).drain.2.2 := by
  unfold feed
  split
  · next heq => rw [heq]
  · next heq => rw [heq]

/-- What the primitive acts keep, every run keeps. -/
theorem after_keeps {P : Framer → Prop} (hextend : ∀ f octets, P f → P (f.extend octets))
    (hnext : ∀ f, P f → P f.next.2) (hupgrade : ∀ f, P f → P f.upgrade) (h : P f)
    (acts : List Act) : P (f.after acts) := by
  induction acts generalizing f with
  | nil => exact h
  | cons act acts ih =>
    refine ih ?_
    cases act with
    | extend octets => exact hextend f octets h
    | next => exact hnext f h
    | feed octets =>
      rw [perform, snd_feed]
      exact drain_keeps hnext _ (hextend f octets h)
    | upgrade => exact hupgrade f h

theorem sound_after (h : f.Sound) (acts : List Act) : (f.after acts).Sound :=
  after_keeps (fun _ octets hf => hf.extend octets) (fun _ hf => hf.next rfl)
    (fun _ hf => hf.upgrade) h acts

theorem limit_next (f : Framer) : f.next.2.limit = f.limit := by
  unfold next
  split <;> rfl

theorem limit_upgrade (f : Framer) : f.upgrade.limit = f.limit := by
  unfold upgrade
  split <;> rfl

theorem limit_after (f : Framer) (acts : List Act) : (f.after acts).limit = f.limit :=
  after_keeps (P := fun g => g.limit = f.limit) (fun _ _ h => h)
    (fun g h => (limit_next g).trans h) (fun g h => (limit_upgrade g).trans h) rfl acts

/-! ## 2. Draining is pulling -/

/-- **A drain is made of pulls**: each of its messages is pulled, and so is what ends it. -/
theorem exists_pulls (f : Framer) :
    (∀ text ∈ f.drain.1, ∃ n g, (f.after (.replicate n .next)).next = (.message text, g)) ∧
      ∃ n, (f.after (.replicate n .next)).next =
        (match f.drain.2.1 with | none => .incomplete | some error => .broken error,
          f.drain.2.2) := by
  fun_induction drain f with
  | case1 f text g hpull texts error last hdrain ih =>
    rw [hdrain] at ih
    obtain ⟨htexts, n, hend⟩ := ih
    have hstep : ∀ n, f.after (.replicate (n + 1) .next) = g.after (.replicate n .next) := by
      intro n
      rw [List.replicate_succ, after_cons, perform, hpull]
    refine ⟨?_, n + 1, by rw [hstep]; exact hend⟩
    intro t ht
    rcases List.mem_cons.mp ht with rfl | ht
    · exact ⟨0, g, hpull⟩
    · obtain ⟨m, g', hg'⟩ := htexts t ht
      exact ⟨m + 1, g', by rw [hstep]; exact hg'⟩
  | case2 f g hpull => exact ⟨by simp, 0, hpull⟩
  | case3 f error g hpull => exact ⟨by simp, 0, hpull⟩

theorem drain_congr (h : f.next = g.next) : f.drain = g.drain := by
  rcases hg : g.next with ⟨result, k⟩
  rw [hg] at h
  cases result with
  | message text => rw [drain_of_message h, drain_of_message hg]
  | incomplete => rw [drain_of_incomplete h, drain_of_incomplete hg]
  | broken error => rw [drain_of_broken h, drain_of_broken hg]

/-- A pull that waits waits again. -/
theorem next_of_incomplete (hf : f.Sound) (h : f.next = (.incomplete, g)) :
    g.next = (.incomplete, g) := by
  have hpersists := next_extend hf []
  rw [extend_nil, h] at hpersists
  rcases hpersists with heq | ⟨⟨error, k, hbroken⟩, -⟩
  · rw [extend_nil] at heq
    exact heq.symm
  · simp at hbroken

/-- **What is drained in one go can be drained in two.** -/
theorem drain_of_drain_extend (hf : f.Sound) {more : List UInt8}
    (h : (f.extend more).drain = (texts, none, last)) :
    ∃ front g back, f.drain = (front, none, g) ∧ g.Sound ∧
      (g.extend more).drain = (back, none, last) ∧ texts = front ++ back := by
  fun_induction drain f generalizing texts with
  | case1 f text g hpull front error k hdrain ih =>
    have hpersists := next_extend hf more
    rw [hpull] at hpersists
    rw [drain_of_message hpersists] at h
    simp only [Prod.mk.injEq] at h
    obtain ⟨rfl, herror, hlast⟩ := h
    obtain ⟨front', g', back, hfront, hsound, hback, htexts⟩ :=
      ih (hf.next hpull) (Prod.ext rfl (Prod.ext herror hlast))
    rw [hdrain] at hfront
    simp only [Prod.mk.injEq] at hfront
    obtain ⟨rfl, rfl, rfl⟩ := hfront
    exact ⟨_, _, back, rfl, hsound, hback, congrArg (text :: ·) htexts⟩
  | case2 f g hpull =>
    have hpersists := next_extend hf more
    rw [hpull] at hpersists
    rcases hpersists with heq | ⟨⟨error, k, hbroken⟩, -⟩
    · exact ⟨[], g, texts, rfl, hf.next hpull, drain_congr heq ▸ h, rfl⟩
    · rw [drain_of_broken hbroken] at h
      simp at h
  | case3 f error g hpull =>
    have hpersists := next_extend hf more
    rw [hpull] at hpersists
    obtain ⟨error', k, hbroken⟩ := hpersists
    rw [drain_of_broken hbroken] at h
    simp at h

/-- **What is drained in one go can be fed in pieces.** -/
theorem feedAll_of_drain (hf : f.Sound) {pieces : List (List UInt8)} (hne : pieces ≠ [])
    (h : (f.extend pieces.flatten).drain = (texts, none, last)) :
    f.feedAll pieces = (texts, none, last) := by
  induction pieces generalizing f texts with
  | nil => exact absurd rfl hne
  | cons piece pieces ih =>
    rw [List.flatten_cons, ← extend_extend] at h
    obtain ⟨front, g, back, hfront, hsound, hback, rfl⟩ := drain_of_drain_extend (hf.extend piece) h
    rw [feedAll, feed_eq_ok_iff.mpr hfront]
    by_cases hlast : pieces = []
    · -- nothing is left to feed, and the pull that ended the drain is not made again
      obtain ⟨-, n, hend⟩ := exists_pulls (f.extend piece)
      rw [hfront] at hend
      have hwait := next_of_incomplete (sound_after (hf.extend piece) _) hend
      rw [hlast, List.flatten_nil, extend_nil, drain_of_incomplete hwait] at hback
      simp only [Prod.mk.injEq] at hback
      obtain ⟨rfl, -, rfl⟩ := hback
      simp [hlast, feedAll]
    · simp only [ih hsound hlast hback]

/-- **Terminated messages arrive trimmed, whatever the pieces they come in.** -/
theorem feedAll_terminated {limit : Nat} {messages : List String} {pieces : List (List UInt8)}
    (h : ∀ m ∈ messages, Utf8.size m.toList ≤ limit ∧ Terminated.Closable m) (hne : pieces ≠ [])
    (hpieces : pieces.flatten = messages.flatMap Framing.endOfMessage.encode) :
    (start limit).feedAll pieces = (messages.map trimString, none, start limit) := by
  refine feedAll_of_drain (sound_start limit) hne ?_
  rw [hpieces]
  exact drain_terminated messages h

end NetconfClient.Framer
