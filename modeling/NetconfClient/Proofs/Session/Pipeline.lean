/-
  NetconfClient/Proofs/Session/Pipeline.lean
  ==========================================
  **Calls that are begun together send in the order of their numbers.**

  Two things are taken for granted: of the calls of a group none takes a step
  before the ones in front of it have come to the queue (`Polled`), and room in
  the queue goes to the one that has waited longest (`Fifo`).  Then whoever waits
  has everybody with a smaller number waiting in front of it, or sent (`Line`),
  and what has been sent is always the front of the list.
-/
import Mathlib.Data.List.Perm.Subperm
import NetconfClient.Proofs.Session.Course

namespace NetconfClient.Session

open Text

/-! ## 1. Orders -/

namespace History

/-- A call takes steps only when those of smaller numbers have come to the queue. -/
def Polled (history : History) (numbers : List Nat) : Prop :=
  ∀ e ∈ history, ∀ n ∈ numbers, ∀ m ∈ numbers, m < n → e.2 = .step (.call n) →
    e.1.isEarly m = false

/-- Room in the queue goes to a call that has waited when the others that wait had not come. -/
def Fifo (history : History) (numbers : List Nat) : Prop :=
  ∀ i, (h : i < history.length) → ∀ n ∈ numbers, ∀ m ∈ numbers, m ≠ n →
    (history[i].1.admitted? history[i].2).map Prod.fst = some n → history[i].1.queues m = true →
    ∃ e ∈ history.take i, e.1.queues n = true ∧ e.1.queues m = false

instance (history : History) (numbers : List Nat) : Decidable (history.Polled numbers) := by
  unfold Polled
  infer_instance

instance (history : History) (numbers : List Nat) : Decidable (history.Fifo numbers) := by
  unfold Fifo
  infer_instance

/-- What the calls of a group have sent. -/
def sentBy (history : History) (group : List (Nat × String)) : List (Nat × String) :=
  history.admissions.filter fun a => a.1 ∈ group.map Prod.fst

variable {history before behind : History} {numbers : List Nat} {s : System} {move : Move}

theorem mem_sentBy {group : List (Nat × String)} {p : Nat × String} :
    p ∈ history.sentBy group ↔ p ∈ history.admissions ∧ p.1 ∈ group.map Prod.fst := by
  rw [sentBy, List.mem_filter, decide_eq_true_iff]

theorem Polled.front (h : Polled (before ++ behind) numbers) : before.Polled numbers :=
  fun e he => h e (List.mem_append_left _ he)

theorem Polled.last {n m : Nat} (h : Polled (history ++ [(s, .step (.call n))]) numbers)
    (hn : n ∈ numbers) (hm : m ∈ numbers) (hlt : m < n) : s.isEarly m = false :=
  h (s, .step (.call n)) (List.mem_append_right _ List.mem_cons_self) n hn m hm hlt rfl

theorem Fifo.front (h : Fifo (before ++ behind) numbers) : before.Fifo numbers := by
  intro i hi n hn m hm hne hadmitted hqueues
  have hi' : i < (before ++ behind).length := by
    rw [List.length_append]
    omega
  have hlast := h i hi' n hn m hm hne
  rw [List.getElem_append_left hi, List.take_append_of_le_length (Nat.le_of_lt hi)] at hlast
  exact hlast hadmitted hqueues

theorem Fifo.last {n m : Nat} (h : Fifo (history ++ [(s, move)]) numbers) (hn : n ∈ numbers)
    (hm : m ∈ numbers) (hne : m ≠ n) (hadmitted : (s.admitted? move).map Prod.fst = some n)
    (hqueues : s.queues m = true) :
    ∃ e ∈ history, e.1.queues n = true ∧ e.1.queues m = false := by
  have hlast := h history.length (by simp) n hn m hm hne
  simp only [List.getElem_append_right (Nat.le_refl _), Nat.sub_self, List.getElem_cons_zero,
    List.take_left] at hlast
  exact hlast hadmitted hqueues

end History

/-- What comes next in a list in ascending order goes behind what has been taken from it. -/
theorem prefix_concat_of_next {group sent : List (Nat × String)} {q : Nat × String}
    (hsorted : group.Pairwise (·.1 < ·.1)) (hfront : sent <+: group) (hq : q ∈ group)
    (hnot : q ∉ sent) (hall : ∀ p ∈ group, p.1 < q.1 → p ∈ sent) : sent ++ [q] <+: group := by
  obtain ⟨rest, rfl⟩ := hfront
  cases rest with
  | nil =>
    rw [List.append_nil] at hq
    exact absurd hq hnot
  | cons r rest =>
    rcases List.mem_append.mp hq with hq | hq
    · exact absurd hq hnot
    rcases List.mem_cons.mp hq with rfl | hq
    · exact ⟨rest, by simp⟩
    · -- something in front of it has not been taken yet
      obtain ⟨-, hbehind, hbetween⟩ := List.pairwise_append.mp hsorted
      have hlt : r.1 < q.1 := (List.pairwise_cons.mp hbehind).1 q hq
      have hsent : r ∈ sent := hall r (List.mem_append_right _ List.mem_cons_self) hlt
      exact absurd (hbetween r hsent r List.mem_cons_self) (Nat.lt_irrefl _)

/-- A call comes to the queue when it finds the session open. -/
theorem opened_of_queues {s t : System} {stage later : Stage}
    (h : s.stepStage stage = some (t, .goOn later)) (hlater : later.queues = true) :
    s.phase = .opened := by
  have hother : ¬ (System.Next.goOn later).IsAftermath := by
    cases later <;> first | exact id | cases hlater
  cases stage
  all_goals
    simp only [System.stepStage] at h
    repeat' split at h
  all_goals first
    | exact absurd (Prod.mk.inj (Option.some.inj h)).2 (System.refused_ne hother _ _)
    | exact absurd (Prod.mk.inj (Option.some.inj h)).2 (System.queued_ne hother _ _ _)
    | assumption
    | cases h; cases hlater
    | cases h

/-! ## 2. The line in front of the queue -/

/-- What calls of a group have sent, and who waits behind whom. -/
structure Line (group : List (Nat × String)) (history : History) (s : System) : Prop where
  sent : history.sentBy group <+: group
  /-- At every time, whoever waits has those in front of it waiting too, unless they have sent
      by now or nobody can any more. -/
  behind : ∀ u ∈ history.map Prod.fst ++ [s], ∀ p ∈ group, ∀ q ∈ group, p.1 < q.1 →
    u.queues q.1 = true →
    u.queues p.1 = true ∨ p ∈ history.admissions ∨ s.queue.closed = true

namespace Line

variable {group : List (Nat × String)} {history : History} {s t : System} {move : Move}
  {p q : Nat × String}

theorem queues_of_same (h : t.calls.lookup p.1 = s.calls.lookup p.1) :
    t.queues p.1 = s.queues p.1 := by
  rw [System.queues, h, System.queues]

/-- A call that waits goes on waiting, sends, or finds that nobody can any more. -/
theorem queues_perform (hs : s.Numbered) (hp : Course history s p.1 p.2)
    (hqueues : s.queues p.1 = true) (hstep : s.perform move = some t) :
    t.queues p.1 = true ∨ p ∈ History.admissions (history ++ [(s, move)]) ∨
      t.queue.closed = true := by
  obtain ⟨ticket, hstage, -⟩ := hp.of_queues hqueues
  rcases System.lookup_perform hs hstep p.1 with ⟨-, hsame⟩ |
    ⟨stage, u, next, rfl, hstage', hcall, -⟩ | ⟨_, _, _, _, hnone, _⟩
  · exact .inl (queues_of_same hsame ▸ hqueues)
  · obtain rfl := Option.some.inj (hstage'.symm.trans hstage)
    rcases System.enqueue_cases hcall with ⟨hclosed, -⟩ | ⟨haccepts, -⟩
    · exact .inr (.inr (Retiring.closed_perform hstep hclosed))
    · refine .inr (.inl (History.mem_admissions_snoc.mpr (.inr ?_)))
      rw [admitted?_of_stage hstage, System.accepting, if_pos haccepts]
      rfl
  · rw [hnone] at hstage
    cases hstage

/-- A call that comes to the queue has those in front of it waiting, or they have sent. -/
theorem arrive (hs : s.Numbered) (hp : Course history s p.1 p.2)
    (hearly : move = .step (.call q.1) → s.isEarly p.1 = false) (hlt : p.1 < q.1)
    (hbefore : s.queues q.1 = false) (hqueues : t.queues q.1 = true)
    (hstep : s.perform move = some t) :
    t.queues p.1 = true ∨ p ∈ history.admissions := by
  rcases System.lookup_perform hs hstep q.1 with ⟨-, hsame⟩ |
    ⟨stage, u, next, rfl, -, hcall, hnext⟩ | ⟨entry, rfl, hentry, -, -, hbegun⟩
  · rw [queues_of_same hsame, hbefore] at hqueues
    cases hqueues
  · -- it has found the session open, so those in front of it have not left
    have hopen : s.phase = .opened := by
      rw [System.queues, hnext] at hqueues
      cases next with
      | finish result => cases hqueues
      | goOn later => exact opened_of_queues hcall hqueues
    by_cases hwaits : s.queues p.1 = true
    · obtain ⟨-, -, -, -, -, -, -, -, hothers, -⟩ := System.stage?_stepCall hstep
      exact .inl (queues_of_same (hothers p.1 (Nat.ne_of_lt hlt)) ▸ hwaits)
    · exact .inr (hp.sent (hearly rfl) (Bool.eq_false_iff.mpr hwaits) hopen)
  · rw [System.queues, hbegun] at hqueues
    cases entry <;> first | cases hqueues; done | cases hentry

/-- What is admitted is the first that has not been sent. -/
theorem enter {a : Nat × String} (h : Line group history s) (hsorted : group.Pairwise (·.1 < ·.1))
    (hcourse : ∀ p ∈ group, Course history s p.1 p.2)
    (hfifo : History.Fifo (history ++ [(s, move)]) (group.map Prod.fst))
    (hadmitted : s.admitted? move = some a) (ha : a.1 ∈ group.map Prod.fst) :
    history.sentBy group ++ [a] <+: group := by
  obtain ⟨number, message⟩ := a
  obtain ⟨q, hq, hnumber⟩ := List.mem_map.mp ha
  obtain ⟨rfl, haccepts, ticket, purpose, hstage⟩ := enqueue_of_admitted? hadmitted
  obtain rfl : q.1 = number := hnumber
  have hqueues : s.queues q.1 = true := by
    rw [System.queues, hstage]
    rfl
  obtain ⟨ticket', hstage', hnot⟩ := (hcourse q hq).of_queues hqueues
  obtain rfl : q.2 = message := by
    rw [hstage] at hstage'
    cases hstage'
    rfl
  have hunsent : q ∉ history.sentBy group := fun hmem => hnot q.2 (History.mem_sentBy.mp hmem).1
  refine prefix_concat_of_next hsorted h.sent hq hunsent ?_
  intro p hp hlt
  refine History.mem_sentBy.mpr ⟨?_, List.mem_map_of_mem hp⟩
  by_contra hmissing
  have hopen : s.queue.closed ≠ true := by
    intro hclosed
    simp [System.accepts, hclosed] at haccepts
  -- it would wait in front of the other, and have waited longer
  have hwaits : s.queues p.1 = true := by
    rcases h.behind s (List.mem_append_right _ List.mem_cons_self) p hp q hq hlt hqueues with
      hwaits | hthere | hclosed
    · exact hwaits
    · exact absurd hthere hmissing
    · exact absurd hclosed hopen
  obtain ⟨e, he, hlast, hfirst⟩ := hfifo.last ha (List.mem_map_of_mem hp) (Nat.ne_of_lt hlt)
    (by rw [hadmitted]; rfl) hwaits
  rcases h.behind e.1 (List.mem_append_left _ (List.mem_map_of_mem he)) p hp q hq hlt hlast with
    hwaited | hthere | hclosed
  · rw [hfirst] at hwaited
    cases hwaited
  · exact hmissing hthere
  · exact hopen hclosed

/-- **Every move keeps the line.** -/
theorem perform (h : Line group history s) (hs : s.Numbered)
    (hsorted : group.Pairwise (·.1 < ·.1)) (hcourse : ∀ p ∈ group, Course history s p.1 p.2)
    (hpolled : History.Polled (history ++ [(s, move)]) (group.map Prod.fst))
    (hfifo : History.Fifo (history ++ [(s, move)]) (group.map Prod.fst))
    (hstep : s.perform move = some t) : Line group (history ++ [(s, move)]) t := by
  have hmore : ∀ p, p ∈ history.admissions → p ∈ History.admissions (history ++ [(s, move)]) :=
    fun p hp => History.mem_admissions_snoc.mpr (.inl hp)
  have hclosed : s.queue.closed = true → t.queue.closed = true := Retiring.closed_perform hstep
  refine ⟨?_, ?_⟩
  · rw [History.sentBy, History.admissions_snoc, List.filter_append]
    cases hadmitted : s.admitted? move with
    | none =>
      rw [Option.toList_none, List.filter_nil, List.append_nil]
      exact h.sent
    | some a =>
      by_cases ha : a.1 ∈ group.map Prod.fst
      · rw [Option.toList_some, List.filter_cons_of_pos (by simpa using ha), List.filter_nil]
        exact h.enter hsorted hcourse hfifo hadmitted ha
      · rw [Option.toList_some, List.filter_cons_of_neg (by simpa using ha), List.filter_nil,
          List.append_nil]
        exact h.sent
  · intro u hu p hp q hq hlt hqueues
    have hbefore : ∀ v ∈ history.map Prod.fst ++ [s], v.queues q.1 = true →
        v.queues p.1 = true ∨ p ∈ History.admissions (history ++ [(s, move)]) ∨
          t.queue.closed = true :=
      fun v hv hwaits => (h.behind v hv p hp q hq hlt hwaits).imp id (Or.imp (hmore p) hclosed)
    rw [List.map_append] at hu
    rcases List.mem_append.mp hu with hu | hu
    · exact hbefore u hu hqueues
    obtain rfl := List.mem_singleton.mp hu
    by_cases hwaits : s.queues q.1 = true
    · -- both have waited, or the one in front has sent
      rcases hbefore s (List.mem_append_right _ List.mem_cons_self) hwaits with hp' | hrest
      · exact queues_perform hs (hcourse p hp) hp' hstep
      · exact .inr hrest
    · have hearly : move = .step (.call q.1) → s.isEarly p.1 = false := by
        rintro rfl
        exact hpolled.last (List.mem_map_of_mem hq) (List.mem_map_of_mem hp) hlt
      rcases arrive hs (hcourse p hp) hearly hlt (Bool.eq_false_iff.mpr hwaits) hqueues hstep with
        hp' | hp'
      · exact .inl hp'
      · exact .inr (.inl (hmore p hp'))

/-- **The calls of a group send in the order of their numbers.** -/
theorem run {config : Config} {own : CapabilitySet} {link : Link} {now : Duration}
    {before later : History} {u : System} (hsorted : group.Pairwise (·.1 < ·.1))
    (hfresh : ∀ p ∈ group, u.Fresh p.1 p.2)
    (hrun : Run (.start config own link now) before u) (hlater : Run u later s)
    (horderly : History.Orderly (before ++ later)) (hmade : History.MadeUp (before ++ later))
    (hpolled : later.Polled (group.map Prod.fst)) (hfifo : later.Fifo (group.map Prod.fst)) :
    Line group later s := by
  induction hlater with
  | nil =>
    refine ⟨List.nil_prefix, ?_⟩
    intro v hv p hp q hq hlt hqueues
    obtain rfl := List.mem_singleton.mp hv
    -- nobody has come to the queue yet
    rw [System.queues, (hfresh q hq).2.1] at hqueues
    cases hqueues
  | snoc hlater hstep ih =>
    rw [← List.append_assoc] at horderly hmade
    have hs := hrun.append hlater
    refine (ih horderly.front hmade.front hpolled.front hfifo.front).perform
      hs.numbered_of_start hsorted ?_ hpolled hfifo hstep
    intro p hp
    exact (Course.run (hfresh p hp) hrun hlater horderly.front hmade.front).1

/-- While the session is open and nobody is in front of the queue or in it, everything has been
    sent. -/
theorem complete (h : Line group history s) (hsorted : group.Pairwise (·.1 < ·.1))
    (hcourse : ∀ p ∈ group, Course history s p.1 p.2) (hopen : s.phase = .opened)
    (hpast : ∀ p ∈ group, s.isEarly p.1 = false ∧ s.queues p.1 = false) :
    history.sentBy group = group := by
  have hall : group ⊆ history.sentBy group := by
    intro p hp
    exact History.mem_sentBy.mpr
      ⟨(hcourse p hp).sent (hpast p hp).1 (hpast p hp).2 hopen, List.mem_map_of_mem hp⟩
  have hnodup : group.Nodup := hsorted.imp fun hlt heq => Nat.ne_of_lt hlt (congrArg Prod.fst heq)
  exact h.sent.eq_of_length_le (List.subperm_of_subset hnodup hall).length_le

end Line

end NetconfClient.Session
