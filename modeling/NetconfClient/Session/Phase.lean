/-
  NetconfClient/Session/Phase.lean
  ================================
  **The life of a session.**

  It only moves forward: advancing to an earlier phase changes nothing.
-/

namespace NetconfClient.Session

/-- Where a session is in its life. -/
inductive Phase where
  | connecting
  | opened
  | closing
  | closed
  deriving DecidableEq, Repr

namespace Phase

/-- The place of a phase in the order. -/
def rank : Phase → Nat
  | connecting => 0
  | opened => 1
  | closing => 2
  | closed => 3

/-- The later of two phases. -/
def advance (p q : Phase) : Phase := if p.rank < q.rank then q else p

theorem rank_advance (p q : Phase) : (p.advance q).rank = max p.rank q.rank := by
  unfold advance
  split <;> omega

/-- No phase is left for an earlier one. -/
theorem rank_le_advance (p q : Phase) : p.rank ≤ (p.advance q).rank := by
  rw [rank_advance]
  omega

@[simp] theorem advance_closed (p : Phase) : p.advance .closed = .closed := by
  cases p <;> rfl

end Phase

end NetconfClient.Session
