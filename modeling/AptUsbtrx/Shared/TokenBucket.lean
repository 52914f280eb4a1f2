import Mathlib.Data.Int.Notation
import Mathlib.Data.List.Basic
import Mathlib.Logic.Relation

/-! # A bucket of tokens

A refill sets the tokens to a budget and begins a window. What is spent in the window is a token
at a time. -/

/-- A window from one refill to the next. -/
structure TokenWindow where
  budget : ℤ
  spent : ℕ

structure TokenBucket where
  tokens : ℤ
  current : TokenWindow
  past : List TokenWindow

namespace TokenBucket

def empty : TokenBucket := ⟨0, ⟨0, 0⟩, []⟩

inductive Step : TokenBucket → TokenBucket → Prop where
  | refill {b : TokenBucket} {budget : ℤ} : 0 ≤ budget →
      Step b ⟨budget, ⟨budget, 0⟩, b.current :: b.past⟩
  | spend {b : TokenBucket} : 0 < b.tokens →
      Step b ⟨b.tokens - 1, { b.current with spent := b.current.spent + 1 }, b.past⟩

def Reachable (b : TokenBucket) : Prop := Relation.ReflTransGen Step empty b

/-- The tokens are what is left of the budget, and no window has spent more than it had. -/
structure Balanced (b : TokenBucket) : Prop where
  tokens_nonneg : 0 ≤ b.tokens
  balance : b.tokens + b.current.spent = b.current.budget
  past : ∀ w ∈ b.past, (w.spent : ℤ) ≤ w.budget

theorem Balanced.spent_le {b : TokenBucket} (h : Balanced b) :
    ∀ w ∈ b.current :: b.past, (w.spent : ℤ) ≤ w.budget := by
  intro w hw
  rcases List.mem_cons.mp hw with rfl | hw
  · have := h.tokens_nonneg
    have := h.balance
    omega
  · exact h.past w hw

theorem Balanced.step {b c : TokenBucket} (h : Balanced b) (hstep : Step b c) : Balanced c := by
  cases hstep with
  | refill hbudget => exact ⟨hbudget, Int.add_zero _, h.spent_le⟩
  | spend hpos =>
      have hbalance := h.balance
      refine ⟨Int.sub_nonneg_of_le hpos, ?_, h.past⟩
      dsimp only
      omega

theorem balanced_of_reachable {b : TokenBucket} (h : Reachable b) : Balanced b := by
  induction h with
  | refl => exact ⟨Int.le_refl 0, rfl, nofun⟩
  | tail _ hstep ih => exact ih.step hstep

theorem Balanced.tokens_le {b : TokenBucket} (h : Balanced b) : b.tokens ≤ b.current.budget := by
  have := h.balance
  omega

end TokenBucket
