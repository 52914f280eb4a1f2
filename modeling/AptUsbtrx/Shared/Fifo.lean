import Mathlib.Data.List.Basic

/-! # Bounded queues that reject writes

A write is accepted as a whole or rejected as a whole and counted. Between a write that
always fits and one that never fits the queue is free to decide. -/

namespace Fifo

variable {α : Type*}

structure State (α : Type*) where
  queue : List α
  skipped : ℕ

inductive Op (α : Type*) where
  | write (xs : List α)
  | take (n : ℕ)
  | clear

inductive Out (α : Type*) where
  | accepted
  | rejected
  | taken (xs : List α)
  | cleared

/-- One operation on a queue of the given capacity. -/
inductive Step (capacity : ℕ) : State α → Op α → Out α → State α → Prop where
  | accept {s : State α} {xs : List α} : s.queue.length + xs.length ≤ capacity →
      Step capacity s (.write xs) .accepted { s with queue := s.queue ++ xs }
  | reject {s : State α} {xs : List α} : capacity ≤ s.queue.length + xs.length →
      Step capacity s (.write xs) .rejected { s with skipped := s.skipped + xs.length }
  | take {s : State α} {n : ℕ} :
      Step capacity s (.take n) (.taken (s.queue.take n)) { s with queue := s.queue.drop n }
  | clear {s : State α} : Step capacity s .clear .cleared { s with queue := [] }

/-- A sequence of operations with the observed outcomes. -/
inductive Run (capacity : ℕ) : State α → List (Op α × Out α) → State α → Prop where
  | nil {s : State α} : Run capacity s [] s
  | cons {s t u : State α} {op : Op α} {out : Out α} {es : List (Op α × Out α)} :
      Step capacity s op out t → Run capacity t es u → Run capacity s ((op, out) :: es) u

/-- The cells that entered the queue. -/
def entered : List (Op α × Out α) → List α
  | [] => []
  | (.write xs, .accepted) :: es => xs ++ entered es
  | _ :: es => entered es

/-- The cells that were taken out. -/
def taken : List (Op α × Out α) → List α
  | [] => []
  | (_, .taken xs) :: es => xs ++ taken es
  | _ :: es => taken es

theorem Run.append {capacity : ℕ} {s t u : State α} {es fs : List (Op α × Out α)}
    (h : Run capacity s es t) (h' : Run capacity t fs u) : Run capacity s (es ++ fs) u := by
  induction h with
  | nil => exact h'
  | cons step _ ih => exact .cons step (ih h')

theorem entered_append (es fs : List (Op α × Out α)) :
    entered (es ++ fs) = entered es ++ entered fs := by
  induction es using entered.induct with
  | case1 => rfl
  | case2 xs es ih => simp only [List.cons_append, entered, ih, List.append_assoc]
  | case3 e es hne ih => rw [List.cons_append, entered, entered, ih] <;> exact hne

theorem taken_append (es fs : List (Op α × Out α)) : taken (es ++ fs) = taken es ++ taken fs := by
  induction es using taken.induct with
  | case1 => rfl
  | case2 op xs es ih => simp only [List.cons_append, taken, ih, List.append_assoc]
  | case3 e es hne ih => rw [List.cons_append, taken, taken, ih] <;> exact hne

/-- Without a clear nothing is lost, duplicated or reordered. -/
theorem Run.conservation {capacity : ℕ} {s t : State α} {es : List (Op α × Out α)}
    (h : Run capacity s es t) (hclear : ∀ e ∈ es, e.2 ≠ .cleared) :
    s.queue ++ entered es = taken es ++ t.queue := by
  induction h with
  | nil => simp [entered, taken]
  | cons step _ ih =>
      have ih := ih fun e he => hclear e (List.mem_cons_of_mem _ he)
      cases step with
      | accept => simpa [entered, taken] using ih
      | reject => simpa [entered, taken] using ih
      | @take n =>
          simp only [entered, taken, List.append_assoc, ← ih]
          rw [← List.append_assoc, List.take_append_drop]
      | clear => exact absurd rfl (hclear _ List.mem_cons_self)

section Implementation

variable {σ ι : Type*} (step : σ → ι → σ) (op : ι → Op α) (out : σ → ι → Out α)

/-- What an implementation shows of its operations. -/
def trace : σ → List ι → List (Op α × Out α)
  | _, [] => []
  | x, i :: is => (op i, out x i) :: trace (step x i) is

/-- An implementation runs like the queue when each operation does. `R` relates its states
to those of the queue. -/
theorem run_trace {capacity : ℕ} {R : σ → State α → Prop} {legal : ι → Prop}
    (hstep : ∀ x s i, legal i → R x s →
      ∃ t, Step capacity s (op i) (out x i) t ∧ R (step x i) t)
    {x : σ} {s : State α} (hx : R x s) (is : List ι) (his : ∀ i ∈ is, legal i) :
    ∃ t, Run capacity s (trace step op out x is) t ∧ R (is.foldl step x) t := by
  induction is generalizing x s with
  | nil => exact ⟨s, .nil, hx⟩
  | cons i is ih =>
      obtain ⟨t, ht, hxt⟩ := hstep x s i (his i List.mem_cons_self) hx
      obtain ⟨u, hrun, hu⟩ := ih hxt fun j hj => his j (List.mem_cons_of_mem _ hj)
      exact ⟨u, .cons ht hrun, hu⟩

end Implementation

end Fifo
