import Mathlib.Data.Nat.Notation

/-! # Loops that count down

A body that is run for each number of an interval from its end to its start. It can end the loop, and
it can fail. -/

namespace CountDown

/-- How the body goes on: with the next number, or at the end of the loop. -/
inductive Result (σ : Type*) where
  | next (s : σ)
  | stop (s : σ)

variable {σ : Type*}

/-- The loop over the `n` numbers from `lo`. -/
def run (body : ℕ → σ → Option (Result σ)) (lo : ℕ) : ℕ → σ → Option σ
  | 0, s => some s
  | n + 1, s =>
      match body (lo + n) s with
      | none => none
      | some (.stop s) => some s
      | some (.next s) => run body lo n s

variable {body : ℕ → σ → Option (Result σ)} {lo n : ℕ} {s t : σ}

/-- `I v` holds when the numbers from `v` on are done. -/
theorem run_invariant {I : ℕ → σ → Prop} {Q : σ → Prop}
    (hnext : ∀ v s s', lo ≤ v → v < lo + n → I (v + 1) s → body v s = some (.next s') → I v s')
    (hstop : ∀ v s s', lo ≤ v → v < lo + n → I (v + 1) s → body v s = some (.stop s') → Q s')
    (hdone : ∀ s, I lo s → Q s) (hstart : I (lo + n) s) (h : run body lo n s = some t) : Q t := by
  induction n generalizing s with
  | zero =>
      cases h
      exact hdone _ hstart
  | succ n ih =>
      rw [run] at h
      split at h
      next => cases h
      next s' hbody =>
        cases h
        exact hstop _ _ _ (Nat.le_add_right lo n) (Nat.lt_succ_self _) hstart hbody
      next s' hbody =>
        refine ih (fun v u u' hlow hhigh => hnext v u u' hlow (by omega))
          (fun v u u' hlow hhigh => hstop v u u' hlow (by omega)) ?_ h
        exact hnext _ _ _ (Nat.le_add_right lo n) (Nat.lt_succ_self _) hstart hbody

/-- A body that fails for no number makes a loop that does not fail. -/
theorem run_ne_none {I : σ → Prop} (hbody : ∀ v s, lo ≤ v → v < lo + n → I s → body v s ≠ none)
    (hnext : ∀ v s s', lo ≤ v → v < lo + n → I s → body v s = some (.next s') → I s') (hs : I s) :
    run body lo n s ≠ none := by
  induction n generalizing s with
  | zero => simp [run]
  | succ n ih =>
      have hlast : lo + n < lo + (n + 1) := Nat.lt_succ_self _
      rw [run]
      split
      next hnone => exact absurd hnone (hbody _ _ (Nat.le_add_right lo n) hlast hs)
      next => simp
      next s' hbody' =>
        refine ih (fun v u hlow hhigh => hbody v u hlow (by omega))
          (fun v u u' hlow hhigh => hnext v u u' hlow (by omega)) ?_
        exact hnext _ _ _ (Nat.le_add_right lo n) hlast hs hbody'

/-- A body that fails for one number and ends the loop for none before makes the loop fail. -/
theorem run_eq_none {I : σ → Prop} {w : ℕ} (hlow : lo ≤ w) (hhigh : w < lo + n)
    (hw : ∀ s, body w s = none)
    (hstop : ∀ v s s', w < v → v < lo + n → I s → body v s ≠ some (.stop s'))
    (hnext : ∀ v s s', w < v → v < lo + n → I s → body v s = some (.next s') → I s') (hs : I s) :
    run body lo n s = none := by
  induction n generalizing s with
  | zero => omega
  | succ n ih =>
      rw [run]
      rcases Nat.eq_or_lt_of_le (show w ≤ lo + n by omega) with rfl | hlt
      · rw [hw]
      · have hlast : lo + n < lo + (n + 1) := Nat.lt_succ_self _
        split
        next => rfl
        next s' hbody => exact absurd hbody (hstop _ _ _ hlt hlast hs)
        next s' hbody =>
          refine ih hlt (fun v u u' hv hvn => hstop v u u' hv (by omega))
            (fun v u u' hv hvn => hnext v u u' hv (by omega)) ?_
          exact hnext _ _ _ hlt hlast hs hbody

end CountDown
