import Mathlib.Data.List.Basic

/-! # Scripts

The steps of a list are carried out one after another until one fails. A step may not return. -/

namespace Script

variable {σ ι : Type*} {step : ι → σ → Option (Bool × σ)}

/-- Whether every step has succeeded, and the state that the last one leaves. -/
def run (step : ι → σ → Option (Bool × σ)) : List ι → σ → Option (Bool × σ)
  | [], s => some (true, s)
  | i :: is, s =>
      match step i s with
      | some (true, s) => run step is s
      | other => other

@[simp] theorem run_nil (s : σ) : run step [] s = some (true, s) := rfl

/-- A script ends with its first step, or goes on behind it. -/
theorem run_cons_cases {i : ι} {is : List ι} {s t : σ} {ok : Bool}
    (h : run step (i :: is) s = some (ok, t)) :
    ok = false ∧ step i s = some (false, t) ∨
      ∃ u, step i s = some (true, u) ∧ run step is u = some (ok, t) := by
  rw [run] at h
  split at h
  case h_1 u hstep => exact .inr ⟨u, hstep, h⟩
  case h_2 hstep =>
    cases ok with
    | false => exact .inl ⟨rfl, h⟩
    | true => exact absurd h (hstep t)

/-- A script in front of another fails, or leaves the state that the other one starts in. -/
theorem run_append_cases {is js : List ι} {s t : σ} {ok : Bool}
    (h : run step (is ++ js) s = some (ok, t)) :
    ok = false ∧ run step is s = some (false, t) ∨
      ∃ u, run step is s = some (true, u) ∧ run step js u = some (ok, t) := by
  induction is generalizing s with
  | nil => exact .inr ⟨s, rfl, h⟩
  | cons i is ih =>
      rcases run_cons_cases h with ⟨hok, hstep⟩ | ⟨u, hstep, hrest⟩
      · exact .inl ⟨hok, by rw [run, hstep]⟩
      · rw [run, hstep]
        exact ih hrest

/-- What every step preserves, whether it succeeds or not. -/
theorem run_invariant {I : σ → Prop} {is : List ι}
    (hstep : ∀ i ∈ is, ∀ s ok t, I s → step i s = some (ok, t) → I t) {s t : σ} {ok : Bool}
    (hs : I s) (h : run step is s = some (ok, t)) : I t := by
  induction is generalizing s with
  | nil =>
      cases h
      exact hs
  | cons i is ih =>
      rcases run_cons_cases h with ⟨-, hlast⟩ | ⟨u, hfirst, hrest⟩
      · exact hstep i List.mem_cons_self s false t hs hlast
      · exact ih (fun j hj => hstep j (List.mem_cons_of_mem i hj))
          (hstep i List.mem_cons_self s true u hs hfirst) hrest

/-- What the steps establish under an invariant holds in the end, when no later step undoes it. -/
theorem run_established {I : σ → Prop} {Q : ι → σ → Prop} {is : List ι}
    (hinv : ∀ i ∈ is, ∀ s ok t, I s → step i s = some (ok, t) → I t)
    (hstep : ∀ i ∈ is, ∀ s t, I s → step i s = some (true, t) → Q i t)
    (hkeep : is.Pairwise fun i j => ∀ s ok t, I s → Q i s → step j s = some (ok, t) → Q i t)
    {s t : σ} (hs : I s) (h : run step is s = some (true, t)) : ∀ i ∈ is, Q i t := by
  induction is generalizing s with
  | nil => exact fun i hi => absurd hi List.not_mem_nil
  | cons i is ih =>
      obtain ⟨hkeepHead, hkeepTail⟩ := List.pairwise_cons.mp hkeep
      rcases run_cons_cases h with ⟨hok, -⟩ | ⟨u, hfirst, hrest⟩
      · cases hok
      have hu : I u := hinv i List.mem_cons_self s true u hs hfirst
      have htail := ih (fun j hj => hinv j (List.mem_cons_of_mem i hj))
        (fun j hj => hstep j (List.mem_cons_of_mem i hj)) hkeepTail hu hrest
      have hhead : I t ∧ Q i t :=
        run_invariant (I := fun v => I v ∧ Q i v)
          (fun j hj v ok w hv hw => ⟨hinv j (List.mem_cons_of_mem i hj) v ok w hv.1 hw,
            hkeepHead j hj v ok w hv.1 hv.2 hw⟩)
          ⟨hu, hstep i List.mem_cons_self s u hs hfirst⟩ hrest
      exact fun j hj => (List.mem_cons.mp hj).elim (fun heq => heq ▸ hhead.2) (htail j)

end Script
