import Mathlib.Data.List.Basic

/-! # Executions of a labelled transition system

A system is a partial step function: the label resolves every choice, and a label
that is not possible in a state gives `none`. -/

namespace Execution

variable {σ τ ℓ : Type*}

/-- The state after the labels `ls`, when all of them are possible in turn. -/
def exec (step : σ → ℓ → Option σ) (s : σ) (ls : List ℓ) : Option σ :=
  ls.foldlM step s

@[simp] theorem exec_nil (step : σ → ℓ → Option σ) (s : σ) : exec step s [] = some s := rfl

@[simp] theorem exec_cons (step : σ → ℓ → Option σ) (s : σ) (l : ℓ) (ls : List ℓ) :
    exec step s (l :: ls) = (step s l).bind fun t => exec step t ls := rfl

theorem exec_append (step : σ → ℓ → Option σ) (s : σ) (ks ls : List ℓ) :
    exec step s (ks ++ ls) = (exec step s ks).bind fun t => exec step t ls := by
  simp [exec, List.foldlM_append]

theorem exec_concat_iff {step : σ → ℓ → Option σ} {s t : σ} {ls : List ℓ} {l : ℓ} :
    exec step s (ls ++ [l]) = some t ↔ ∃ u, exec step s ls = some u ∧ step u l = some t := by
  simp [exec_append, Option.bind_eq_some_iff]

/-- An execution in front of a label, at the label and behind it. -/
theorem exec_append_cons_iff {step : σ → ℓ → Option σ} {s t : σ} {ks ls : List ℓ} {l : ℓ} :
    exec step s (ks ++ l :: ls) = some t ↔
      ∃ u v, exec step s ks = some u ∧ step u l = some v ∧ exec step v ls = some t := by
  simp [exec_append, Option.bind_eq_some_iff]

/-- Labels of one kind lead from `s` to a state of another. -/
def CanReach (step : σ → ℓ → Option σ) (P : ℓ → Prop) (Q : σ → Prop) (s : σ) : Prop :=
  ∃ ls t, (∀ l ∈ ls, P l) ∧ exec step s ls = some t ∧ Q t

theorem canReach_self {step : σ → ℓ → Option σ} {P : ℓ → Prop} {Q : σ → Prop} {s : σ} (h : Q s) :
    CanReach step P Q s :=
  ⟨[], s, nofun, rfl, h⟩

theorem CanReach.of_step {step : σ → ℓ → Option σ} {P : ℓ → Prop} {Q : σ → Prop} {s t : σ} {l : ℓ}
    (h : CanReach step P Q t) (hstep : step s l = some t) (hl : P l) : CanReach step P Q s := by
  obtain ⟨ls, u, hls, hexec, hu⟩ := h
  refine ⟨l :: ls, u, ?_, ?_, hu⟩
  · intro k hk
    rcases List.mem_cons.mp hk with rfl | hk
    · exact hl
    · exact hls k hk
  · rw [exec_cons, hstep, Option.bind_some, hexec]

/-- A state is reached when some step of the kind always brings it nearer. -/
theorem canReach_of_rank {step : σ → ℓ → Option σ} {P : ℓ → Prop} {I Q : σ → Prop} (rank : σ → ℕ)
    (hstep : ∀ s, I s → ¬ Q s → ∃ l t, P l ∧ step s l = some t ∧ I t ∧ rank t < rank s) {s : σ}
    (hs : I s) : CanReach step P (fun t => I t ∧ Q t) s := by
  induction hrank : rank s using Nat.strongRecOn generalizing s with
  | ind n ih =>
      by_cases hQ : Q s
      · exact canReach_self ⟨hs, hQ⟩
      · obtain ⟨l, t, hl, hst, ht, hlt⟩ := hstep s hs hQ
        exact (ih (rank t) (hrank ▸ hlt) ht rfl).of_step hst hl

/-- A property that every step preserves holds along every execution. -/
theorem exec_invariant {step : σ → ℓ → Option σ} {I : σ → Prop}
    (hstep : ∀ s l t, I s → step s l = some t → I t) {s t : σ} {ls : List ℓ}
    (hs : I s) (h : exec step s ls = some t) : I t := by
  induction ls generalizing s with
  | nil =>
      simp only [exec_nil, Option.some.injEq] at h
      exact h ▸ hs
  | cons l ls ih =>
      obtain ⟨u, hu, hrest⟩ := Option.bind_eq_some_iff.mp h
      exact ih (hstep s l u hs hu) hrest

/-- Every step of the execution of `ls` from `s` satisfies `C`. -/
def AllSteps (step : σ → ℓ → Option σ) (C : σ → ℓ → Prop) : σ → List ℓ → Prop
  | _, [] => True
  | s, l :: ls => C s l ∧ ∀ t, step s l = some t → AllSteps step C t ls

instance decidableAllSteps (step : σ → ℓ → Option σ) (C : σ → ℓ → Prop)
    [∀ s l, Decidable (C s l)] : ∀ s ls, Decidable (AllSteps step C s ls)
  | _, [] => isTrue trivial
  | s, l :: ls =>
      match h : step s l with
      | none => decidable_of_iff (C s l) ⟨fun hc => ⟨hc, fun _ ht => nomatch h.symm.trans ht⟩, And.left⟩
      | some t =>
          have := decidableAllSteps step C t ls
          decidable_of_iff (C s l ∧ AllSteps step C t ls)
            ⟨fun hc => ⟨hc.1, fun _ ht => Option.some.inj (h.symm.trans ht) ▸ hc.2⟩,
              fun hc => ⟨hc.1, hc.2 t h⟩⟩

theorem allSteps_of_forall_mem {step : σ → ℓ → Option σ} {C : σ → ℓ → Prop} {ls : List ℓ}
    (h : ∀ l ∈ ls, ∀ s, C s l) (s : σ) : AllSteps step C s ls := by
  induction ls generalizing s with
  | nil => exact trivial
  | cons l ls ih =>
      exact ⟨h l List.mem_cons_self s, fun t _ => ih (fun k hk => h k (List.mem_cons_of_mem _ hk)) t⟩

/-- A condition on the labels alone. -/
theorem allSteps_iff_forall_mem {step : σ → ℓ → Option σ} {C : ℓ → Prop} {s t : σ} {ls : List ℓ}
    (h : exec step s ls = some t) : AllSteps step (fun _ l => C l) s ls ↔ ∀ l ∈ ls, C l := by
  refine ⟨fun hall => ?_, fun hall => allSteps_of_forall_mem (fun l hl _ => hall l hl) s⟩
  induction ls generalizing s with
  | nil => simp
  | cons l ls ih =>
      obtain ⟨u, hu, hrest⟩ := Option.bind_eq_some_iff.mp h
      intro k hk
      rcases List.mem_cons.mp hk with rfl | hk
      · exact hall.1
      · exact ih hrest (hall.2 u hu) k hk

/-- The invariant rule for executions whose steps all satisfy a condition. -/
theorem exec_invariant_of_allSteps {step : σ → ℓ → Option σ} {I : σ → Prop}
    {C : σ → ℓ → Prop} (hstep : ∀ s l t, I s → C s l → step s l = some t → I t)
    {s t : σ} {ls : List ℓ} (hs : I s) (hc : AllSteps step C s ls)
    (h : exec step s ls = some t) : I t := by
  induction ls generalizing s with
  | nil =>
      simp only [exec_nil, Option.some.injEq] at h
      exact h ▸ hs
  | cons l ls ih =>
      obtain ⟨u, hu, hrest⟩ := Option.bind_eq_some_iff.mp h
      exact ih (hstep s l u hs hc.1 hu) (hc.2 u hu) hrest

/-- All states of an execution are good exactly when all its steps are, provided that from a good
state the good steps are those that lead to a good state. -/
theorem allSteps_iff_forall_prefix {step : σ → ℓ → Option σ} {I G : σ → Prop}
    {C : σ → ℓ → Prop} (hinv : ∀ s l t, I s → step s l = some t → I t)
    (hgood : ∀ s l t, I s → G s → step s l = some t → (G t ↔ C s l))
    {s t : σ} {ls : List ℓ} (hs : I s) (hG : G s) (h : exec step s ls = some t) :
    (∀ ks u, ks <+: ls → exec step s ks = some u → G u) ↔ AllSteps step C s ls := by
  induction ls generalizing s with
  | nil =>
      refine iff_of_true ?_ trivial
      intro ks u hks hu
      obtain rfl := List.prefix_nil.mp hks
      simp only [exec_nil, Option.some.injEq] at hu
      exact hu ▸ hG
  | cons l ls ih =>
      obtain ⟨u, hu, hrest⟩ := Option.bind_eq_some_iff.mp h
      have hstep := hgood s l u hs hG hu
      have hone : exec step s [l] = some u := by simp [hu]
      constructor
      · intro hall
        have hGu : G u := hall [l] u (by simp) hone
        refine ⟨hstep.mp hGu, ?_⟩
        intro t' ht'
        obtain rfl := Option.some.inj (hu.symm.trans ht')
        refine (ih (hinv s l u hs hu) hGu hrest).mp ?_
        intro ks v hks hv
        apply hall (l :: ks) v ((List.prefix_cons_inj l).mpr hks)
        rw [exec_cons, hu]
        exact hv
      · intro hall
        have hGu : G u := hstep.mpr hall.1
        have hks := (ih (hinv s l u hs hu) hGu hrest).mpr (hall.2 u hu)
        intro ks v hprefix hv
        cases ks with
        | nil =>
            simp only [exec_nil, Option.some.injEq] at hv
            exact hv ▸ hG
        | cons k ks =>
            obtain ⟨rfl, htail⟩ := List.cons_prefix_cons.mp hprefix
            rw [exec_cons, hu] at hv
            exact hks ks v htail hv

/-- The rule for two systems in lockstep: a label is possible in both or in neither, and
related states stay related, as long as the steps of the second satisfy a condition. -/
theorem exec_rel_of_allSteps {step : σ → ℓ → Option σ} {astep : τ → ℓ → Option τ}
    {R : σ → τ → Prop} {C : τ → ℓ → Prop}
    (hstep : ∀ s t l, R s t → C t l → Option.Rel R (step s l) (astep t l))
    {s : σ} {t : τ} {ls : List ℓ} (hst : R s t) (hc : AllSteps astep C t ls) :
    Option.Rel R (exec step s ls) (exec astep t ls) := by
  induction ls generalizing s t with
  | nil => exact .some hst
  | cons l ls ih =>
      have hrel := hstep s t l hst hc.1
      rw [exec_cons, exec_cons]
      cases hs : step s l with
      | none =>
          cases ht : astep t l with
          | none => exact .none
          | some t' =>
              rw [hs, ht] at hrel
              cases hrel
      | some s' =>
          cases ht : astep t l with
          | none =>
              rw [hs, ht] at hrel
              cases hrel
          | some t' =>
              rw [hs, ht] at hrel
              cases hrel with
              | some hst' => exact ih hst' (hc.2 t' ht)

/-- What only some steps bring about happened at one of them. -/
theorem exec_split_of {step : σ → ℓ → Option σ} {I P : σ → Prop} {R : σ → ℓ → Prop}
    (hinv : ∀ s l t, I s → step s l = some t → I t)
    (hstep : ∀ s l t, I s → ¬ P s → step s l = some t → P t → R s l) {s t : σ} {ls : List ℓ}
    (hI : I s) (hs : ¬ P s) (h : exec step s ls = some t) (ht : P t) :
    ∃ before l after u v, ls = before ++ l :: after ∧ exec step s before = some u ∧ I u ∧ ¬ P u ∧
      R u l ∧ step u l = some v ∧ exec step v after = some t := by
  induction ls generalizing s with
  | nil =>
      simp only [exec_nil, Option.some.injEq] at h
      exact absurd (h ▸ ht) hs
  | cons k ls ih =>
      obtain ⟨u, hu, hrest⟩ := Option.bind_eq_some_iff.mp h
      by_cases hP : P u
      · exact ⟨[], k, ls, s, u, rfl, rfl, hI, hs, hstep s k u hI hs hu hP, hu, hrest⟩
      · obtain ⟨before, l, after, v, w, rfl, hv, hend⟩ := ih (hinv s k u hI hu) hP hrest
        refine ⟨k :: before, l, after, v, w, rfl, ?_, hend⟩
        rw [exec_cons, hu]
        exact hv

/-- What only one label brings about happened at that label. -/
theorem exec_split_at {step : σ → ℓ → Option σ} {P : σ → Prop} {l : ℓ}
    (hstep : ∀ s k t, step s k = some t → P t → P s ∨ k = l) {s t : σ} {ls : List ℓ}
    (hs : ¬ P s) (h : exec step s ls = some t) (ht : P t) :
    ∃ before after u, ls = before ++ l :: after ∧ exec step s before = some u ∧ ¬ P u := by
  obtain ⟨before, k, after, u, v, hls, hu, -, hP, rfl, -⟩ :=
    exec_split_of (I := fun _ => True) (R := fun _ k => k = l) (fun _ _ _ _ _ => trivial)
      (fun s k t _ hs hk ht => (hstep s k t hk ht).resolve_left hs) trivial hs h ht
  exact ⟨before, after, u, hls, hu, hP⟩

end Execution
