import AptUsbtrx.Shared.Execution
import Mathlib.Logic.Function.Basic

/-! # Reading, modifying and writing back

Parties that share a value: each reads it once, makes a message of what it read, and later puts
the message into the value as it then is. -/

namespace ReadModifyWrite

open Execution

/-- Where a party stands. -/
inductive Phase (μ : Type*) where
  | idle
  | ready (m : μ)
  | done

inductive Label (ι : Type*) where
  | read (i : ι)
  | write (i : ι)
  deriving DecidableEq

structure State (ι ρ μ : Type*) where
  value : ρ
  phase : ι → Phase μ

/-- No party has read. -/
def start {ι ρ μ : Type*} (v : ρ) : State ι ρ μ := ⟨v, fun _ => .idle⟩

variable {ι ρ μ : Type*} [DecidableEq ι] {send : ι → ρ → Option μ} {put : ρ → μ → Option ρ}
variable {s t : State ι ρ μ} {labels : List (Label ι)} {i j : ι} {m : μ}

/-- `send i` is the message of party `i`, and `put` carries a message out. -/
def step (send : ι → ρ → Option μ) (put : ρ → μ → Option ρ) (s : State ι ρ μ) :
    Label ι → Option (State ι ρ μ)
  | .read i =>
      match s.phase i with
      | .idle => (send i s.value).map fun m => ⟨s.value, Function.update s.phase i (.ready m)⟩
      | _ => none
  | .write i =>
      match s.phase i with
      | .ready m => (put s.value m).map fun v => ⟨v, Function.update s.phase i .done⟩
      | _ => none

theorem read_eq_some_iff : step send put s (.read i) = some t ↔
    s.phase i = .idle ∧ ∃ m, send i s.value = some m ∧
      t = ⟨s.value, Function.update s.phase i (.ready m)⟩ := by
  simp only [step]
  split
  case h_1 h =>
    rw [Option.map_eq_some_iff]
    constructor
    · rintro ⟨m, hm, rfl⟩
      exact ⟨h, m, hm, rfl⟩
    · rintro ⟨-, m, hm, rfl⟩
      exact ⟨m, hm, rfl⟩
  case h_2 h => exact ⟨by rintro ⟨⟩, fun hread => absurd hread.1 h⟩

theorem write_eq_some_iff : step send put s (.write i) = some t ↔
    ∃ m, s.phase i = .ready m ∧ ∃ v, put s.value m = some v ∧
      t = ⟨v, Function.update s.phase i .done⟩ := by
  simp only [step]
  split
  case h_1 m h =>
    rw [Option.map_eq_some_iff]
    constructor
    · rintro ⟨v, hv, rfl⟩
      exact ⟨m, h, v, hv, rfl⟩
    · rintro ⟨m', hm', v, hv, rfl⟩
      obtain rfl := Phase.ready.inj (h.symm.trans hm')
      exact ⟨v, hv, rfl⟩
  case h_2 h =>
    refine ⟨by rintro ⟨⟩, ?_⟩
    rintro ⟨m, hm, -⟩
    exact absurd hm (h m)

/-- What one step does to one party. -/
theorem phase_of_step {label : Label ι} (hstep : step send put s label = some t) (j : ι) :
    (label = .read j ∧ s.phase j = .idle ∧ ∃ m, send j s.value = some m ∧ t.phase j = .ready m) ∨
      (label = .write j ∧ (∃ m, s.phase j = .ready m) ∧ t.phase j = .done) ∨
      (label ≠ .read j ∧ label ≠ .write j ∧ t.phase j = s.phase j) := by
  cases label with
  | read i =>
      obtain ⟨hidle, m, hm, rfl⟩ := read_eq_some_iff.mp hstep
      by_cases hji : j = i
      · subst hji
        exact .inl ⟨rfl, hidle, m, hm, Function.update_self ..⟩
      · refine .inr (.inr ⟨?_, by simp, Function.update_of_ne hji _ _⟩)
        rintro ⟨⟩
        exact hji rfl
  | write i =>
      obtain ⟨m, hm, v, -, rfl⟩ := write_eq_some_iff.mp hstep
      by_cases hji : j = i
      · subst hji
        exact .inr (.inl ⟨rfl, ⟨m, hm⟩, Function.update_self ..⟩)
      · refine .inr (.inr ⟨by simp, ?_, Function.update_of_ne hji _ _⟩)
        rintro ⟨⟩
        exact hji rfl

/-! ### Runs -/

theorem phase_done (hs : s.phase j = .done) (hrun : exec (step send put) s labels = some t) :
    t.phase j = .done := by
  refine exec_invariant (I := fun s => s.phase j = .done) ?_ hs hrun
  intro s label t hdone hstep
  rcases phase_of_step hstep j with ⟨-, hidle, -⟩ | ⟨-, -, ht⟩ | ⟨-, -, hsame⟩
  · rw [hdone] at hidle
    cases hidle
  · exact ht
  · rw [hsame, hdone]

/-- The message of a party stays as it is until it is carried out. -/
theorem phase_ready (hs : s.phase j = .ready m)
    (hrun : exec (step send put) s labels = some t) :
    t.phase j = .ready m ∨ t.phase j = .done := by
  refine exec_invariant (I := fun s => s.phase j = .ready m ∨ s.phase j = .done) ?_ (.inl hs) hrun
  intro s label t hphase hstep
  rcases phase_of_step hstep j with ⟨-, hidle, -⟩ | ⟨-, -, ht⟩ | ⟨-, -, hsame⟩
  · rcases hphase with h | h
    · rw [h] at hidle
      cases hidle
    · rw [h] at hidle
      cases hidle
  · exact .inr ht
  · rw [hsame]
    exact hphase

theorem phase_done_of_write_mem (hrun : exec (step send put) s labels = some t)
    (hmem : .write j ∈ labels) : t.phase j = .done := by
  obtain ⟨before, after, rfl⟩ := List.append_of_mem hmem
  obtain ⟨u, w, -, hw, hafter⟩ := exec_append_cons_iff.mp hrun
  obtain ⟨m, -, v, -, rfl⟩ := write_eq_some_iff.mp hw
  exact phase_done (Function.update_self ..) hafter

theorem write_not_mem_of_ready (hrun : exec (step send put) s labels = some t)
    (ht : t.phase j = .ready m) : .write j ∉ labels := by
  intro hmem
  rw [phase_done_of_write_mem hrun hmem] at ht
  cases ht

theorem write_not_mem_of_done (hs : s.phase j = .done)
    (hrun : exec (step send put) s labels = some t) : .write j ∉ labels := by
  intro hmem
  obtain ⟨before, after, rfl⟩ := List.append_of_mem hmem
  obtain ⟨u, w, hbefore, hw, -⟩ := exec_append_cons_iff.mp hrun
  obtain ⟨m, hready, -⟩ := write_eq_some_iff.mp hw
  rw [phase_done hs hbefore] at hready
  cases hready

/-- A party that had not read before has read exactly if it is no longer idle. -/
theorem phase_idle_iff (hs : s.phase j = .idle)
    (hrun : exec (step send put) s labels = some t) :
    t.phase j = .idle ↔ .read j ∉ labels := by
  constructor
  · intro hidle hmem
    obtain ⟨before, after, rfl⟩ := List.append_of_mem hmem
    obtain ⟨u, w, -, hw, hafter⟩ := exec_append_cons_iff.mp hrun
    obtain ⟨-, m, -, rfl⟩ := read_eq_some_iff.mp hw
    rcases phase_ready (Function.update_self ..) hafter with h | h
    · rw [h] at hidle
      cases hidle
    · rw [h] at hidle
      cases hidle
  · intro hmem
    by_contra hidle
    have hstep : ∀ s k u, step send put s k = some u → u.phase j ≠ .idle →
        s.phase j ≠ .idle ∨ k = .read j := by
      intro s k u hk hu
      rcases phase_of_step hk j with ⟨hread, -⟩ | ⟨-, ⟨m, hm⟩, -⟩ | ⟨-, -, hsame⟩
      · exact .inr hread
      · refine .inl ?_
        rw [hm]
        rintro ⟨⟩
      · exact .inl (hsame ▸ hu)
    obtain ⟨before, after, -, rfl, -⟩ := exec_split_at (P := fun s => s.phase j ≠ .idle)
      hstep (not_not.mpr hs) hrun hidle
    exact hmem (List.mem_append_right _ List.mem_cons_self)

theorem value_of_no_write (hrun : exec (step send put) s labels = some t)
    (hwrites : ∀ i, .write i ∉ labels) : t.value = s.value := by
  induction labels generalizing s with
  | nil =>
      simp only [exec_nil, Option.some.injEq] at hrun
      rw [hrun]
  | cons label labels ih =>
      obtain ⟨u, hu, hrest⟩ := Option.bind_eq_some_iff.mp hrun
      rw [ih hrest fun i hi => hwrites i (List.mem_cons_of_mem _ hi)]
      cases label with
      | read i =>
          obtain ⟨-, m, -, rfl⟩ := read_eq_some_iff.mp hu
          rfl
      | write i => exact absurd List.mem_cons_self (hwrites i)

/-- While nobody writes, a party reads the value there was at the beginning. -/
theorem send_of_no_write (hs : s.phase j = .idle)
    (hrun : exec (step send put) s labels = some t) (hwrites : ∀ i, .write i ∉ labels)
    (ht : t.phase j = .ready m) : send j s.value = some m := by
  induction labels generalizing s with
  | nil =>
      simp only [exec_nil, Option.some.injEq] at hrun
      rw [← hrun, hs] at ht
      cases ht
  | cons label labels ih =>
      obtain ⟨u, hu, hrest⟩ := Option.bind_eq_some_iff.mp hrun
      have hlabels : ∀ i, .write i ∉ labels := fun i hi => hwrites i (List.mem_cons_of_mem _ hi)
      rcases phase_of_step hu j with ⟨-, -, m', hm', hready⟩ | ⟨rfl, -⟩ | ⟨-, -, hsame⟩
      · rcases phase_ready hready hrest with h | h
        · rw [h] at ht
          cases ht
          exact hm'
        · rw [h] at ht
          cases ht
      · exact absurd List.mem_cons_self (hwrites j)
      · have hvalue : u.value = s.value := by
          have hone : exec (step send put) s [label] = some u := by simp [hu]
          apply value_of_no_write hone
          intro i hi
          exact hwrites i (List.mem_singleton.mp hi ▸ List.mem_cons_self)
        rw [← hvalue]
        exact ih (hsame.trans hs) hrest hlabels

/-- A party that reads on either side of one write of another has the value from its side. -/
theorem send_of_sides {x y z : State ι ρ μ} {before between : List (Label ι)}
    (hs : s.phase j = .idle) (hbefore : ∀ i, .write i ∉ before)
    (hbetween : ∀ i, .write i ∉ between) (hx : exec (step send put) s before = some x)
    (hy : y.phase j = x.phase j) (hz : exec (step send put) y between = some z)
    (hready : z.phase j = .ready m) :
    send j (if .read j ∈ before then s.value else y.value) = some m := by
  split
  case isTrue hread =>
    cases hphase : x.phase j with
    | idle => exact absurd hread ((phase_idle_iff hs hx).mp hphase)
    | ready m' =>
        rcases phase_ready (hy.trans hphase) hz with h | h
        · rw [hready] at h
          cases h
          exact send_of_no_write hs hx hbefore hphase
        · rw [hready] at h
          cases h
    | done =>
        rw [phase_done (hy.trans hphase) hz] at hready
        cases hready
  case isFalse hread =>
    have hidle := (phase_idle_iff hs hx).mpr hread
    exact send_of_no_write (hy.trans hidle) hz hbetween hready

theorem eq_nil_of_all_done (hs : ∀ j, s.phase j = .done)
    (hrun : exec (step send put) s labels = some t) : labels = [] := by
  cases labels with
  | nil => rfl
  | cons label labels =>
      obtain ⟨u, hu, -⟩ := Option.bind_eq_some_iff.mp hrun
      cases label with
      | read i =>
          obtain ⟨hidle, -⟩ := read_eq_some_iff.mp hu
          rw [hs i] at hidle
          cases hidle
      | write i =>
          obtain ⟨m, hready, -⟩ := write_eq_some_iff.mp hu
          rw [hs i] at hready
          cases hready

/-! ### Two parties -/

section Two

variable {send : Bool → ρ → Option μ} {t : State Bool ρ μ} {labels : List (Label Bool)} {v : ρ}

/-- The second message is made of the value from before the first one exactly if the second party
had read by then. -/
theorem value_of_order {i : Bool} {before between after : List (Label Bool)}
    (hrun : exec (step send put) (start v)
      (before ++ .write i :: (between ++ .write (!i) :: after)) = some t) :
    after = [] ∧ ∃ m w m', send i v = some m ∧ put v m = some w ∧
      send (!i) (if .read (!i) ∈ before then v else w) = some m' ∧ put w m' = some t.value := by
  obtain ⟨x, y, hx, hy, hrest⟩ := exec_append_cons_iff.mp hrun
  obtain ⟨z, u, hz, hu, hafter⟩ := exec_append_cons_iff.mp hrest
  obtain ⟨m, hm, w, hw, hyeq⟩ := write_eq_some_iff.mp hy
  obtain ⟨m', hm', w', hw', hueq⟩ := write_eq_some_iff.mp hu
  have hydone : y.phase i = .done := by
    rw [hyeq]
    exact Function.update_self ..
  have hzdone : z.phase i = .done := phase_done hydone hz
  have hudone : ∀ j, u.phase j = .done := by
    intro j
    rw [hueq]
    by_cases hj : j = i
    · rw [hj]
      exact (Function.update_of_ne ((Bool.eq_not_self i).mp) _ _).trans hzdone
    · rw [Bool.eq_not_of_ne hj]
      exact Function.update_self ..
  obtain rfl := eq_nil_of_all_done hudone hafter
  have hut : u = t := by simpa using hafter
  -- each party writes once
  have hbetween : ∀ j, Label.write j ∉ between := by
    intro j
    by_cases hji : j = i
    · exact hji ▸ write_not_mem_of_done hydone hz
    · rw [Bool.eq_not_of_ne hji]
      exact write_not_mem_of_ready hz hm'
  have hbefore : ∀ j, Label.write j ∉ before := by
    intro j
    by_cases hji : j = i
    · exact hji ▸ write_not_mem_of_ready hx hm
    · rw [Bool.eq_not_of_ne hji]
      intro hmem
      have hone : exec (step send put) x [.write i] = some y := by simpa using hy
      have hydone' := phase_done (phase_done_of_write_mem hx hmem) hone
      rw [phase_done hydone' hz] at hm'
      cases hm'
  have hxvalue : x.value = v := value_of_no_write hx hbefore
  have hyvalue : y.value = w := by rw [hyeq]
  have hzvalue : z.value = w := (value_of_no_write hz hbetween).trans hyvalue
  have hyother : y.phase (!i) = x.phase (!i) := by
    rw [hyeq]
    exact Function.update_of_ne ((Bool.not_eq_self i).mp) _ _
  have hsecond := send_of_sides rfl hbefore hbetween hx hyother hz hm'
  rw [hyvalue] at hsecond
  refine ⟨rfl, m, w, m', send_of_no_write rfl hx hbefore hm, hxvalue ▸ hw, hsecond, ?_⟩
  rw [← hzvalue, ← hut, hueq]
  exact hw'

/-- When both parties are done, one message went after the other. -/
theorem order_of_all_done (hrun : exec (step send put) (start v) labels = some t)
    (hdone : ∀ i, t.phase i = .done) :
    ∃ i before between, labels = before ++ .write i :: (between ++ [.write (!i)]) := by
  have hwrite : ∀ i s k u, step send put s k = some u → u.phase i = .done →
      s.phase i = .done ∨ k = .write i := by
    intro i s k u hk hu
    rcases phase_of_step hk i with ⟨-, -, m, -, hm⟩ | ⟨hlabel, -⟩ | ⟨-, -, hsame⟩
    · rw [hm] at hu
      cases hu
    · exact .inr hlabel
    · exact .inl (hsame ▸ hu)
  obtain ⟨before, after, u, rfl, hu, -⟩ := exec_split_at (P := fun s => s.phase true = .done)
    (hwrite true) (by rintro ⟨⟩) hrun (hdone true)
  by_cases hfirst : u.phase false = .done
  · obtain ⟨before, between, -, rfl, -⟩ := exec_split_at (P := fun s => s.phase false = .done)
      (hwrite false) (by rintro ⟨⟩) hu hfirst
    rw [List.append_assoc, List.cons_append] at hrun ⊢
    obtain ⟨rfl, -⟩ := value_of_order hrun
    exact ⟨false, before, between, rfl⟩
  · rw [exec_append, hu, Option.bind_some, exec_cons] at hrun
    obtain ⟨w, hw, hafter⟩ := Option.bind_eq_some_iff.mp hrun
    have hwfirst : w.phase false ≠ .done := by
      intro hdone
      rcases hwrite false _ _ _ hw hdone with h | h
      · exact hfirst h
      · cases h
    obtain ⟨between, after, -, rfl, -⟩ := exec_split_at (P := fun s => s.phase false = .done)
      (hwrite false) hwfirst hafter (hdone false)
    have hrun : exec (step send put) (start v)
        (before ++ .write true :: (between ++ .write false :: after)) = some t := by
      rw [exec_append, hu, Option.bind_some, exec_cons, hw]
      exact hafter
    obtain ⟨rfl, -⟩ := value_of_order hrun
    exact ⟨true, before, between, rfl⟩

end Two

end ReadModifyWrite
