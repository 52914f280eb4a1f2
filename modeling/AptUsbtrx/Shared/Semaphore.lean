import Mathlib.Data.Finset.Card

/-! # Counting semaphores

The slots of a semaphore are free, lent to something that gives them back by itself, or held
by a thread, one each. Threads are a function from their names to where they stand. -/

namespace Semaphore

variable {ι π : Type*} {slots free lent : ℕ} {holds holds' : ι → Prop}

/-- `free` slots are in the semaphore, `lent` are lent, and each of the others is held by one of
the finitely many threads that `holds` names. -/
def Balanced (slots free lent : ℕ) (holds : ι → Prop) : Prop :=
  ∃ holders : Finset ι, (∀ i, i ∈ holders ↔ holds i) ∧ free + lent + holders.card = slots

theorem balanced_of_none (hnone : ∀ i, ¬ holds i) (hsum : free + lent = slots) :
    Balanced slots free lent holds :=
  ⟨∅, fun i => ⟨fun h => absurd h (Finset.notMem_empty i), fun h => absurd h (hnone i)⟩, hsum⟩

namespace Balanced

theorem congr (h : Balanced slots free lent holds) (hiff : ∀ i, holds' i ↔ holds i) :
    Balanced slots free lent holds' := by
  obtain ⟨holders, hmem, hsum⟩ := h
  exact ⟨holders, fun i => (hmem i).trans (hiff i).symm, hsum⟩

theorem free_add_lent_le (h : Balanced slots free lent holds) : free + lent ≤ slots := by
  obtain ⟨holders, -, hsum⟩ := h
  omega

/-- Slots pass between the semaphore and what they are lent to. -/
theorem shift (h : Balanced slots free lent holds) {free' lent' : ℕ}
    (hsum : free' + lent' = free + lent) : Balanced slots free' lent' holds := by
  obtain ⟨holders, hmem, hslots⟩ := h
  exact ⟨holders, hmem, by omega⟩

/-- Free slots are added or taken away. -/
theorem add_iff (n : ℕ) :
    Balanced (slots + n) (free + n) lent holds ↔ Balanced slots free lent holds := by
  constructor
  · rintro ⟨holders, hmem, hsum⟩
    exact ⟨holders, hmem, by omega⟩
  · rintro ⟨holders, hmem, hsum⟩
    exact ⟨holders, hmem, by omega⟩

/-- A holder leaves fewer slots for the others. -/
theorem lt_of_holds (h : Balanced slots free lent holds) {i : ι} (hi : holds i) :
    free + lent < slots := by
  obtain ⟨holders, hmem, hsum⟩ := h
  have hpos := Finset.card_pos.mpr ⟨i, (hmem i).mpr hi⟩
  omega

/-- A thread that holds no slot gets one. -/
theorem take [DecidableEq ι] {i : ι} (h : Balanced slots free lent holds) (hi : ¬ holds i)
    (hiff : ∀ j, holds' j ↔ j = i ∨ holds j) {free' lent' : ℕ}
    (hsum : free' + lent' + 1 = free + lent) : Balanced slots free' lent' holds' := by
  obtain ⟨holders, hmem, hslots⟩ := h
  refine ⟨insert i holders, ?_, ?_⟩
  · intro j
    rw [Finset.mem_insert, hmem, hiff]
  · rw [Finset.card_insert_of_notMem fun hin => hi ((hmem i).mp hin)]
    omega

/-- A thread that holds a slot gives it back or lends it. -/
theorem give [DecidableEq ι] {i : ι} (h : Balanced slots free lent holds) (hi : holds i)
    (hiff : ∀ j, holds' j ↔ j ≠ i ∧ holds j) {free' lent' : ℕ}
    (hsum : free' + lent' = free + lent + 1) : Balanced slots free' lent' holds' := by
  obtain ⟨holders, hmem, hslots⟩ := h
  refine ⟨holders.erase i, ?_, ?_⟩
  · intro j
    rw [Finset.mem_erase, hmem, hiff]
  · have hcard := Finset.card_erase_add_one ((hmem i).mpr hi)
    omega

/-- A semaphore with one slot has one holder. -/
theorem unique (h : Balanced 1 free lent holds) {i j : ι} (hi : holds i) (hj : holds j) : i = j := by
  obtain ⟨holders, hmem, hslots⟩ := h
  have hcard : holders.card ≤ 1 := by omega
  exact Finset.card_le_one.mp hcard i ((hmem i).mpr hi) j ((hmem j).mpr hj)

end Balanced

/-! ### Threads -/

section

variable [DecidableEq ι] {inside : π → Prop} {threads : ι → π} {i : ι} {p : π} {free' lent' : ℕ}

theorem update_stay (h : Balanced slots free lent fun j => inside (threads j))
    (hp : inside p ↔ inside (threads i)) (hsum : free' + lent' = free + lent) :
    Balanced slots free' lent' fun j => inside (Function.update threads i p j) := by
  refine (h.congr ?_).shift hsum
  intro j
  by_cases hj : j = i
  · rw [hj, Function.update_self]
    exact hp
  · rw [Function.update_of_ne hj]

theorem update_take (h : Balanced slots free lent fun j => inside (threads j))
    (hout : ¬ inside (threads i)) (hp : inside p) (hsum : free' + lent' + 1 = free + lent) :
    Balanced slots free' lent' fun j => inside (Function.update threads i p j) := by
  refine h.take hout ?_ hsum
  intro j
  by_cases hj : j = i
  · simp [hj, hp]
  · simp [hj]

theorem update_give (h : Balanced slots free lent fun j => inside (threads j))
    (hin : inside (threads i)) (hp : ¬ inside p) (hsum : free' + lent' = free + lent + 1) :
    Balanced slots free' lent' fun j => inside (Function.update threads i p j) := by
  refine h.give hin ?_ hsum
  intro j
  by_cases hj : j = i
  · simp [hj, hp]
  · simp [hj]

end

end Semaphore
