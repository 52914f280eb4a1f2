import Mathlib.Algebra.BigOperators.Group.Finset.Basic
import Mathlib.Algebra.Order.Ring.Int
import Mathlib.Tactic.Ring

/-! # Gaps in interleaved counters

A stream of numbers with keys, in which the numbers of each key increase. What is missing between
them is counted on the fly, from the last number of each key. -/

namespace GapCount

variable {κ : Type*} [DecidableEq κ]

/-- The numbers of a key, in order. -/
def counters (stream : List (κ × ℕ)) (k : κ) : List ℕ :=
  (stream.filter fun p => p.1 = k).map Prod.snd

/-- The keys that occur. -/
def keys (stream : List (κ × ℕ)) : Finset κ := (stream.map Prod.fst).toFinset

/-- The numbers of each key increase strictly. -/
def Increasing (stream : List (κ × ℕ)) : Prop :=
  stream.Pairwise fun p q => p.1 = q.1 → p.2 < q.2

instance (stream : List (κ × ℕ)) : Decidable (Increasing stream) :=
  inferInstanceAs (Decidable (List.Pairwise _ _))

/-- Last minus first plus one, minus how many there are. -/
def missing (numbers : List ℕ) : ℤ := numbers.getLastD 0 - numbers.headD 0 + 1 - numbers.length

/-- What is missing, over all keys. -/
def totalMissing (stream : List (κ × ℕ)) : ℤ := ∑ k ∈ keys stream, missing (counters stream k)

/-- A count on the fly: the last number of each key, and what was missing so far. -/
structure Count (κ : Type*) where
  last : κ → Option ℕ
  total : ℕ

namespace Count

def start : Count κ := ⟨fun _ => none, 0⟩

/-- The numbers between the last one and the next. -/
def between : Option ℕ → ℕ → ℕ
  | none, _ => 0
  | some last, number => number - last - 1

def next (s : Count κ) (p : κ × ℕ) : Count κ :=
  ⟨Function.update s.last p.1 (some p.2), s.total + between (s.last p.1) p.2⟩

@[simp] theorem last_next_self (s : Count κ) (p : κ × ℕ) : (s.next p).last p.1 = some p.2 :=
  Function.update_self _ _ _

theorem last_next_of_ne (s : Count κ) {p : κ × ℕ} {k : κ} (h : k ≠ p.1) :
    (s.next p).last k = s.last k :=
  Function.update_of_ne h _ _

@[simp] theorem total_next (s : Count κ) (p : κ × ℕ) :
    (s.next p).total = s.total + between (s.last p.1) p.2 := rfl

/-- The count of a whole stream. -/
def run (stream : List (κ × ℕ)) : Count κ := stream.foldl next start

theorem run_concat (stream : List (κ × ℕ)) (p : κ × ℕ) :
    run (stream ++ [p]) = (run stream).next p :=
  List.foldl_concat next start p stream

end Count

variable {stream : List (κ × ℕ)} {p : κ × ℕ} {k : κ}

/-! ### One more number -/

theorem counters_concat_self (stream : List (κ × ℕ)) (p : κ × ℕ) :
    counters (stream ++ [p]) p.1 = counters stream p.1 ++ [p.2] := by
  simp [counters, List.filter_append]

theorem counters_concat_of_ne (stream : List (κ × ℕ)) (h : k ≠ p.1) :
    counters (stream ++ [p]) k = counters stream k := by
  simp [counters, List.filter_append, h.symm]

theorem keys_concat (stream : List (κ × ℕ)) (p : κ × ℕ) :
    keys (stream ++ [p]) = insert p.1 (keys stream) := by
  ext k
  simp [keys]

theorem counters_eq_nil_iff : counters stream k = [] ↔ k ∉ keys stream := by
  rw [counters, keys, List.map_eq_nil_iff, List.filter_eq_nil_iff, List.mem_toFinset, List.mem_map,
    not_exists]
  exact forall_congr' fun p => by simp

theorem Increasing.concat (h : Increasing (stream ++ [p])) :
    Increasing stream ∧ ∀ n ∈ counters stream p.1, n < p.2 := by
  obtain ⟨hstream, -, hlast⟩ := List.pairwise_append.mp h
  refine ⟨hstream, fun n hn => ?_⟩
  obtain ⟨q, hq, rfl⟩ := List.mem_map.mp hn
  obtain ⟨hmem, hkey⟩ := List.mem_filter.mp hq
  exact hlast q hmem p (List.mem_singleton_self p) (of_decide_eq_true hkey)

theorem missing_singleton (n : ℕ) : missing [n] = 0 := by
  simp [missing]

theorem missing_concat {numbers : List ℕ} {last n : ℕ} (hlast : numbers.getLast? = some last)
    (hlt : last < n) : missing (numbers ++ [n]) = missing numbers + (n - last - 1 : ℕ) := by
  obtain ⟨front, rfl⟩ := List.getLast?_eq_some_iff.mp hlast
  have hhead : ((front ++ [last] ++ [n]).headD 0 : ℕ) = (front ++ [last]).headD 0 := by
    cases front <;> rfl
  rw [missing, missing, hhead, List.getLastD_concat, List.getLastD_concat]
  simp only [List.length_append, List.length_singleton]
  omega

/-- The sum over the keys, with one more number. -/
theorem totalMissing_concat (h : Increasing (stream ++ [p])) :
    totalMissing (stream ++ [p]) =
      totalMissing stream + Count.between (counters stream p.1).getLast? p.2 := by
  have hothers : ∀ k ∈ (keys stream).erase p.1,
      missing (counters (stream ++ [p]) k) = missing (counters stream k) :=
    fun k hk => by rw [counters_concat_of_ne stream (Finset.ne_of_mem_erase hk)]
  rw [totalMissing, totalMissing, keys_concat]
  by_cases hkey : p.1 ∈ keys stream
  · obtain ⟨last, hlast⟩ : ∃ last, (counters stream p.1).getLast? = some last :=
      ⟨_, List.getLast?_eq_some_getLast fun hnil => counters_eq_nil_iff.mp hnil hkey⟩
    have hlt := h.concat.2 last (List.mem_of_getLast? hlast)
    rw [Finset.insert_eq_of_mem hkey, ← Finset.add_sum_erase _ _ hkey,
      ← Finset.add_sum_erase _ _ hkey, Finset.sum_congr rfl hothers, counters_concat_self,
      missing_concat hlast hlt, hlast, Count.between]
    ring
  · have hnil := counters_eq_nil_iff.mpr hkey
    rw [Finset.sum_insert hkey, counters_concat_self, hnil, List.nil_append, missing_singleton,
      List.getLast?_nil, Count.between, ← Finset.erase_eq_of_notMem hkey,
      Finset.sum_congr rfl hothers]
    ring

/-! ### The count -/

/-- The count knows the last number of each key, and what is missing over all of them. -/
theorem count_spec (h : Increasing stream) :
    (∀ k, (Count.run stream).last k = (counters stream k).getLast?) ∧
      ((Count.run stream).total : ℤ) = totalMissing stream := by
  induction stream using List.reverseRecOn with
  | nil => exact ⟨fun _ => rfl, rfl⟩
  | append_singleton stream p ih =>
      obtain ⟨hlast, htotal⟩ := ih h.concat.1
      rw [Count.run_concat]
      constructor
      · intro k
        by_cases hk : k = p.1
        · subst hk
          rw [Count.last_next_self, counters_concat_self, List.getLast?_concat]
        · rw [Count.last_next_of_ne _ hk, counters_concat_of_ne stream hk, hlast]
      · rw [Count.total_next, hlast, totalMissing_concat h, ← htotal, Nat.cast_add]

/-- How the keys interleave does not matter. -/
theorem totalMissing_congr {stream' : List (κ × ℕ)}
    (h : ∀ k, counters stream' k = counters stream k) :
    totalMissing stream' = totalMissing stream := by
  have hkeys : keys stream' = keys stream := by
    ext k
    rw [← not_iff_not, ← counters_eq_nil_iff, ← counters_eq_nil_iff, h]
  rw [totalMissing, totalMissing, hkeys]
  exact Finset.sum_congr rfl fun k _ => by rw [h]

end GapCount
