import Mathlib.Data.List.Basic

/-! # Resynchronising stream decoders

A decoder looks at the cells in front of it and waits, drops one cell, or emits a
value and consumes its cells. When a decision once taken does not depend on cells
that arrive later, cutting the stream into chunks has no effect on the output. -/

/-- What a decoder decides about the cells in front of it. -/
inductive Verdict (β : Type*) where
  | more
  | skip
  | emit (b : β) (n : ℕ)

/-- A decoder whose decisions are stable when the input is extended. -/
structure StreamDecoder (α β : Type*) where
  verdict : List α → Verdict β
  verdict_nil : verdict [] = .more
  skip_append : ∀ {xs : List α} (ys : List α),
    verdict xs = .skip → verdict (xs ++ ys) = .skip
  emit_append : ∀ {xs : List α} (ys : List α) {b : β} {n : ℕ},
    verdict xs = .emit b n → verdict (xs ++ ys) = .emit b n
  emit_bounds : ∀ {xs : List α} {b : β} {n : ℕ},
    verdict xs = .emit b n → 0 < n ∧ n ≤ xs.length

namespace StreamDecoder

variable {α β : Type*} (d : StreamDecoder α β)

theorem skip_ne_nil {xs : List α} (h : d.verdict xs = .skip) : xs ≠ [] := by
  rintro rfl
  rw [d.verdict_nil] at h
  cases h

/-- The values emitted on a stream and the cells left when the decoder waits. -/
def scan (xs : List α) : List β × List α :=
  match _h : d.verdict xs with
  | .more => ([], xs)
  | .skip => scan xs.tail
  | .emit b n => (b :: (scan (xs.drop n)).1, (scan (xs.drop n)).2)
termination_by xs.length
decreasing_by
  · have := List.length_pos_iff.mpr (d.skip_ne_nil _h)
    simp only [List.length_tail]
    omega
  all_goals
    have := d.emit_bounds _h
    simp only [List.length_drop]
    omega

theorem scan_of_more {xs : List α} (h : d.verdict xs = .more) : d.scan xs = ([], xs) := by
  rw [scan]
  split <;> simp_all

theorem scan_of_skip {xs : List α} (h : d.verdict xs = .skip) :
    d.scan xs = d.scan xs.tail := by
  rw [scan]
  split <;> simp_all

theorem scan_of_emit {xs : List α} {b : β} {n : ℕ} (h : d.verdict xs = .emit b n) :
    d.scan xs = (b :: (d.scan (xs.drop n)).1, (d.scan (xs.drop n)).2) := by
  rw [scan]
  split
  · simp_all
  · simp_all
  · rename_i c m hc
    rw [h] at hc
    cases hc
    rfl

/-- The decoder stops only where it waits. -/
theorem verdict_scan_snd (xs : List α) : d.verdict (d.scan xs).2 = .more := by
  fun_induction scan d xs with
  | case1 xs h => exact h
  | case2 xs h ih => exact ih
  | case3 xs b n h ih => exact ih

/-- Decoding an extended stream resumes from the cells left over. -/
theorem scan_append (xs ys : List α) :
    d.scan (xs ++ ys) =
      ((d.scan xs).1 ++ (d.scan ((d.scan xs).2 ++ ys)).1,
        (d.scan ((d.scan xs).2 ++ ys)).2) := by
  fun_induction scan d xs with
  | case1 xs h => simp
  | case2 xs h ih =>
      rw [d.scan_of_skip (d.skip_append ys h), List.tail_append_of_ne_nil (d.skip_ne_nil h)]
      exact ih
  | case3 xs b n h ih =>
      rw [d.scan_of_emit (d.emit_append ys h),
        List.drop_append_of_le_length (d.emit_bounds h).2, ih]
      simp

/-- Chunks fed one after another, the cells left over carried to the next chunk. -/
def feed (rest : List α) : List (List α) → List β × List α
  | [] => ([], rest)
  | c :: cs => ((d.scan (rest ++ c)).1 ++ (feed (d.scan (rest ++ c)).2 cs).1,
      (feed (d.scan (rest ++ c)).2 cs).2)

/-- Feeding chunks decodes their concatenation. -/
theorem feed_eq_scan {rest : List α} (hrest : d.verdict rest = .more)
    (cs : List (List α)) : d.feed rest cs = d.scan (rest ++ cs.flatten) := by
  induction cs generalizing rest with
  | nil => simp [feed, d.scan_of_more hrest]
  | cons c cs ih =>
      rw [feed, ih (d.verdict_scan_snd _), List.flatten_cons, ← List.append_assoc,
        d.scan_append (rest ++ c) cs.flatten]

/-- Cells that the decoder drops one by one leave no trace. -/
theorem scan_skipped {noise rest : List α}
    (h : ∀ k < noise.length, d.verdict (noise.drop k ++ rest) = .skip) :
    d.scan (noise ++ rest) = d.scan rest := by
  induction noise with
  | nil => rfl
  | cons x noise ih =>
      rw [d.scan_of_skip (by simpa using h 0 (by simp))]
      exact ih fun k hk => by simpa using h (k + 1) (by simpa using hk)

/-- A well-formed encoding at the front is emitted and consumed exactly. -/
theorem scan_encoded {enc rest : List α} {b : β}
    (h : d.verdict (enc ++ rest) = .emit b enc.length) :
    d.scan (enc ++ rest) = (b :: (d.scan rest).1, (d.scan rest).2) := by
  rw [d.scan_of_emit h, List.drop_left]

end StreamDecoder
