import AptUsbtrx.Model.Receive
import AptUsbtrx.Verification.Msg.Grammar

/-! # The frame decoder

The parser as a decision on the bytes in front of it. The decision is stable when more
bytes arrive. -/

namespace AptUsbtrx

open Memory

/-- What the receive loop does with the bytes `xs`. -/
def frameVerdict (xs : List UInt8) : Verdict Message :=
  if xs.length < cmdMinLength then .more else
  match msgParse xs xs.length Msg.zero with
  | (.success, msg) => .emit msg.message msg.message.length
  | (.notEnough, _) => .more
  | _ => .skip

theorem frameVerdict_of_short {xs : List UInt8} (h : xs.length < cmdMinLength) :
    frameVerdict xs = .more := if_pos h

theorem frameVerdict_encode (m : Message) (tail : List UInt8) :
    frameVerdict (m.encode ++ tail) = .emit m m.length := by
  have hle : m.length ≤ (m.encode ++ tail).length := by
    rw [List.length_append, m.encode_length]
    omega
  have hfst := msgParse_encode_fst m tail Msg.zero hle
  have hsnd := msgParse_encode m tail Msg.zero hle
  have hlong : ¬ (m.encode ++ tail).length < cmdMinLength := by
    have := m.length_bounds.1
    omega
  rw [frameVerdict, if_neg hlong]
  generalize msgParse (m.encode ++ tail) (m.encode ++ tail).length Msg.zero = r at *
  obtain ⟨res, msg⟩ := r
  subst hfst hsnd
  rfl

/-- A verdict to emit means that a frame is in front. -/
theorem eq_encode_of_emit {xs : List UInt8} {m : Message} {n : ℕ}
    (h : frameVerdict xs = .emit m n) : n = m.length ∧ xs = m.encode ++ xs.drop n := by
  have hparse : (msgParse xs xs.length Msg.zero).1 = .success := by
    rw [frameVerdict] at h
    split at h
    · cases h
    · split at h
      next heq => rw [heq]
      next => cases h
      next => cases h
  obtain ⟨m', -, hxs⟩ := eq_encode_of_success (Nat.le_refl _) hparse
  have hm := frameVerdict_encode m' (xs.drop m'.length)
  rw [← hxs, h] at hm
  cases hm
  exact ⟨rfl, hxs⟩

theorem frameVerdict_eq_skip_iff (xs : List UInt8) :
    frameVerdict xs = .skip ↔ cmdMinLength ≤ xs.length ∧
      (ValidHeader xs → frameLength xs ≤ xs.length ∧ byteAt xs (frameLength xs - 1) ≠ msgEob) := by
  have hsucc := msgParse_success_iff xs xs.length Msg.zero
  have hmore := msgParse_notEnough_iff xs xs.length Msg.zero
  rw [frameVerdict]
  by_cases hlen : xs.length < cmdMinLength
  · rw [if_pos hlen]
    simp only [reduceCtorEq, false_iff]
    omega
  · rw [if_neg hlen]
    split
    next heq =>
      simp only [heq, true_iff] at hsucc
      simp only [reduceCtorEq, false_iff]
      exact fun h => (h.2 hsucc.1).2 hsucc.2.2
    next heq =>
      simp only [heq, true_iff] at hmore
      simp only [reduceCtorEq, false_iff]
      exact fun h => Nat.not_lt.mpr (h.2 hmore.1).1 hmore.2
    next r hs hn =>
      simp only [true_iff]
      have hs' : (msgParse xs xs.length Msg.zero).1 ≠ .success := fun h => hs _ (Prod.ext h rfl)
      have hn' : (msgParse xs xs.length Msg.zero).1 ≠ .notEnough := fun h => hn _ (Prod.ext h rfl)
      refine ⟨by omega, fun hv => ?_⟩
      have hle : frameLength xs ≤ xs.length :=
        Nat.le_of_not_lt fun hlt => hn' (hmore.mpr ⟨hv, hlt⟩)
      exact ⟨hle, fun heob => hs' (hsucc.mpr ⟨hv, hle, heob⟩)⟩

theorem frameVerdict_eq_more_iff (xs : List UInt8) :
    frameVerdict xs = .more ↔
      xs.length < cmdMinLength ∨ ValidHeader xs ∧ xs.length < frameLength xs := by
  have hmore := msgParse_notEnough_iff xs xs.length Msg.zero
  rw [frameVerdict]
  by_cases hlen : xs.length < cmdMinLength
  · simp [hlen]
  · rw [if_neg hlen]
    simp only [hlen, false_or, ← hmore]
    split
    next heq => simp [heq]
    next heq => simp [heq]
    next r hs hn =>
      simp only [reduceCtorEq, false_iff]
      exact fun h => hn _ (Prod.ext h rfl)

/-- A byte that starts no frame starts none when more bytes follow. -/
theorem frameVerdict_skip_append {xs : List UInt8} (ys : List UInt8) (h : frameVerdict xs = .skip) :
    frameVerdict (xs ++ ys) = .skip := by
  rw [frameVerdict_eq_skip_iff] at h ⊢
  have htwo : 2 ≤ xs.length := Nat.le_trans (by decide) h.1
  rw [validHeader_append ys htwo, frameLength_append ys htwo, List.length_append]
  refine ⟨by omega, fun hv => ?_⟩
  obtain ⟨hle, heob⟩ := h.2 hv
  have hpos := hv.2.1
  simp only [cmdMinLength] at hpos
  exact ⟨by omega, by rwa [byteAt_append_left ys (by omega)]⟩

/-- A frame stays one when more bytes follow. -/
theorem frameVerdict_emit_append {xs : List UInt8} (ys : List UInt8) {m : Message} {n : ℕ}
    (h : frameVerdict xs = .emit m n) : frameVerdict (xs ++ ys) = .emit m n := by
  obtain ⟨rfl, hxs⟩ := eq_encode_of_emit h
  rw [hxs, List.append_assoc, frameVerdict_encode]

theorem frameVerdict_emit_bounds {xs : List UInt8} {m : Message} {n : ℕ}
    (h : frameVerdict xs = .emit m n) : 0 < n ∧ n ≤ xs.length := by
  obtain ⟨rfl, hxs⟩ := eq_encode_of_emit h
  have hlen := congrArg List.length hxs
  rw [List.length_append, m.encode_length] at hlen
  have := m.length_pos
  omega

/-- The decoder of the receive path. -/
def frameDecoder : StreamDecoder UInt8 Message where
  verdict := frameVerdict
  verdict_nil := rfl
  skip_append := frameVerdict_skip_append
  emit_append := frameVerdict_emit_append
  emit_bounds := frameVerdict_emit_bounds

/-- What is left after decoding is shorter than the longest frame. -/
theorem length_leftover_lt (xs : List UInt8) :
    (frameDecoder.scan xs).2.length < cmdMaxLength := by
  have h := (frameVerdict_eq_more_iff _).mp (frameDecoder.verdict_scan_snd xs)
  simp only [ValidHeader, cmdMinLength, cmdMaxLength] at *
  omega

/-- A part of a frame waits for the rest. -/
theorem frameVerdict_of_part {m : Message} {xs ys tail : List UInt8}
    (h : xs ++ ys = m.encode ++ tail) (hlt : xs.length < m.length) : frameVerdict xs = .more := by
  rw [frameVerdict_eq_more_iff]
  by_cases hmin : xs.length < cmdMinLength
  · exact .inl hmin
  · have hlong : 2 ≤ xs.length := Nat.le_trans (by decide) (Nat.le_of_not_lt hmin)
    have hv := validHeader_encode m tail
    have hlength := frameLength_encode m tail
    rw [← h, validHeader_append ys hlong] at hv
    rw [← h, frameLength_append ys hlong] at hlength
    exact .inr ⟨hv, hlength ▸ hlt⟩

/-- The front of a sequence of frames decodes to its whole frames. -/
theorem scan_of_frames {ms : List Message} {xs ys : List UInt8}
    (h : xs ++ ys = ms.flatMap Message.encode) :
    ∃ k ≤ ms.length, (frameDecoder.scan xs).1 = ms.take k ∧
      (frameDecoder.scan xs).2 ++ ys = (ms.drop k).flatMap Message.encode := by
  induction ms generalizing xs with
  | nil =>
      obtain ⟨rfl, rfl⟩ := List.append_eq_nil_iff.mp h
      rw [frameDecoder.scan_of_more frameDecoder.verdict_nil]
      exact ⟨0, Nat.le_refl _, rfl, rfl⟩
  | cons m ms ih =>
      rw [List.flatMap_cons] at h
      by_cases hlt : xs.length < m.length
      · have hmore : frameDecoder.verdict xs = .more := frameVerdict_of_part h hlt
        rw [frameDecoder.scan_of_more hmore]
        exact ⟨0, Nat.zero_le _, rfl, h⟩
      · obtain ⟨rest, rfl⟩ : ∃ rest, xs = m.encode ++ rest := by
          have hfront := congrArg (List.take m.length) h
          rw [List.take_append_of_le_length (by omega), ← m.encode_length,
            List.take_left, m.encode_length] at hfront
          exact ⟨xs.drop m.length, by rw [← hfront, List.take_append_drop]⟩
        rw [List.append_assoc] at h
        obtain ⟨k, hk, hemit, hrest⟩ := ih (List.append_cancel_left h)
        have hverdict : frameDecoder.verdict (m.encode ++ rest) = .emit m m.encode.length := by
          rw [m.encode_length]
          exact frameVerdict_encode m rest
        rw [frameDecoder.scan_encoded hverdict]
        refine ⟨k + 1, Nat.succ_le_succ hk, ?_, ?_⟩
        · rw [List.take_succ_cons, hemit]
        · rw [List.drop_succ_cons]
          exact hrest

/-- A byte that is not `SOB` is dropped as soon as a header could be read. -/
theorem frameVerdict_of_not_sob {b : UInt8} {xs : List UInt8} (hb : b ≠ msgSob)
    (h : cmdMinLength ≤ xs.length + 1) : frameVerdict (b :: xs) = .skip := by
  rw [frameVerdict_eq_skip_iff]
  exact ⟨h, fun hv => absurd hv.1 hb⟩

end AptUsbtrx
