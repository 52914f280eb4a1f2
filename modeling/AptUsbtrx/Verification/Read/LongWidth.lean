import AptUsbtrx.Model.LongWidth
import AptUsbtrx.Verification.Read.HostTime

/-! # The host time does not depend on the width of `long`

The product is cut to the width, but only its low 32 bits go into the microseconds. -/

namespace AptUsbtrx

open Memory Ep1Cf02a

/-- All that the loop writes is the time, at the offsets that it comes to. -/
theorem parseRbmsgLoop_stamps (func : UniqueFunction) (devTimeUs : UInt64) (fuel payload : ℕ)
    {remain : ℤ} (hfuel : remain ≤ fuel) (rbmsg : List UInt8) :
    ∃ offsets : List ℕ,
      (parseRbmsgLoop func .host devTimeUs fuel payload remain rbmsg).2 =
        offsets.foldl (fun area offset => overwrite area offset (hostTimestamp devTimeUs))
          rbmsg ∧
      (0 < remain → offsets.head? = some payload) := by
  induction fuel generalizing payload remain rbmsg with
  | zero =>
      rw [parseRbmsgLoop_done func .host devTimeUs 0 payload (by omega)]
      exact ⟨[], rfl, fun hpos => by omega⟩
  | succ fuel ih =>
      by_cases hpos : 0 < remain
      · rw [parseRbmsgLoop.eq_def, if_pos hpos]
        dsimp only
        rw [if_pos (show TimestampMode.host ≠ .device by decide)]
        generalize hsize : func.getReadPayloadSize
          ((overwrite rbmsg payload (hostTimestamp devTimeUs)).drop payload) = payloadSize
        by_cases hneg : payloadSize < 0
        · rw [if_pos hneg]
          exact ⟨[payload], rfl, fun _ => rfl⟩
        by_cases hmax : payloadSize > (msgLengthToPayload cmdMaxLength : ℕ)
        · rw [if_neg hneg, if_pos hmax]
          exact ⟨[payload], rfl, fun _ => rfl⟩
        rw [if_neg hneg, if_neg hmax]
        by_cases hcut : remain - payloadSize < 0
        · rw [if_pos hcut, parseRbmsgLoop_done func .host devTimeUs fuel payload hcut.le]
          exact ⟨[payload], rfl, fun _ => rfl⟩
        · have hbounds := func.size_bounds (hsize ▸ Int.not_lt.mp hneg)
          rw [hsize] at hbounds
          rw [if_neg hcut]
          have hrest : remain - payloadSize ≤ fuel := by omega
          obtain ⟨offsets, hwritten, -⟩ := ih (payload + payloadSize.toNat) hrest
            (overwrite rbmsg payload (hostTimestamp devTimeUs))
          exact ⟨payload :: offsets, hwritten, fun _ => rfl⟩
      · rw [parseRbmsgLoop_done func .host devTimeUs (fuel + 1) payload (by omega)]
        exact ⟨[], rfl, fun h => absurd h hpos⟩

namespace LongWidth

/-- The product in 64 bits, up to a multiple of `2 ^ 32`. -/
theorem toUInt32_secInUsec (long : LongWidth) (tsSec : UInt32) :
    (long.secInUsec tsSec).toUInt32 = (tsSec.toUInt64 * usecPerSec).toUInt32 := by
  cases long with
  | long32 =>
      rw [secInUsec, UInt32.toUInt32_toUInt64, UInt64.toUInt32_mul, UInt32.toUInt32_toUInt64]
      rfl
  | long64 =>
      rw [secInUsec, Int64.toUInt64_mul, UInt64.toUInt64_toInt64]
      rfl

theorem hostTimestamp_eq (long : LongWidth) (devTimeUs : UInt64) :
    long.hostTimestamp devTimeUs = AptUsbtrx.hostTimestamp devTimeUs := by
  rw [hostTimestamp, AptUsbtrx.hostTimestamp]
  rw [UInt64.toUInt32_sub, UInt64.toUInt32_sub, toUInt32_secInUsec]

theorem parseRbmsgLoop_eq (long : LongWidth) (func : UniqueFunction) (tsMode : TimestampMode)
    (devTimeUs : UInt64) (fuel payload : ℕ) (remain : ℤ) (rbmsg : List UInt8) :
    long.parseRbmsgLoop func tsMode devTimeUs fuel payload remain rbmsg =
      AptUsbtrx.parseRbmsgLoop func tsMode devTimeUs fuel payload remain rbmsg := by
  induction fuel generalizing payload remain rbmsg with
  | zero => rw [parseRbmsgLoop, AptUsbtrx.parseRbmsgLoop]
  | succ fuel ih =>
      rw [parseRbmsgLoop, AptUsbtrx.parseRbmsgLoop]
      simp only [hostTimestamp_eq, ih]

/-- Both widths read the same data. -/
theorem parseRbmsg_eq (long : LongWidth) : long.parseRbmsg = AptUsbtrx.parseRbmsg := by
  funext func tsMode rbmsg size relativeTimeNs
  exact long.parseRbmsgLoop_eq func tsMode _ size 0 size rbmsg

/-- The time of the host in seconds and microseconds, with either width. -/
theorem parseRbmsg_stamps (long : LongWidth) (func : UniqueFunction) (rbmsg : List UInt8) (size : ℕ)
    (relativeTimeNs : UInt64) :
    ∃ ts, ∃ offsets : List ℕ, TimestampOf relativeTimeNs ts ∧ le32 ts 4 < 10 ^ 6 ∧
      (long.parseRbmsg func .host rbmsg size relativeTimeNs).2 =
        offsets.foldl (fun area offset => overwrite area offset ts) rbmsg ∧
      (0 < size → offsets.head? = some 0) := by
  have htimestamp := timestampOf_hostTimestamp relativeTimeNs
  obtain ⟨offsets, hwritten, hfirst⟩ := parseRbmsgLoop_stamps func (relativeTimeNs / nsecPerUsec)
    size 0 (Int.le_refl size) rbmsg
  refine ⟨_, offsets, htimestamp, ?_, ?_, fun hpos => hfirst (by omega)⟩
  · rw [htimestamp.tsUsec]
    exact Nat.mod_lt _ (by decide)
  · rw [parseRbmsg_eq]
    exact hwritten

end LongWidth

end AptUsbtrx
