import AptUsbtrx.Model.Ep1Cf02aSet
import AptUsbtrx.Verification.Msg.Words

/-! # The reset time of the host

The time that the host sets, and what the metadata of a stored record make of its bytes. -/

namespace AptUsbtrx

open Memory ByteOrder

namespace Ep1Cf02a

/-- The place of the time in the payload of the response. -/
def hostMonotonicOffset : ℕ := 27

/-- The metadata with the bytes of the time at their place have that time. -/
def ResetTimeRoundTrips (ts : Timespec64) : Prop :=
  ∀ front tail, front.length = hostMonotonicOffset →
    (parseResponseGetStoreDataMeta
      (front ++ packSetHostTimestampResetTime ts ++ tail)).resetTimeHostMonotonic = ts

/-- Four bytes that are read with their sign. -/
theorem le32Signed_littleEndian (front tail : List UInt8) {x : ℤ} (hpos : 0 ≤ x)
    (hlt : x < 2 ^ 32) :
    le32Signed (front ++ littleEndian 4 x ++ tail) front.length = x.bmod (2 ^ 32) := by
  have hvalue : (le32 (front ++ littleEndian 4 x ++ tail) front.length : ℤ) = x := by
    rw [le32_eq_ofLittleEndian, ofLittleEndian_slice_littleEndian]
    exact Int.emod_eq_of_lt hpos (by norm_num; exact hlt)
  exact congrArg (Int.bmod · (2 ^ 32)) hvalue

theorem resetTimeHostMonotonic_eq {ts : Timespec64} (hsec : 0 ≤ ts.tvSec)
    (hsecMax : ts.tvSec < 2 ^ 32) (hnsec : 0 ≤ ts.tvNsec) (hnsecMax : ts.tvNsec < 10 ^ 9)
    {front : List UInt8} (hfront : front.length = hostMonotonicOffset) (tail : List UInt8) :
    (parseResponseGetStoreDataMeta
      (front ++ packSetHostTimestampResetTime ts ++ tail)).resetTimeHostMonotonic =
      ⟨ts.tvSec.bmod (2 ^ 32), ts.tvNsec⟩ := by
  have hsecond := le32Signed_littleEndian front (littleEndian 4 ts.tvNsec ++ tail) hsec hsecMax
  have hnano := le32Signed_littleEndian (front ++ littleEndian 4 ts.tvSec) tail hnsec
    (hnsecMax.trans (by decide))
  rw [List.length_append, length_littleEndian, hfront, Int.bmod_eq_of_le (by omega) (by omega)]
    at hnano
  rw [hfront] at hsecond
  have hbytes : front ++ packSetHostTimestampResetTime ts ++ tail =
      front ++ littleEndian 4 ts.tvSec ++ littleEndian 4 ts.tvNsec ++ tail := by
    rw [packSetHostTimestampResetTime, ← List.append_assoc front]
  rw [hbytes, parseResponseGetStoreDataMeta]
  refine congrArg₂ Timespec64.mk ?_ hnano
  rw [List.append_assoc (front ++ littleEndian 4 ts.tvSec)]
  exact hsecond

/-- A time comes back up to the last second of a 32-bit signed count. -/
theorem resetTimeRoundTrips_iff {ts : Timespec64} (hsec : 0 ≤ ts.tvSec) (hsecMax : ts.tvSec < 2 ^ 32)
    (hnsec : 0 ≤ ts.tvNsec) (hnsecMax : ts.tvNsec < 10 ^ 9) :
    ResetTimeRoundTrips ts ↔ ts.tvSec < 2 ^ 31 := by
  constructor
  · intro h
    have hparse := h (List.replicate hostMonotonicOffset 0) [] List.length_replicate
    rw [resetTimeHostMonotonic_eq hsec hsecMax hnsec hnsecMax List.length_replicate] at hparse
    have hbmod : ts.tvSec.bmod (2 ^ 32) = ts.tvSec := congrArg Timespec64.tvSec hparse
    rw [Int.bmod_def] at hbmod
    split at hbmod <;> omega
  · intro h front tail hfront
    rw [resetTimeHostMonotonic_eq hsec hsecMax hnsec hnsecMax hfront,
      Int.bmod_eq_of_le (by omega) (by omega)]

theorem resetTimeRoundTrips_last : ResetTimeRoundTrips ⟨2147483647, 999999999⟩ :=
  (resetTimeRoundTrips_iff (by decide) (by decide) (by decide) (by decide)).mpr (by decide)

/-- The second behind it comes back negative. -/
theorem not_resetTimeRoundTrips : ¬ ResetTimeRoundTrips ⟨2147483648, 0⟩ := by
  intro h
  have hparse := h (List.replicate hostMonotonicOffset 0) [] List.length_replicate
  exact absurd hparse (by decide)

end Ep1Cf02a

end AptUsbtrx
