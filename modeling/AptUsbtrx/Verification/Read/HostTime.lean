import AptUsbtrx.Verification.Msg.Words
import AptUsbtrx.Verification.Read.Accesses

/-! # The host time in whole records

What `apt_usbtrx_parse_rbmsg` makes of the time, and of data that consists of whole records. -/

namespace AptUsbtrx

open Memory Ep1Cf02a

/-! ### The timestamp -/

theorem le32_le32Bytes (v : UInt32) (before behind : List UInt8) :
    le32 (before ++ le32Bytes v ++ behind) before.length = v.toNat := by
  have hbyte : ∀ i < 4, byteAt (before ++ le32Bytes v ++ behind) (before.length + i) =
      byteAt (le32Bytes v) i := by
    intro i hi
    rw [List.append_assoc, ← byteAt_drop, List.drop_left]
    exact byteAt_append_left behind hi
  apply le32_of_bytes v.toNat_lt
  intro i hi
  rw [hbyte i hi]
  obtain rfl | rfl | rfl | rfl : i = 0 ∨ i = 1 ∨ i = 2 ∨ i = 3 := by omega
  all_goals simp [le32Bytes, Nat.shiftRight_eq_div_pow]

/-- The time is cut to seconds and microseconds. -/
structure TimestampOf (relativeTimeNs : UInt64) (ts : List UInt8) : Prop where
  length_eq : ts.length = timestampSize
  tsSec : le32 ts 0 = relativeTimeNs.toNat / 10 ^ 9 % 2 ^ 32
  tsUsec : le32 ts 4 = relativeTimeNs.toNat / 1000 % 10 ^ 6

theorem timestampOf_hostTimestamp (relativeTimeNs : UInt64) :
    TimestampOf relativeTimeNs (hostTimestamp (relativeTimeNs / nsecPerUsec)) := by
  have hus : (relativeTimeNs / nsecPerUsec).toNat = relativeTimeNs.toNat / 1000 :=
    UInt64.toNat_div _ _
  refine ⟨rfl, ?_, ?_⟩
  · have hsec := le32_le32Bytes (relativeTimeNs / nsecPerUsec / usecPerSec).toUInt32 []
      (le32Bytes (relativeTimeNs / nsecPerUsec - (relativeTimeNs / nsecPerUsec /
        usecPerSec).toUInt32.toUInt64 * usecPerSec).toUInt32)
    rw [hostTimestamp]
    refine hsec.trans ?_
    rw [UInt64.toNat_toUInt32, UInt64.toNat_div, hus]
    change relativeTimeNs.toNat / 1000 / 1000000 % 2 ^ 32 = _
    omega
  · have husec := le32_le32Bytes (relativeTimeNs / nsecPerUsec - (relativeTimeNs / nsecPerUsec /
        usecPerSec).toUInt32.toUInt64 * usecPerSec).toUInt32
      (le32Bytes (relativeTimeNs / nsecPerUsec / usecPerSec).toUInt32) []
    rw [List.append_nil] at husec
    rw [hostTimestamp]
    refine husec.trans ?_
    have hmul : ∀ v : UInt64, (v * usecPerSec).toNat = v.toNat * 1000000 % 2 ^ 64 :=
      fun v => UInt64.toNat_mul v _
    have hbound := (relativeTimeNs / nsecPerUsec).toNat_lt
    rw [UInt64.toNat_toUInt32, UInt64.toNat_sub, hmul, UInt32.toNat_toUInt64,
      UInt64.toNat_toUInt32, UInt64.toNat_div]
    change (2 ^ 64 - (relativeTimeNs / nsecPerUsec).toNat / 1000000 % 2 ^ 32 * 1000000 % 2 ^ 64 +
      (relativeTimeNs / nsecPerUsec).toNat) % 2 ^ 64 % 2 ^ 32 = _
    rw [← hus]
    omega

/-! ### Whole records -/

namespace FileDevice

variable {device : FileDevice} {records : List (List UInt8)}

theorem tailSized_flatten (hrecords : ∀ r ∈ records, device.Regular r) (tsMode : TimestampMode) :
    device.TailSized tsMode records.flatten := by
  induction records with
  | nil => exact tailSized_nil
  | cons r records ih =>
      obtain ⟨hr, htail⟩ := List.forall_mem_cons.mp hrecords
      rw [List.flatten_cons, tailSized_append_iff hr]
      exact ih htail

/-- The time of the device stays where it is. -/
theorem parseRbmsgLoop_device_mode (hrecords : ∀ r ∈ records, device.Regular r)
    (devTimeUs : UInt64) {fuel payload : ℕ} (hfuel : records.flatten.length ≤ fuel)
    {rbmsg tail : List UInt8} (hfront : rbmsg.drop payload = records.flatten ++ tail) :
    (device.parseRbmsgLoop .device devTimeUs fuel payload records.flatten.length rbmsg).1 =
      (.success, rbmsg) := by
  induction records generalizing fuel payload with
  | nil => rw [parseRbmsgLoop_done (by simp)]
  | cons r records ih =>
      obtain ⟨hr, htail⟩ := List.forall_mem_cons.mp hrecords
      have hpos := List.length_pos_of_ne_nil hr.ne_nil
      rw [List.flatten_cons, List.length_append] at hfuel
      rw [List.flatten_cons, List.append_assoc] at hfront
      obtain ⟨fuel, rfl⟩ : ∃ k, fuel = k + 1 := ⟨fuel - 1, by omega⟩
      have hrest : rbmsg.drop (payload + r.length) = records.flatten ++ tail := by
        rw [← List.drop_drop, hfront, List.drop_left]
      have hstamped : stampedAt .device devTimeUs payload rbmsg = rbmsg := by
        rw [stampedAt, if_neg (by simp)]
      rw [List.flatten_cons, List.length_append, parseRbmsgLoop_succ (by omega)]
      dsimp only
      rw [hfront, hr.size_append, hstamped, if_neg (by omega), if_neg (by omega),
        Int.toNat_natCast, show ((r.length + records.flatten.length : ℕ) : ℤ) - r.length =
          (records.flatten.length : ℕ) by omega]
      exact ih htail (by omega) hrest

/-- Records that are not cut are sized. -/
theorem cutSized_flatten (hrecords : ∀ r ∈ records, device.Regular r) (rbmsg : List UInt8) :
    CutSized device.interface.func rbmsg 0 records records.flatten.length := by
  intro done cut rest heq _ hle
  have hcut : device.Regular cut := hrecords cut (heq ▸ by simp)
  have hlength := ((device.isRecord_iff_regular cut).mpr hcut).length_bounds
  have hflatten := congrArg (fun l => l.flatten.length) heq
  simp only [List.flatten_append, List.flatten_cons, List.length_append] at hflatten
  omega

/-- What lies behind the data stays as it is. -/
theorem drop_parseRbmsg (hrecords : ∀ r ∈ records, device.Regular r) (behind : List UInt8)
    (devTimeUs : UInt64) {k : ℕ} (hk : records.flatten.length ≤ k) :
    (device.parseRbmsgLoop .host devTimeUs records.flatten.length 0 records.flatten.length
      (records.flatten ++ behind)).1.2[k]? = (records.flatten ++ behind)[k]? := by
  apply getElem?_parseRbmsgLoop
  intro hmem
  have hbounds := (@parseRbmsgLoop_inBounds_iff device .host devTimeUs records.flatten.length 0
    records.flatten.length (records.flatten ++ behind) (Nat.le_refl _)
    (by rw [List.length_append]; omega)).mpr (by
      rw [slice_zero, List.take_left]
      exact tailSized_flatten hrecords .host)
  have hlt := hbounds _ hmem
  simp only [Access.index] at hlt
  omega

/-- Whole records get the time of the host and keep everything else; in device mode nothing
changes. -/
theorem parseRbmsg_regular (hrecords : ∀ r ∈ records, device.Regular r) (behind : List UInt8)
    (relativeTimeNs : UInt64) :
    (∃ ts, TimestampOf relativeTimeNs ts ∧
      AptUsbtrx.parseRbmsg device.interface.func .host (records.flatten ++ behind)
        records.flatten.length relativeTimeNs = (.success, stamped ts records ++ behind)) ∧
      AptUsbtrx.parseRbmsg device.interface.func .device (records.flatten ++ behind)
        records.flatten.length relativeTimeNs = (.success, records.flatten ++ behind) := by
  have hsizes : ∀ r ∈ records, device.interface.func.IsRecord r :=
    fun r hr => (device.isRecord_iff_regular r).mpr (hrecords r hr)
  refine ⟨⟨_, timestampOf_hostTimestamp relativeTimeNs, ?_⟩, ?_⟩
  · obtain ⟨rbmsg', hparse, hlength, hstamps⟩ := parseRbmsg_records relativeTimeNs hsizes
      (Nat.le_refl _) (show records.flatten.length ≤ (records.flatten ++ behind).length by
        rw [List.length_append]; omega)
      (by rw [List.take_left, List.take_length]) (cutSized_flatten hrecords _)
    have hlen := length_stamped (length_hostTimestamp (relativeTimeNs / nsecPerUsec))
      fun r hr => (hsizes r hr).length_bounds.1
    rw [← hlen, List.take_length, hlen] at hstamps
    have hbehind : rbmsg'.drop records.flatten.length = behind := by
      apply List.ext_getElem?
      intro i
      have hsame := drop_parseRbmsg hrecords behind (relativeTimeNs / nsecPerUsec)
        (Nat.le_add_right records.flatten.length i)
      rw [parseRbmsgLoop_fst] at hsame
      rw [AptUsbtrx.parseRbmsg, if_pos rfl] at hparse
      rw [hparse, List.getElem?_append_right (Nat.le_add_right _ _),
        Nat.add_sub_cancel_left] at hsame
      rw [List.getElem?_drop, hsame]
    rw [hparse, ← hstamps]
    exact congrArg _ ((List.take_append_drop records.flatten.length rbmsg').symm.trans
      (congrArg _ hbehind))
  · have hloop := parseRbmsgLoop_device_mode hrecords 0 (Nat.le_refl _)
      (List.drop_zero (l := records.flatten ++ behind))
    rw [parseRbmsgLoop_fst] at hloop
    exact hloop

/-- Two values and one value. -/
def analogRecords : List (List UInt8) :=
  [List.replicate 8 0 ++ [0x05, 1, 2, 3, 4], List.replicate 8 0 ++ [0x80, 5, 6]]

theorem parseRbmsg_regular_analog : (∀ r ∈ analogRecords, FileDevice.ep1Ag08a.Regular r) ∧
    (∃ ts, TimestampOf 5000001000 ts ∧
      AptUsbtrx.parseRbmsg FileDevice.ep1Ag08a.interface.func .host (analogRecords.flatten ++ [7])
        24 5000001000 = (.success, stamped ts analogRecords ++ [7])) ∧
      AptUsbtrx.parseRbmsg FileDevice.ep1Ag08a.interface.func .device (analogRecords.flatten ++ [7])
        24 5000001000 = (.success, analogRecords.flatten ++ [7]) :=
  have hrecords : ∀ r ∈ analogRecords, FileDevice.ep1Ag08a.Regular r := by decide
  ⟨hrecords, parseRbmsg_regular hrecords [7] 5000001000⟩

end FileDevice

end AptUsbtrx
