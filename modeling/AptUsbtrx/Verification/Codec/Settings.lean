import AptUsbtrx.Model.Ep1Cf02aSet
import AptUsbtrx.Verification.Command.SetCommand
import AptUsbtrx.Verification.Msg.Words

/-! # Setting and reading back

The packers and the parsers of the settings of EP1-CF02A. -/

namespace AptUsbtrx

open Memory ByteOrder

namespace Ep1Cf02a

/-! ### Blocks that are read back -/

theorem littleEndian_le16 {data : List UInt8} {n : ℕ} (h : n + 2 ≤ data.length) :
    littleEndian 2 (le16 data n) = slice data n 2 := by
  have hbytes := littleEndian_ofLittleEndian (slice data n 2)
  rwa [length_slice_of_le h, ← le16_eq_ofLittleEndian] at hbytes

theorem littleEndian_le32 {data : List UInt8} {n : ℕ} (h : n + 4 ≤ data.length) :
    littleEndian 4 (le32 data n) = slice data n 4 := by
  have hbytes := littleEndian_ofLittleEndian (slice data n 4)
  rwa [length_slice_of_le h, ← le32_eq_ofLittleEndian] at hbytes

theorem slice_succ {data : List UInt8} {n : ℕ} (h : n < data.length) (len : ℕ) :
    slice data n (len + 1) = byteAt data n :: slice data (n + 1) len := by
  rw [slice_eq_cons h, byteAt, List.getD_eq_getElem?_getD, List.getElem?_eq_getElem h,
    Option.getD_some]

theorem littleEndian_le64 {data : List UInt8} {n : ℕ} (h : n + 8 ≤ data.length) :
    littleEndian 8 (le64 data n) = slice data n 8 := by
  have hbytes := littleEndian_ofLittleEndian (slice data n 8)
  rwa [length_slice_of_le h, ← le64_eq_ofLittleEndian] at hbytes

/-! ### Flags in a byte -/

theorem flag_eq (flag : Bool) : ((if flag then 0x01 else 0x00 : UInt8) == 0x01) = flag := by
  cases flag <;> decide

theorem flag_and_ne (flag : Bool) :
    ((if flag then 0x01 else 0x00 : UInt8) &&& 0x01 != 0) = flag := by
  cases flag <;> decide

theorem flag_and_eq (flag : Bool) :
    ((if flag then 0x00 else 0x01 : UInt8) &&& 0x01 == 0) = flag := by
  cases flag <;> decide

attribute [ext] BitTiming RtcTime StoreDataRxControl

theorem packSetStoreDataRxControl_eq {control : StoreDataRxControl}
    (h : control.id.length = cmdStoreDataIdMaxLength) :
    packSetStoreDataRxControl control = control.id ++
      ((if control.start then 0x01 else 0x00) ::
        littleEndian 8 control.canFrameCountPerRequest) := by
  rw [packSetStoreDataRxControl, slice_zero, ← h, List.take_length, List.append_assoc,
    List.singleton_append]

namespace Setting

/-! ### The layouts -/

/-- The numbers of more than one byte. -/
def fields : (setting : Setting) → List (WordField setting.Value)
  | bitTiming | dataBitTiming =>
      [⟨0, 2, BitTiming.propSeg⟩, ⟨2, 2, BitTiming.phaseSeg1⟩, ⟨4, 2, BitTiming.phaseSeg2⟩,
        ⟨6, 2, BitTiming.sjw⟩, ⟨8, 2, BitTiming.brp⟩]
  | rtcTime => [⟨7, 4, fun rtcTime : RtcTime => rtcTime.microsecond⟩]
  | storeDataRxControl =>
      [⟨33, 8, fun control : StoreDataRxControl => control.canFrameCountPerRequest⟩]
  | storeMaxDuration => [⟨0, 4, fun maxDuration : ℕ => maxDuration⟩]
  | _ => []

/-- The place of the flag. -/
def flag : Setting → Option ℕ
  | silentMode | fdMode | isoMode | txRxControl | storeEnable => some 0
  | storeDataRxControl => some 32
  | bitTiming | dataBitTiming | rtcTime | storeMaxDuration => none

/-- The id of a stored record. -/
def id : (setting : Setting) → setting.Value → Option (List UInt8)
  | storeDataRxControl, (control : StoreDataRxControl) => some control.id
  | _, _ => none

/-- The numbers fit in their places, and an id has its length. -/
structure InRange (setting : Setting) (v : setting.Value) : Prop where
  fits : ∀ f ∈ setting.fields, 0 ≤ f.get v ∧ f.get v < 256 ^ f.width
  id_length : ∀ id ∈ setting.id v, id.length = cmdStoreDataIdMaxLength

/-- A payload with a flag that is a zero or a one. -/
structure Canonical (setting : Setting) (data : List UInt8) : Prop where
  length : data.length = msgLengthToPayload setting.command.reqDataSize
  flag : ∀ n ∈ setting.flag, byteAt data n = 0x00 ∨ byteAt data n = 0x01

theorem readBy (setting : Setting) {f : WordField setting.Value} (h : f ∈ setting.fields) :
    f.ReadBy setting.parseResp := by
  cases setting with
  | silentMode | fdMode | isoMode | txRxControl | storeEnable => cases h
  | bitTiming | dataBitTiming =>
      simp only [fields, List.mem_cons, List.not_mem_nil, or_false] at h
      obtain rfl | rfl | rfl | rfl | rfl := h
      all_goals exact fun data => congrArg _ (le16_eq_ofLittleEndian data _)
  | rtcTime =>
      obtain rfl := List.mem_singleton.mp h
      exact fun data => congrArg _ (le32_eq_ofLittleEndian data 7)
  | storeDataRxControl =>
      obtain rfl := List.mem_singleton.mp h
      exact fun data => congrArg _ (le64_eq_ofLittleEndian data 33)
  | storeMaxDuration =>
      obtain rfl := List.mem_singleton.mp h
      exact fun data => congrArg _ (le32_eq_ofLittleEndian data 0)

theorem writtenBy (setting : Setting) {f : WordField setting.Value} (h : f ∈ setting.fields)
    {v : setting.Value} (hv : ∀ id ∈ setting.id v, id.length = cmdStoreDataIdMaxLength) :
    f.WrittenBy setting.packReq v := by
  cases setting with
  | silentMode | fdMode | isoMode | txRxControl | storeEnable => cases h
  | bitTiming | dataBitTiming =>
      simp only [fields, List.mem_cons, List.not_mem_nil, or_false] at h
      obtain rfl | rfl | rfl | rfl | rfl := h
      all_goals rfl
  | rtcTime | storeMaxDuration =>
      obtain rfl := List.mem_singleton.mp h
      rfl
  | storeDataRxControl =>
      obtain rfl := List.mem_singleton.mp h
      have hid : (StoreDataRxControl.id v).length = cmdStoreDataIdMaxLength := hv _ rfl
      change slice (packSetStoreDataRxControl v) 33 8 = _
      rw [packSetStoreDataRxControl_eq hid, slice, show 33 = cmdStoreDataIdMaxLength + 1 from rfl,
        ← hid, List.drop_length_add_append]
      rfl

/-! ### There and back -/

variable {setting : Setting}

/-- What was set is read back, whatever stands behind it. -/
theorem parseResp_packReq {v : setting.Value} (hv : setting.InRange v) (tail : List UInt8) :
    setting.parseResp (setting.packReq v ++ tail) = v := by
  have hget : ∀ f ∈ setting.fields,
      f.get (setting.parseResp (setting.packReq v ++ tail)) = f.get v :=
    fun f hf => (WordField.get_parse_pack_eq_iff (setting.writtenBy hf hv.id_length)
      (setting.readBy hf) tail).mpr (hv.fits f hf)
  cases setting with
  | silentMode => exact flag_and_eq v
  | fdMode | isoMode => exact flag_and_ne v
  | txRxControl | storeEnable => exact flag_eq v
  | bitTiming | dataBitTiming =>
      simp only [fields, List.forall_mem_cons] at hget
      exact BitTiming.ext hget.1 hget.2.1 hget.2.2.1 hget.2.2.2.1 hget.2.2.2.2.1
  | rtcTime =>
      have hmicrosecond := hget _ (List.mem_singleton_self _)
      exact RtcTime.ext rfl rfl rfl rfl rfl rfl rfl (Int.ofNat_inj.mp hmicrosecond)
  | storeDataRxControl =>
      have hcount := hget _ (List.mem_singleton_self _)
      have hid : (StoreDataRxControl.id v).length = cmdStoreDataIdMaxLength := hv.id_length _ rfl
      refine StoreDataRxControl.ext ?_ ?_ (Int.ofNat_inj.mp hcount)
      · change slice (packSetStoreDataRxControl v ++ tail) 0 cmdStoreDataIdMaxLength = _
        rw [packSetStoreDataRxControl_eq hid, List.append_assoc, slice_zero, ← hid, List.take_left]
      · change (byteAt (packSetStoreDataRxControl v ++ tail) cmdStoreDataIdMaxLength == 0x01) = _
        rw [packSetStoreDataRxControl_eq hid, List.append_assoc, ← hid, List.cons_append,
          byteAt_append_length]
        exact flag_eq _
  | storeMaxDuration =>
      exact Int.ofNat_inj.mp (hget _ (List.mem_singleton_self _))

/-- What was read gives the same payload again. -/
theorem packReq_parseResp {data : List UInt8} (hdata : setting.Canonical data) :
    setting.packReq (setting.parseResp data) = data := by
  have hlength := hdata.length
  have hflag := hdata.flag
  cases setting with
  | silentMode | fdMode | isoMode | txRxControl | storeEnable =>
      obtain ⟨b, rfl⟩ := List.length_eq_one_iff.mp hlength
      obtain rfl | rfl : b = 0x00 ∨ b = 0x01 := hflag 0 rfl
      all_goals rfl
  | bitTiming | dataBitTiming =>
      replace hlength : data.length = 10 := hlength
      change littleEndian 2 (le16 data 0) ++ littleEndian 2 (le16 data 2) ++
        littleEndian 2 (le16 data 4) ++ littleEndian 2 (le16 data 6) ++
        littleEndian 2 (le16 data 8) = data
      rw [littleEndian_le16 (by omega), littleEndian_le16 (by omega), littleEndian_le16 (by omega),
        littleEndian_le16 (by omega), littleEndian_le16 (by omega), slice_append_slice data 0 2 2,
        slice_append_slice data 0 4 2, slice_append_slice data 0 6 2, slice_append_slice data 0 8 2,
        slice_zero, List.take_of_length_le (Nat.le_of_eq hlength)]
  | rtcTime =>
      replace hlength : data.length = 11 := hlength
      change [byteAt data 0, byteAt data 1, byteAt data 2, byteAt data 3, byteAt data 4,
        byteAt data 5, byteAt data 6] ++ littleEndian 4 (le32 data 7) = data
      have hbytes : slice data 0 7 = [byteAt data 0, byteAt data 1, byteAt data 2, byteAt data 3,
          byteAt data 4, byteAt data 5, byteAt data 6] := by
        rw [slice_succ (by omega), slice_succ (by omega), slice_succ (by omega),
          slice_succ (by omega), slice_succ (by omega), slice_succ (by omega),
          slice_succ (by omega), slice_zero_length]
      rw [← hbytes, littleEndian_le32 (by omega), slice_append_slice data 0 7 4, slice_zero,
        List.take_of_length_le (Nat.le_of_eq hlength)]
  | storeDataRxControl =>
      replace hlength : data.length = 41 := hlength
      have hstart : slice data 32 1 = [if byteAt data 32 == 0x01 then 0x01 else 0x00] := by
        rw [slice_succ (by omega), slice_zero_length]
        obtain hzero | hone := hflag 32 rfl
        · rw [hzero]
          rfl
        · rw [hone]
          rfl
      change slice (slice data 0 32) 0 32 ++ [if byteAt data 32 == 0x01 then 0x01 else 0x00] ++
        littleEndian 8 (le64 data 33) = data
      rw [slice_zero (slice data 0 32), take_slice, Nat.min_self, ← hstart,
        littleEndian_le64 (by omega), slice_append_slice data 0 32 1,
        slice_append_slice data 0 33 8, slice_zero, List.take_of_length_le (Nat.le_of_eq hlength)]
  | storeMaxDuration =>
      replace hlength : data.length = 4 := hlength
      change littleEndian 4 (le32 data 0) = data
      rw [littleEndian_le32 (by omega), slice_zero, List.take_of_length_le (Nat.le_of_eq hlength)]

/-- The packer fills the payload of the request. -/
theorem fits_packReq {v : setting.Value}
    (hv : ∀ id ∈ setting.id v, id.length = cmdStoreDataIdMaxLength) :
    setting.command.Fits (setting.packReq v) := by
  cases setting with
  | silentMode | fdMode | isoMode | txRxControl | storeEnable | bitTiming | dataBitTiming | rtcTime |
      storeMaxDuration =>
      exact ⟨by decide, by decide, rfl⟩
  | storeDataRxControl =>
      have hid : (StoreDataRxControl.id v).length = cmdStoreDataIdMaxLength := hv _ rfl
      refine ⟨by decide, by decide, ?_⟩
      change (packSetStoreDataRxControl v).length = 41
      rw [packSetStoreDataRxControl_eq hid, List.length_append, List.length_cons,
        length_littleEndian, hid]
      rfl

/-- Packing and parsing are inverse, and agree on the place and the byte order of every number. -/
theorem packReq_parseResp_inverse (setting : Setting) :
    (∀ v, setting.InRange v → ∀ tail, setting.parseResp (setting.packReq v ++ tail) = v) ∧
      (∀ data, setting.Canonical data → setting.packReq (setting.parseResp data) = data) ∧
        ∀ f ∈ setting.fields, f.ReadBy setting.parseResp ∧
          ∀ v, setting.InRange v → f.WrittenBy setting.packReq v :=
  ⟨fun _ hv tail => parseResp_packReq hv tail, fun _ hdata => packReq_parseResp hdata,
    fun _ hf => ⟨setting.readBy hf, fun _ hv => setting.writtenBy hf hv.id_length⟩⟩

/-- The last microsecond of the field. -/
theorem packReq_parseResp_inverse_rtcTime :
    parseResp .rtcTime (packReq .rtcTime ⟨7, 12, 31, 99, 23, 59, 59, 4294967295⟩ ++ [0xAA]) =
      (⟨7, 12, 31, 99, 23, 59, 59, 4294967295⟩ : RtcTime) :=
  (packReq_parseResp_inverse .rtcTime).1 _ ⟨by decide, by decide⟩ [0xAA]

end Setting

end Ep1Cf02a

end AptUsbtrx
