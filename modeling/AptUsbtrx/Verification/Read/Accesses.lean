import AptUsbtrx.Model.ReadAccess
import AptUsbtrx.Verification.Read.Walk

/-! # What the parser touches

The accesses of `apt_usbtrx_parse_rbmsg` stay in front of the end of the data exactly if what
comes behind the whole records is long enough for one round of the loop. -/

namespace AptUsbtrx

open Memory

/-! ### One round -/

theorem index_of_mem_stampAccesses {payload : ℕ} {a : Access} (h : a ∈ stampAccesses payload) :
    a.index < payload + timestampSize := by
  simp only [stampAccesses, List.mem_append, List.mem_map, List.mem_range'_1] at h
  rcases h with (⟨i, hi, rfl⟩ | ⟨i, hi, rfl⟩) | ⟨i, hi, rfl⟩
  all_goals
    simp only [Access.index, timestampSize]
    omega

theorem write_mem_stampAccesses (payload : ℕ) {i : ℕ} (h : i < timestampSize) :
    .write (payload + i) ∈ stampAccesses payload := by
  simp only [timestampSize] at h
  simp only [stampAccesses, List.mem_append, List.mem_map, List.mem_range'_1]
  by_cases hlow : i < 4
  · exact .inl (.inl ⟨payload + i, ⟨by omega, by omega⟩, rfl⟩)
  · exact .inr ⟨payload + i, ⟨by omega, by omega⟩, rfl⟩

/-- The area behind the stores of one round. -/
def stampedAt (tsMode : TimestampMode) (devTimeUs : UInt64) (payload : ℕ) (rbmsg : List UInt8) :
    List UInt8 :=
  if tsMode ≠ .device then overwrite rbmsg payload (hostTimestamp devTimeUs) else rbmsg

@[simp] theorem length_stampedAt (tsMode : TimestampMode) (devTimeUs : UInt64) (payload : ℕ)
    (rbmsg : List UInt8) : (stampedAt tsMode devTimeUs payload rbmsg).length = rbmsg.length := by
  rw [stampedAt]
  split
  · exact length_overwrite _ _ _
  · rfl

theorem getElem?_stampedAt {tsMode : TimestampMode} {devTimeUs : UInt64} {payload i : ℕ}
    {rbmsg : List UInt8}
    (h : tsMode = .device ∨ i < payload ∨ payload + timestampSize ≤ i) :
    (stampedAt tsMode devTimeUs payload rbmsg)[i]? = rbmsg[i]? := by
  rw [stampedAt]
  split
  case isTrue hmode =>
    rw [getElem?_overwrite, length_hostTimestamp, if_neg (by have := h.resolve_left hmode; omega)]
  case isFalse => rfl

namespace FileDevice

variable {device : FileDevice} {tsMode : TimestampMode} {devTimeUs : UInt64}
  {fuel payload n : ℕ} {remain : ℤ} {rbmsg : List UInt8}

/-- The accesses of one round in front of the size of the payload. -/
def roundAccesses (device : FileDevice) (tsMode : TimestampMode) (payload : ℕ)
    (stamped : List UInt8) : List Access :=
  (if tsMode ≠ .device then stampAccesses payload else []) ++
    (device.sizeReads (stamped.drop payload)).map (.read <| payload + ·)

/-- How many bytes of a payload a round touches. -/
def touched (tsMode : TimestampMode) : FileDevice → ℕ
  | ep1Ag08a => timestampSize + 1
  | apCt2a | ep1Ch02a | ep1Cf02a => match tsMode with
    | .device => 0
    | .host => timestampSize

theorem mem_sizeReads {p : List UInt8} {i : ℕ} :
    i ∈ device.sizeReads p ↔ device = .ep1Ag08a ∧ i = timestampSize := by
  cases device with
  | apCt2a | ep1Ch02a | ep1Cf02a => simp [sizeReads]
  | ep1Ag08a =>
      rw [sizeReads]
      split <;> simp

theorem index_of_mem_roundAccesses {stamped : List UInt8} {a : Access}
    (h : a ∈ device.roundAccesses tsMode payload stamped) :
    a.index < payload + device.touched tsMode := by
  rw [roundAccesses, List.mem_append, List.mem_map] at h
  rcases h with hstamp | ⟨i, hi, rfl⟩
  · split at hstamp
    case isTrue hmode =>
      have hindex := index_of_mem_stampAccesses hstamp
      cases tsMode with
      | device => exact absurd rfl hmode
      | host => cases device <;> simp only [touched] <;> omega
    case isFalse => cases hstamp
  · obtain ⟨rfl, rfl⟩ := mem_sizeReads.mp hi
    simp only [Access.index, touched]
    omega

/-- The last of these bytes is touched. -/
theorem exists_mem_roundAccesses (stamped : List UInt8) (h : 0 < device.touched tsMode) :
    ∃ a ∈ device.roundAccesses tsMode payload stamped,
      a.index + 1 = payload + device.touched tsMode := by
  by_cases hdevice : device = .ep1Ag08a
  · subst hdevice
    refine ⟨.read (payload + timestampSize), List.mem_append_right _ (List.mem_map.mpr
      ⟨timestampSize, mem_sizeReads.mpr ⟨rfl, rfl⟩, rfl⟩), rfl⟩
  · cases tsMode with
    | device => cases device <;> first | exact absurd rfl hdevice | exact absurd h (by decide)
    | host =>
        refine ⟨.write (payload + 7), List.mem_append_left _ ?_, ?_⟩
        · rw [if_pos (by decide)]
          exact write_mem_stampAccesses payload (by decide)
        · cases device <;> first | exact absurd rfl hdevice | rfl

/-- The stores of a round do not change the size that it finds. -/
theorem getReadPayloadSize_stampedAt (func : UniqueFunction) :
    func.getReadPayloadSize ((stampedAt tsMode devTimeUs payload rbmsg).drop payload) =
      func.getReadPayloadSize (rbmsg.drop payload) :=
  getReadPayloadSize_congr (getElem?_stampedAt (.inr (.inr (Nat.le_refl _))))

/-- One round of the loop. -/
theorem parseRbmsgLoop_succ (h : 0 < remain) :
    device.parseRbmsgLoop tsMode devTimeUs (fuel + 1) payload remain rbmsg =
      let stamped := stampedAt tsMode devTimeUs payload rbmsg
      let accesses := device.roundAccesses tsMode payload stamped
      let payloadSize := device.interface.func.getReadPayloadSize (rbmsg.drop payload)
      if payloadSize < 0 then ((.failure, stamped), accesses)
      else if remain < payloadSize then ((.success, stamped), accesses)
      else
        let later := device.parseRbmsgLoop tsMode devTimeUs fuel (payload + payloadSize.toNat)
          (remain - payloadSize) stamped
        (later.1, accesses ++ later.2) := by
  have hsame := @getReadPayloadSize_stampedAt tsMode devTimeUs payload rbmsg device.interface.func
  rw [parseRbmsgLoop.eq_def, if_pos h]
  simp only [stampedAt, roundAccesses] at hsame ⊢
  rw [hsame]
  by_cases hsize : device.interface.func.getReadPayloadSize (rbmsg.drop payload) < 0
  · rw [if_pos hsize, if_pos hsize]
  · have hbounds := device.interface.func.size_bounds (Int.not_lt.mp hsize)
    have hmax : ¬ device.interface.func.getReadPayloadSize (rbmsg.drop payload) >
        (msgLengthToPayload cmdMaxLength : ℕ) := Int.not_lt.mpr hbounds.2
    rw [if_neg hsize, if_neg hsize, if_neg hmax]
    by_cases hcut : remain < device.interface.func.getReadPayloadSize (rbmsg.drop payload)
    · rw [if_pos (by omega), if_pos hcut, parseRbmsgLoop.eq_def, if_neg (by omega),
        List.append_nil]
    · rw [if_neg (by omega), if_neg hcut]

theorem parseRbmsgLoop_done (h : remain ≤ 0) :
    device.parseRbmsgLoop tsMode devTimeUs fuel payload remain rbmsg = ((.success, rbmsg), []) := by
  rw [parseRbmsgLoop.eq_def, if_neg (by omega)]

/-! ### What the accesses account for -/

/-- Without its accesses the loop is that of the parser. -/
theorem parseRbmsgLoop_fst (device : FileDevice) (tsMode : TimestampMode) (devTimeUs : UInt64)
    (fuel payload : ℕ) (remain : ℤ) (rbmsg : List UInt8) :
    (device.parseRbmsgLoop tsMode devTimeUs fuel payload remain rbmsg).1 =
      AptUsbtrx.parseRbmsgLoop device.interface.func tsMode devTimeUs fuel payload remain rbmsg := by
  induction fuel generalizing payload remain rbmsg with
  | zero =>
      rw [parseRbmsgLoop, AptUsbtrx.parseRbmsgLoop]
      split <;> rfl
  | succ fuel ih =>
      rw [parseRbmsgLoop, AptUsbtrx.parseRbmsgLoop]
      simp only [apply_ite Prod.fst, ih]

theorem parseRbmsg_fst (device : FileDevice) (tsMode : TimestampMode) (rbmsg : List UInt8)
    (size : ℕ) (relativeTimeNs : UInt64) :
    (device.parseRbmsg tsMode rbmsg size relativeTimeNs).1 =
      AptUsbtrx.parseRbmsg device.interface.func tsMode rbmsg size relativeTimeNs :=
  device.parseRbmsgLoop_fst _ _ _ _ _ _

/-- A byte that is not written stays as it is. -/
theorem getElem?_parseRbmsgLoop {k : ℕ}
    (h : .write k ∉ (device.parseRbmsgLoop tsMode devTimeUs fuel payload remain rbmsg).2) :
    (device.parseRbmsgLoop tsMode devTimeUs fuel payload remain rbmsg).1.2[k]? = rbmsg[k]? := by
  induction fuel generalizing payload remain rbmsg with
  | zero =>
      rw [parseRbmsgLoop]
      split <;> rfl
  | succ fuel ih =>
      by_cases hremain : 0 < remain
      · have hstamped : .write k ∉ device.roundAccesses tsMode payload
            (stampedAt tsMode devTimeUs payload rbmsg) →
            (stampedAt tsMode devTimeUs payload rbmsg)[k]? = rbmsg[k]? := by
          intro hround
          apply getElem?_stampedAt
          cases tsMode with
          | device => exact .inl rfl
          | host =>
              by_contra hin
              refine hround (List.mem_append_left _ ?_)
              obtain ⟨i, rfl⟩ : ∃ i, k = payload + i := ⟨k - payload, by omega⟩
              rw [if_pos (by decide)]
              exact write_mem_stampAccesses payload (by omega)
        rw [parseRbmsgLoop_succ hremain] at h ⊢
        dsimp only at h ⊢
        split at h
        next hsize => rw [if_pos hsize, hstamped h]
        next hsize =>
          rw [if_neg hsize]
          split at h
          next hcut => rw [if_pos hcut, hstamped h]
          next hcut =>
            rw [List.mem_append, not_or] at h
            rw [if_neg hcut, ih h.2, hstamped h.1]
      · rw [parseRbmsgLoop_done (by omega)]

theorem stampedAt_congr {area : List UInt8} (hlen : area.length = rbmsg.length) {k : ℕ}
    (h : area[k]? = rbmsg[k]?) :
    (stampedAt tsMode devTimeUs payload area)[k]? =
      (stampedAt tsMode devTimeUs payload rbmsg)[k]? := by
  rw [stampedAt, stampedAt]
  split
  · rw [getElem?_overwrite, getElem?_overwrite, hlen, h]
  · exact h

theorem getReadPayloadSize_congr_reads {p q : List UInt8}
    (h : ∀ i ∈ device.sizeReads p, p[i]? = q[i]?) :
    device.interface.func.getReadPayloadSize p = device.interface.func.getReadPayloadSize q ∧
      device.sizeReads p = device.sizeReads q := by
  cases device with
  | apCt2a | ep1Ch02a | ep1Cf02a => exact ⟨rfl, rfl⟩
  | ep1Ag08a =>
      have hmask : byteAt p timestampSize = byteAt q timestampSize := by
        rw [byteAt, byteAt, List.getD_eq_getElem?_getD, List.getD_eq_getElem?_getD,
          h _ (mem_sizeReads.mpr ⟨rfl, rfl⟩)]
      exact ⟨UniqueFunction.size_eq _ _ _ hmask, by rw [sizeReads, sizeReads, hmask]⟩

/-- The verdict and the accesses depend on nothing but the bytes read. -/
theorem parseRbmsgLoop_congr {area : List UInt8} (hlen : area.length = rbmsg.length)
    (h : ∀ k, .read k ∈ (device.parseRbmsgLoop tsMode devTimeUs fuel payload remain rbmsg).2 →
      area[k]? = rbmsg[k]?) :
    (device.parseRbmsgLoop tsMode devTimeUs fuel payload remain area).1.1 =
        (device.parseRbmsgLoop tsMode devTimeUs fuel payload remain rbmsg).1.1 ∧
      (device.parseRbmsgLoop tsMode devTimeUs fuel payload remain area).2 =
        (device.parseRbmsgLoop tsMode devTimeUs fuel payload remain rbmsg).2 := by
  induction fuel generalizing payload remain rbmsg area with
  | zero =>
      rw [parseRbmsgLoop, parseRbmsgLoop]
      split <;> exact ⟨rfl, rfl⟩
  | succ fuel ih =>
      by_cases hremain : 0 < remain
      · have hround : ∀ k, .read k ∈ device.roundAccesses tsMode payload
            (stampedAt tsMode devTimeUs payload rbmsg) → area[k]? = rbmsg[k]? := by
          intro k hk
          apply h
          rw [parseRbmsgLoop_succ hremain]
          dsimp only
          split
          · exact hk
          · split
            · exact hk
            · exact List.mem_append_left _ hk
        have hsizes := @getReadPayloadSize_congr_reads device
          ((stampedAt tsMode devTimeUs payload rbmsg).drop payload)
          ((stampedAt tsMode devTimeUs payload area).drop payload) (by
            intro i hi
            rw [List.getElem?_drop, List.getElem?_drop]
            refine (stampedAt_congr hlen (hround _ ?_)).symm
            exact List.mem_append_right _ (List.mem_map.mpr ⟨i, hi, rfl⟩))
        have haccesses : device.roundAccesses tsMode payload
            (stampedAt tsMode devTimeUs payload area) = device.roundAccesses tsMode payload
            (stampedAt tsMode devTimeUs payload rbmsg) := by
          rw [roundAccesses, roundAccesses, hsizes.2]
        have hsize := hsizes.1
        rw [getReadPayloadSize_stampedAt, getReadPayloadSize_stampedAt] at hsize
        rw [parseRbmsgLoop_succ hremain] at h
        rw [parseRbmsgLoop_succ hremain, parseRbmsgLoop_succ hremain]
        dsimp only at h ⊢
        rw [← hsize, haccesses]
        split at h
        next hfail => simp only [if_pos hfail, and_self]
        next hfail =>
          split at h
          next hcut => simp only [if_neg hfail, if_pos hcut, and_self]
          next hcut =>
            simp only [if_neg hfail, if_neg hcut]
            have hlater := @ih (payload + (device.interface.func.getReadPayloadSize
                (rbmsg.drop payload)).toNat) (remain - device.interface.func.getReadPayloadSize
                (rbmsg.drop payload)) (stampedAt tsMode devTimeUs payload rbmsg)
              (stampedAt tsMode devTimeUs payload area)
              (by rw [length_stampedAt, length_stampedAt, hlen])
              (fun k hk => stampedAt_congr hlen (h k (List.mem_append_right _ hk)))
            exact ⟨hlater.1, congrArg _ hlater.2⟩
      · rw [parseRbmsgLoop_done (by omega), parseRbmsgLoop_done (by omega)]
        exact ⟨rfl, rfl⟩

/-! ### Accesses in front of the end -/

/-- Behind whole payloads nothing is left, or enough for a round. -/
def TailSized (device : FileDevice) (tsMode : TimestampMode) (bytes : List UInt8) : Prop :=
  ∀ (records : List (List UInt8)) (rest : List UInt8), (∀ r ∈ records, device.Regular r) →
    bytes = records.flatten ++ rest → rest = [] ∨ device.touched tsMode ≤ rest.length

theorem touched_le_of_tailSized {bytes : List UInt8} (h : device.TailSized tsMode bytes)
    (hne : bytes ≠ []) : device.touched tsMode ≤ bytes.length :=
  (h [] bytes (by simp) rfl).resolve_left hne

theorem touched_le (device : FileDevice) (tsMode : TimestampMode) :
    device.touched tsMode ≤ timestampSize + 1 := by
  cases device <;> cases tsMode <;> decide

theorem Regular.size_append {r : List UInt8} (h : device.Regular r) (tail : List UInt8) :
    device.interface.func.getReadPayloadSize (r ++ tail) = r.length := by
  have hrecord := (device.isRecord_iff_regular r).mpr h
  rw [UniqueFunction.getReadPayloadSize_append hrecord.length_bounds.1, hrecord]

theorem Regular.ne_nil {r : List UInt8} (h : device.Regular r) : r ≠ [] := by
  have hbounds := ((device.isRecord_iff_regular r).mpr h).length_bounds
  exact List.ne_nil_of_length_pos (by omega)

theorem tailSized_nil : device.TailSized tsMode [] := by
  intro records rest _ hbytes
  exact .inl (List.append_eq_nil_iff.mp hbytes.symm).2

/-- Whole payloads in front have the size that the bytes give. -/
theorem tailSized_of_forall {bytes : List UInt8}
    (h : ∀ r tail, bytes = r ++ tail → ¬ device.Regular r)
    (hlen : device.touched tsMode ≤ bytes.length) : device.TailSized tsMode bytes := by
  intro records rest hrecords hbytes
  cases records with
  | nil =>
      obtain rfl : bytes = rest := hbytes
      exact .inr hlen
  | cons r records =>
      rw [List.flatten_cons, List.append_assoc] at hbytes
      exact absurd (hrecords r List.mem_cons_self) (h r _ hbytes)

theorem tailSized_append_iff {r bytes : List UInt8} (hr : device.Regular r) :
    device.TailSized tsMode (r ++ bytes) ↔ device.TailSized tsMode bytes := by
  have hlen : device.touched tsMode ≤ r.length :=
    (touched_le device tsMode).trans ((device.isRecord_iff_regular r).mpr hr).length_bounds.1
  constructor
  · intro h records rest hrecords hbytes
    refine h (r :: records) rest ?_ (by rw [hbytes, List.flatten_cons, List.append_assoc])
    exact List.forall_mem_cons.mpr ⟨hr, hrecords⟩
  · intro h records rest hrecords hbytes
    cases records with
    | nil =>
        refine .inr (hlen.trans ?_)
        rw [← show r ++ bytes = rest from hbytes, List.length_append]
        omega
    | cons r' records =>
        rw [List.flatten_cons, List.append_assoc] at hbytes
        have hr' := hrecords r' List.mem_cons_self
        have hlength := hr.size_append bytes
        rw [hbytes, hr'.size_append] at hlength
        obtain ⟨rfl, htail⟩ := List.append_inj hbytes (by omega)
        exact h records rest (fun s hs => hrecords s (List.mem_cons_of_mem _ hs)) htail

/-- The size of the payload in front, once there is as much as a round touches. -/
theorem getReadPayloadSize_slice (h : device.touched tsMode ≤ n) :
    device.interface.func.getReadPayloadSize (rbmsg.drop payload) =
      device.interface.func.getReadPayloadSize (slice rbmsg payload n) := by
  cases device with
  | apCt2a | ep1Ch02a | ep1Cf02a => rfl
  | ep1Ag08a =>
      simp only [touched] at h
      apply UniqueFunction.size_eq
      rw [byteAt, byteAt, List.getD_eq_getElem?_getD, List.getD_eq_getElem?_getD, getElem?_slice,
        if_pos (by omega), List.getElem?_drop]

theorem parseRbmsgLoop_inBounds_iff (hfuel : n ≤ fuel) (hlen : payload + n ≤ rbmsg.length) :
    (∀ a ∈ (device.parseRbmsgLoop tsMode devTimeUs fuel payload n rbmsg).2,
        a.index < payload + n) ↔
      device.TailSized tsMode (slice rbmsg payload n) := by
  induction fuel generalizing payload n rbmsg with
  | zero =>
      obtain rfl : n = 0 := Nat.le_zero.mp hfuel
      rw [parseRbmsgLoop_done (by omega), slice_zero_length]
      simp [tailSized_nil]
  | succ fuel ih =>
      rcases Nat.eq_zero_or_pos n with rfl | hpos
      · rw [parseRbmsgLoop_done (by omega), slice_zero_length]
        simp [tailSized_nil]
      have hlength : (slice rbmsg payload n).length = n := length_slice_of_le hlen
      have hne : slice rbmsg payload n ≠ [] := List.ne_nil_of_length_pos (by omega)
      generalize hround : device.roundAccesses tsMode payload
        (stampedAt tsMode devTimeUs payload rbmsg) = round
      rw [parseRbmsgLoop_succ (by omega)]
      dsimp only
      rw [hround]
      by_cases htouched : device.touched tsMode ≤ n
      · -- the round is in front of the end
        have hinside : ∀ a ∈ round, a.index < payload + n := by
          intro a ha
          rw [← hround] at ha
          exact (index_of_mem_roundAccesses ha).trans_le (by omega)
        have hsize := @getReadPayloadSize_slice device tsMode payload n rbmsg htouched
        have hfront : ∀ r tail, slice rbmsg payload n = r ++ tail → device.Regular r →
            device.interface.func.getReadPayloadSize (rbmsg.drop payload) = r.length ∧
              r.length ≤ n := by
          intro r tail hsplit hr
          have hle := congrArg List.length hsplit
          rw [hlength, List.length_append] at hle
          exact ⟨by rw [hsize, hsplit, hr.size_append], by omega⟩
        rw [← hlength] at htouched
        split
        next hfail =>
          refine iff_of_true hinside (tailSized_of_forall ?_ htouched)
          intro r tail hsplit hr
          have := hfront r tail hsplit hr
          omega
        next hfail =>
          split
          next hcut =>
            refine iff_of_true hinside (tailSized_of_forall ?_ htouched)
            intro r tail hsplit hr
            have := hfront r tail hsplit hr
            omega
          next hcut =>
            -- a whole payload in front of the others
            have hbounds := device.interface.func.size_bounds (Int.not_lt.mp hfail)
            obtain ⟨size, heq⟩ := Int.eq_ofNat_of_zero_le (Int.not_lt.mp hfail)
            rw [heq] at hbounds hcut hsize ⊢
            have hsplit := slice_append_slice rbmsg payload size (n - size)
            rw [Nat.add_sub_cancel' (by omega)] at hsplit
            have hr : device.Regular (slice rbmsg payload size) := by
              rw [← isRecord_iff_regular, UniqueFunction.IsRecord,
                length_slice_of_le (by omega), hsize, ← hsplit,
                UniqueFunction.getReadPayloadSize_append]
              rw [length_slice_of_le (by omega)]
              omega
            have hlater := @ih (payload + size) (n - size)
              (stampedAt tsMode devTimeUs payload rbmsg) (by omega)
              (by rw [length_stampedAt]; omega)
            have hrest : slice (stampedAt tsMode devTimeUs payload rbmsg) (payload + size)
                (n - size) = slice rbmsg (payload + size) (n - size) := by
              apply List.ext_getElem?
              intro i
              rw [getElem?_slice, getElem?_slice, getElem?_stampedAt (.inr (.inr (by omega)))]
            rw [hrest, show payload + size + (n - size) = payload + n by omega,
              Nat.cast_sub (by omega)] at hlater
            rw [Int.toNat_natCast, ← hsplit, tailSized_append_iff hr, ← hlater]
            simp only [List.forall_mem_append, and_iff_right hinside]
      · -- the round goes past the end
        obtain ⟨a, ha, hindex⟩ := @exists_mem_roundAccesses device tsMode payload
          (stampedAt tsMode devTimeUs payload rbmsg) (by omega)
        rw [hround] at ha
        refine iff_of_false (fun hall => ?_) fun hsized => ?_
        · have hin := hall a (by
            split
            · exact ha
            · split
              · exact ha
              · exact List.mem_append_left _ ha)
          omega
        · have := touched_le_of_tailSized hsized hne
          omega

/-- The parser touches the data and nothing behind it exactly if what is left behind whole payloads
is nothing, or the timestamp in host mode and the channel mask on the analog unit. -/
theorem parseRbmsg_inBounds_iff (device : FileDevice) (tsMode : TimestampMode)
    (bytes behind : List UInt8) (relativeTimeNs : UInt64) :
    (∀ a ∈ (device.parseRbmsg tsMode (bytes ++ behind) bytes.length relativeTimeNs).2,
        a.index < bytes.length) ↔
      ∀ (records : List (List UInt8)) (rest : List UInt8), (∀ r ∈ records, device.Regular r) →
        bytes = records.flatten ++ rest → rest = [] ∨ device.touched tsMode ≤ rest.length := by
  have hloop := @parseRbmsgLoop_inBounds_iff device tsMode
    (if tsMode = .host then relativeTimeNs / nsecPerUsec else 0) bytes.length 0 bytes.length
    (bytes ++ behind) (Nat.le_refl _) (by rw [List.length_append]; omega)
  rw [Nat.zero_add, slice_zero, List.take_left] at hloop
  exact hloop

/-- Five bytes of a CAN frame: the timestamp that the host stores has eight. -/
theorem parseRbmsg_outOfBounds :
    ¬ ∀ a ∈ (FileDevice.ep1Ch02a.parseRbmsg .host (List.replicate 5 0 ++ List.replicate 16 0xFF) 5
        1000).2, a.index < 5 := by
  decide

end FileDevice

end AptUsbtrx
