import AptUsbtrx.Verification.Read.Modes
import AptUsbtrx.Verification.Ringbuffer.Bounds

/-! # Reads that fail

A read that fails when there was data leaves the data in the ring in device mode only: in host
mode the data leave the ring before they are parsed and copied. -/

namespace AptUsbtrx

open Memory

variable {υ : Type} {func : UniqueFunction} {copyToUser : ℕ → ℕ → Bool} {rbmsgAddr : ℕ}
  {dev dev' : Dev υ} {buffer count : ℕ} {relativeTimeNs : UInt64} {interrupted : Bool}
  {result : FileRead}

/-- A read of the ring that fails leaves it as it is. -/
theorem ringbufferReadWith_of_neg {copy : ℕ → ℕ → Bool} {ring : Ringbuffer} {size : ℕ}
    (h : (ringbufferReadWith copy ring buffer size).ret < 0) :
    (ringbufferReadWith copy ring buffer size).ring = ring := by
  have hnat (n : ℕ) : ¬ (n : ℤ) < 0 := Int.not_lt.mpr (Int.natCast_nonneg n)
  have hrun := ringbufferReadWith_readRun copy ring buffer size
  generalize ringbufferReadWith copy ring buffer size = result at h hrun ⊢
  generalize ringbufferReadCopies copy ring buffer size = copies at hrun
  cases hrun with
  | noBuffer | nothing | blockFailed | secondFailed => rfl
  | block n => exact absurd h (hnat n)
  | around first second => exact absurd h (hnat _)

theorem read_error_device (hopening : dev.onopening = false) (hclosing : dev.onclosing = false)
    (hw : dev.rxData.Wf) (hne : dev.rxData.queue ≠ []) (hmode : dev.timestampMode = .device)
    (hread : read func copyToUser rbmsgAddr dev buffer count relativeTimeNs interrupted =
      some (result, dev')) (herror : result.ret < 0) : dev'.rxData = dev.rxData := by
  have henabled := (isReadEnable_iff hclosing hw).mpr hne
  rw [read, hopening, if_neg Bool.false_ne_true, hclosing, if_neg Bool.false_ne_true, henabled,
    if_neg (by decide), if_pos hmode] at hread
  dsimp only at hread
  split at hread
  case isTrue hneg =>
    cases hread
    exact ringbufferReadWith_of_neg hneg
  case isFalse hnonneg =>
    cases hread
    exact absurd herror hnonneg

/-- In host mode a read that fails has taken bytes from the ring. -/
theorem read_error_host (hopening : dev.onopening = false) (hclosing : dev.onclosing = false)
    (hw : dev.rxData.Wf) (hroom : dev.rxData.endPtr + dev.rxData.bufferSize < 2 ^ 64)
    (haddr : rbmsgAddr ≠ 0) (hne : dev.rxData.queue ≠ []) (hmode : dev.timestampMode = .host)
    (hread : read func copyToUser rbmsgAddr dev buffer count relativeTimeNs interrupted =
      some (result, dev')) (herror : result.ret < 0) :
    0 < count ∧ dev'.rxData.queue = dev.rxData.queue.drop count := by
  have hlen := Ringbuffer.length_queue_le hw
  have hlenpos := List.length_pos_of_ne_nil hne
  obtain ⟨n, hn⟩ : ∃ n, n = min count dev.rxData.queue.length := ⟨_, rfl⟩
  rcases Nat.eq_zero_or_pos n with hzero | hpos
  · -- nothing is read, and nothing can fail
    have henabled := (isReadEnable_iff hclosing hw).mpr hne
    have hsize : (if ringbufferGetUsedSize dev.rxData > count then count
        else ringbufferGetUsedSize dev.rxData) = 0 := by
      rw [ringbufferGetUsedSize_eq hw, if_pos (by omega)]
      omega
    rw [read, hopening, if_neg Bool.false_ne_true, hclosing, if_neg Bool.false_ne_true, henabled,
      if_neg (by decide), hmode, if_neg (by decide)] at hread
    dsimp only at hread
    rw [hsize, ringbufferRawread, ringbufferReadWith, if_neg haddr, if_pos rfl] at hread
    cases hread
    cases herror
  · obtain ⟨⟨parsed, rbmsg⟩, hparse⟩ : ∃ p, parseRbmsg func .host
        (overwrite dev.rxRbmsg 0 (dev.rxData.queue.take n)) n relativeTimeNs = p := ⟨_, rfl⟩
    obtain ⟨ring, hremoved, heq⟩ := read_host_eq func rbmsgAddr hopening hclosing buffer
      relativeTimeNs interrupted hw haddr hmode hne hn (by omega) hpos hparse
    rw [heq] at hread
    cases hread
    exact ⟨by omega, hremoved.queue⟩

/-- A read that fails when there was data leaves the contents of the ring as they are exactly in
device mode, whatever the kind of device, the count and the reason. -/
theorem read_error_keeps_iff (hopening : dev.onopening = false) (hclosing : dev.onclosing = false)
    (hw : dev.rxData.Wf) (hroom : dev.rxData.endPtr + dev.rxData.bufferSize < 2 ^ 64)
    (haddr : rbmsgAddr ≠ 0) (hne : dev.rxData.queue ≠ [])
    (hread : read func copyToUser rbmsgAddr dev buffer count relativeTimeNs interrupted =
      some (result, dev')) (herror : result.ret < 0) :
    dev'.rxData.queue = dev.rxData.queue ↔ dev.timestampMode = .device := by
  cases hmode : dev.timestampMode with
  | device =>
      rw [read_error_device hopening hclosing hw hne hmode hread herror]
      simp
  | host =>
      obtain ⟨hpos, hqueue⟩ :=
        read_error_host hopening hclosing hw hroom haddr hne hmode hread herror
      refine iff_of_false (fun hsame => ?_) (by simp)
      have hlenpos := List.length_pos_of_ne_nil hne
      have hlength := congrArg List.length (hqueue.symm.trans hsame)
      rw [List.length_drop] at hlength
      omega

/-- An EP1-CH02A with one record to read. -/
def loaded (mode : TimestampMode) : Dev Unit :=
  { ReadSystem.ep1Ch02a with
    rxData := (ringbufferWrite (ringbufferInit 0x1000 64) ReadSystem.canRecord 21).2
    timestampMode := mode }

theorem wf_loaded (mode : TimestampMode) : (loaded mode).rxData.Wf :=
  wf_ringbufferWrite (wf_ringbufferInit (by decide) (by decide))
    (show 0x1000 + ReadSystem.canRecord.length < 2 ^ 64 by decide)

/-- The copy to the application fails in device mode. -/
theorem read_error_keeps_iff_device :
    ∃ result dev', read uniqueCan (fun _ _ => false) 0x4000 (loaded .device) 0x8000 21 0 false =
        some (result, dev') ∧ result.ret < 0 ∧
      dev'.rxData.queue = (loaded .device).rxData.queue := by
  have hret : (read uniqueCan (fun _ _ => false) 0x4000 (loaded .device) 0x8000 21 0 false).map
      (fun r => r.1.ret) = some (-eio) := by decide
  obtain ⟨⟨result, dev'⟩, hread, herror⟩ := Option.map_eq_some_iff.mp hret
  have hneg : result.ret < 0 := by
    rw [show result.ret = -eio from herror]
    decide
  exact ⟨result, dev', hread, hneg, (read_error_keeps_iff rfl rfl (wf_loaded _) (by decide)
    (by decide) (by decide) hread hneg).mpr rfl⟩

/-- The same failure in host mode loses the record. -/
theorem read_error_loses_record :
    ¬ ∀ (func : UniqueFunction) (copyToUser : ℕ → ℕ → Bool) (rbmsgAddr : ℕ) (dev dev' : Dev Unit)
        (buffer count : ℕ) (relativeTimeNs : UInt64) (interrupted : Bool) (result : FileRead),
      dev.onopening = false → dev.onclosing = false → dev.rxData.Wf → rbmsgAddr ≠ 0 →
        dev.rxData.queue ≠ [] →
        read func copyToUser rbmsgAddr dev buffer count relativeTimeNs interrupted =
          some (result, dev') → result.ret < 0 → dev'.rxData.queue = dev.rxData.queue := by
  intro h
  have hrun : (read uniqueCan (fun _ _ => false) 0x4000 (loaded .host) 0x8000 21 0 false).map
      (fun r => (r.1.ret, r.2.rxData.queue)) = some (-eio, []) := by decide
  obtain ⟨⟨result, dev'⟩, hread, heq⟩ := Option.map_eq_some_iff.mp hrun
  obtain ⟨herror, hempty⟩ := Prod.mk.inj heq
  have hneg : result.ret < 0 := by
    rw [show result.ret = -eio from herror]
    decide
  have hkept := h _ _ _ _ _ _ _ _ _ _ rfl rfl (wf_loaded .host) (by decide) (by decide) hread hneg
  rw [show dev'.rxData.queue = [] from hempty] at hkept
  revert hkept
  decide

end AptUsbtrx
