import AptUsbtrx.Model.IioBuffer
import AptUsbtrx.Shared.Execution
import AptUsbtrx.Verification.Stale.Independence

/-! # The samples of the IIO buffer

The copy and the push share a buffer: a push has the samples of its own message just when the message
has as many as there are channels. -/

namespace AptUsbtrx

open Memory Execution

namespace Ep1Ag08a

/-- The copy stays in the buffer, and the samples are those of the message. -/
structure Push.Exact (push : Push) : Prop where
  copied : ∀ size ∈ iioCopySize push.msg, 0 ≤ size ∧ size ≤ iioDataSize
  samples : push.samples = channelData push.msg

variable {msg : Msg} {priv : IioData} {dev : Dev UniqueData}

/-! ### The copy -/

/-- What is copied is never more than the buffer holds, and never negative. -/
theorem iioCopySize_bounds {size : ℤ} (h : size ∈ iioCopySize msg) :
    0 ≤ size ∧ size ≤ iioDataSize := by
  have hsize := msg.payloadSize.toNat_lt
  rw [iioCopySize, Option.mem_ite_none_right, Option.mem_some_iff] at h
  obtain ⟨hle, rfl⟩ := h
  simp only [iioDataSize, payloadDataOffset] at *
  omega

/-- The copy is one of that size. -/
theorem iioDataCopy_eq (msg : Msg) (priv : IioData) :
    iioDataCopy msg priv =
      match iioCopySize msg with
      | some size => { priv with
          buffer := overwrite priv.buffer 0 (slice msg.payload payloadDataOffset size.toNat) }
      | none => priv := by
  have hsize := msg.payloadSize.toNat_lt
  rw [iioDataCopy, iioCopySize]
  dsimp only
  by_cases hoffset : msg.payloadSize.toNat < payloadDataOffset
  · rw [if_pos hoffset, if_neg]
    simp only [payloadDataOffset, iioDataSize] at *
    omega
  · rw [if_neg hoffset]
    by_cases hle : msg.payloadSize.toNat - payloadDataOffset ≤ iioDataSize
    · rw [if_pos hle, if_pos]
      · rw [← Nat.cast_sub (Nat.le_of_not_lt hoffset)]
        rfl
      · simp only [payloadDataOffset, iioDataSize] at *
        omega
    · rw [if_neg hle, if_neg]
      simp only [payloadDataOffset, iioDataSize] at *
      omega

theorem length_iioDataCopy (msg : Msg) (priv : IioData) :
    (iioDataCopy msg priv).buffer.length = priv.buffer.length := by
  rw [iioDataCopy]
  dsimp only
  split_ifs
  · rfl
  · exact length_overwrite _ _ _
  · rfl

theorem length_channelData (h : msg.payloadSize.toNat ≤ maxPayload) :
    (channelData msg).length = msg.payloadSize.toNat - payloadDataOffset := by
  rw [channelData, length_slice, msg.payload_length]
  omega

/-- The buffer behind the copy starts with the samples of the message just when there are as many. -/
theorem take_iioDataCopy_iff (hsize : msg.payloadSize.toNat ≤ maxPayload)
    (hbuffer : priv.buffer.length = iioDataSize) {n : ℕ} (hn : n ≤ iioDataSize) :
    (iioDataCopy msg priv).buffer.take n = channelData msg ↔
      msg.payloadSize.toNat - payloadDataOffset = n := by
  have hlength := length_channelData hsize
  constructor
  · intro h
    rw [← hlength, ← h, List.length_take, length_iioDataCopy, hbuffer, Nat.min_eq_left hn]
  · rintro rfl
    rw [iioDataCopy]
    by_cases hoffset : msg.payloadSize.toNat < payloadDataOffset
    · rw [Nat.sub_eq_zero_of_le hoffset.le] at hlength ⊢
      rw [List.take_zero, List.length_eq_zero_iff.mp hlength]
    · dsimp only
      rw [if_neg hoffset, if_pos hn]
      have hle : (channelData msg).length ≤ priv.buffer.length := by
        rw [hlength, hbuffer]
        exact hn
      have htake := take_overwrite_zero hle
      rwa [hlength] at htake

/-! ### The messages -/

namespace IioSystem

/-- The message is pushed. -/
structure Notifies (dev : Dev UniqueData) (msg : Msg) : Prop where
  rxOngoing : dev.rxOngoing
  ifType : dev.uniqueData.ifType = .iio
  id : msg.id = cmdNotifyAnalogInput

/-- A message that is pushed gets as far as the dispatcher of the unit. -/
theorem dispatchMsg_of_notifies (timeNs : ℤ) (data : List UInt8) (h : Notifies dev msg) :
    (AptUsbtrx.dispatchMsg (dispatchMsg timeNs) dev data msg).1 =
      (dispatchMsg timeNs dev data msg).1 := by
  obtain ⟨hongoing, -, hid⟩ := h
  rw [AptUsbtrx.dispatchMsg, if_neg (not_not_intro hongoing), hid, if_neg (by decide),
    if_neg (by decide), if_neg (by decide)]
  dsimp only
  split <;> rfl

theorem iio_dispatchMsg_of_notifies (timeNs : ℤ) (data : List UInt8) (h : Notifies dev msg) :
    ∃ time, (AptUsbtrx.dispatchMsg (dispatchMsg timeNs) dev data msg).1.uniqueData.iio =
      { iioDataCopy msg dev.uniqueData.iio with
        pushed := dev.uniqueData.iio.pushed ++
          [((iioDataCopy msg dev.uniqueData.iio).buffer, time)] } := by
  rw [dispatchMsg_of_notifies timeNs data h, dispatchMsg_iio timeNs data h.id h.ifType]
  exact ⟨_, rfl⟩

/-- Only the dispatcher of the unit changes the data of the unit. -/
theorem uniqueData_dispatchMsg (timeNs : ℤ) (dev : Dev UniqueData) (data : List UInt8) (msg : Msg) :
    (AptUsbtrx.dispatchMsg (dispatchMsg timeNs) dev data msg).1.uniqueData = dev.uniqueData ∨
      dev.rxOngoing ∧ (AptUsbtrx.dispatchMsg (dispatchMsg timeNs) dev data msg).1.uniqueData =
        (dispatchMsg timeNs dev data msg).1.uniqueData := by
  rw [AptUsbtrx.dispatchMsg]
  by_cases hongoing : dev.rxOngoing
  · rw [if_neg (not_not_intro hongoing)]
    by_cases hstatus : msg.id = cmdNotifyBufferStatus
    · rw [if_pos hstatus]
      exact .inl rfl
    rw [if_neg hstatus]
    split
    · left
      split <;> rfl
    split
    · left
      dsimp only
      split_ifs <;> rfl
    · right
      refine ⟨hongoing, ?_⟩
      dsimp only
      split <;> rfl
  · rw [if_pos hongoing]
    exact .inl rfl

theorem iio_dispatchMsg_of_not_notifies (timeNs : ℤ) (data : List UInt8) (h : ¬ Notifies dev msg) :
    (AptUsbtrx.dispatchMsg (dispatchMsg timeNs) dev data msg).1.uniqueData.iio =
      dev.uniqueData.iio := by
  rcases uniqueData_dispatchMsg timeNs dev data msg with hdata | ⟨hongoing, hdata⟩
  · rw [hdata]
  · rw [hdata, dispatchMsg]
    by_cases hid : msg.id = cmdNotifyAnalogInput
    · have htype : dev.uniqueData.ifType ≠ .iio := fun htype => h ⟨hongoing, htype, hid⟩
      rw [if_pos hid, if_neg htype]
      split <;> rfl
    · rw [if_neg hid]
      split_ifs <;> rfl

/-- A message that is pushed has two bytes for each channel. -/
def HasSamples (s : IioSystem) : IioLabel → Prop
  | .dispatch _ _ msg => Notifies s.dev msg →
      msg.payloadSize.toNat - payloadDataOffset = 2 * s.scanMask.card
  | _ => True

/-- Every push so far was exact. -/
def Exact (s : IioSystem) : Prop := ∀ push ∈ s.log, push.Exact

/-- The size of the buffer. -/
def Sized (s : IioSystem) : Prop := s.dev.uniqueData.iio.buffer.length = iioDataSize

variable {s t : IioSystem} {l : IioLabel}

theorem pushes_of_notifies (timeNs : ℤ) (data : List UInt8) (h : Notifies s.dev msg) :
    s.pushes (AptUsbtrx.dispatchMsg (dispatchMsg timeNs) s.dev data msg).1 msg =
      [⟨msg, (iioDataCopy msg s.dev.uniqueData.iio).buffer.take (2 * s.scanMask.card)⟩] := by
  obtain ⟨time, hiio⟩ := iio_dispatchMsg_of_notifies timeNs data h
  rw [pushes, hiio, List.drop_left]
  rfl

theorem pushes_of_not_notifies (timeNs : ℤ) (data : List UInt8) (h : ¬ Notifies s.dev msg) :
    s.pushes (AptUsbtrx.dispatchMsg (dispatchMsg timeNs) s.dev data msg).1 msg = [] := by
  rw [pushes, iio_dispatchMsg_of_not_notifies timeNs data h, List.drop_length, List.map_nil]

theorem sized_step (hs : s.Sized) (h : s.step l = some t) : t.Sized := by
  cases l with
  | setIfType | setHwTimestamp | setScanMask =>
      cases h
      exact hs
  | storeTimestamp =>
      cases h
      exact (length_overwrite _ _ _).trans hs
  | dispatch timeNs data msg =>
      obtain ⟨-, ht⟩ := Option.ite_none_right_eq_some.mp h
      cases ht
      by_cases hnotifies : Notifies s.dev msg
      · obtain ⟨time, hiio⟩ := iio_dispatchMsg_of_notifies timeNs data hnotifies
        rw [Sized, hiio]
        exact (length_iioDataCopy msg s.dev.uniqueData.iio).trans hs
      · rw [Sized, iio_dispatchMsg_of_not_notifies timeNs data hnotifies]
        exact hs
  | other =>
      obtain ⟨hdata, ht⟩ := Option.ite_none_right_eq_some.mp h
      cases ht
      rw [Sized, hdata]
      exact hs

/-- The one step that pushes something. -/
theorem exact_step_iff (hs : s.Sized) (hexact : s.Exact) (h : s.step l = some t) :
    t.Exact ↔ s.HasSamples l := by
  cases l with
  | setIfType | setHwTimestamp | setScanMask | storeTimestamp =>
      cases h
      exact iff_of_true hexact trivial
  | dispatch timeNs data msg =>
      obtain ⟨hsize, ht⟩ := Option.ite_none_right_eq_some.mp h
      cases ht
      by_cases hnotifies : Notifies s.dev msg
      · have hmask : 2 * s.scanMask.card ≤ iioDataSize := by
          have hcard := Finset.card_le_univ s.scanMask
          rw [Fintype.card_fin] at hcard
          rw [iioDataSize]
          omega
        rw [Exact, HasSamples, pushes_of_notifies timeNs data hnotifies,
          ← take_iioDataCopy_iff hsize hs hmask, forall_prop_of_true hnotifies]
        constructor
        · intro hall
          exact (hall _ (List.mem_append_right _ List.mem_cons_self)).samples
        · intro hsamples push hpush
          rcases List.mem_append.mp hpush with hpush | hpush
          · exact hexact push hpush
          · obtain rfl := List.mem_singleton.mp hpush
            exact ⟨fun _ => iioCopySize_bounds, hsamples⟩
      · rw [Exact, HasSamples, pushes_of_not_notifies timeNs data hnotifies, List.append_nil]
        exact iff_of_true hexact fun hn => absurd hn hnotifies
  | other =>
      obtain ⟨-, ht⟩ := Option.ite_none_right_eq_some.mp h
      cases ht
      exact iff_of_true hexact trivial

/-- The pushes of a run are exact just when its messages have as many samples as there are
channels. -/
theorem pushes_exact_iff {rxDataAddr txDataAddr : ℕ} {time : Timespec64} {ls : List IioLabel}
    (h : exec step (initial rxDataAddr txDataAddr time) ls = some t) :
    (∀ ks u, ks <+: ls → exec step (initial rxDataAddr txDataAddr time) ks = some u → u.Exact) ↔
      AllSteps step HasSamples (initial rxDataAddr txDataAddr time) ls :=
  allSteps_iff_forall_prefix (I := Sized) (fun _ _ _ hs hstep => sized_step hs hstep)
    (fun _ _ _ hs hexact hstep => exact_step_iff hs hexact hstep) (List.length_replicate)
    (fun _ hpush => nomatch hpush) h

/-! ### A run -/

/-- A notification with these samples. -/
def notification (samples : List UInt8) (h : samples.length ≤ 69) : Msg where
  id := cmdNotifyAnalogInput
  payload := List.replicate 8 0 ++ [0xFF] ++ samples ++ List.replicate (69 - samples.length) 0
  payloadSize := UInt8.ofNat (9 + samples.length)
  payload_length := by simp [maxPayload]; omega

/-- All channels are selected; sixteen bytes of samples come, then the given ones. -/
def twoNotifications (samples : List UInt8) (h : samples.length ≤ 69) : List IioLabel :=
  [.setScanMask Finset.univ, .setIfType .iio,
    .dispatch 0 [] (notification (List.replicate 16 0x11) (by decide)),
    .dispatch 0 [] (notification samples h)]

theorem pushes_exact_iff_twice :
    (∀ ks u, ks <+: twoNotifications (List.replicate 16 0x22) (by decide) →
      exec step (initial 0x10000000 0x20000000 ⟨0, 0⟩) ks = some u → u.Exact) ↔
      AllSteps step HasSamples (initial 0x10000000 0x20000000 ⟨0, 0⟩)
        (twoNotifications (List.replicate 16 0x22) (by decide)) :=
  pushes_exact_iff rfl

/-- Twenty-six bytes are not copied; what is pushed are the samples before. -/
theorem not_exact_overlong :
    ∃ s, exec step (initial 0x10000000 0x20000000 ⟨0, 0⟩)
        (twoNotifications (List.replicate 26 0x22) (by decide)) = some s ∧
      ∃ push ∈ s.log, push.msg = notification (List.replicate 26 0x22) (by decide) ∧
        push.samples = List.replicate 16 0x11 ∧ ¬ push.Exact := by
  refine ⟨_, rfl, ⟨notification (List.replicate 26 0x22) (by decide), List.replicate 16 0x11⟩,
    ?_, rfl, rfl, ?_⟩
  · decide
  · intro h
    exact absurd h.samples (by decide)

end IioSystem

end Ep1Ag08a

end AptUsbtrx
