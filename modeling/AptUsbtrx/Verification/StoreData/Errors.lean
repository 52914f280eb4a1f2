import AptUsbtrx.Verification.Read.Errors
import AptUsbtrx.Verification.StoreData.Progress

/-! # Reads of stored data that fail

A `READ_STORE_DATA` that nothing else runs across is an execution of the transfer. It leaves the
ring and the received size as they are when it fails before it takes bytes out. -/

namespace AptUsbtrx

open Memory Execution

namespace Ep1Cf02a

/-- The steps of an ioctl behind its call. -/
def StoreLabel.OfIoctl : StoreLabel → Prop
  | .wake _ | .ringRead _ | .tau | .send _ | .ack .. => True
  | _ => False

namespace StoreSystem

/-! ### The ioctl in the transfer -/

variable {copyToUser : ℕ → ℕ → Bool} {s u v : StoreSystem} {buffer count : ℕ}
  {result : IoctlResult × Dev UniqueData}

/-- The ioctl can go on from `s` without any other step and return with `result`. -/
def Ends (copyToUser : ℕ → ℕ → Bool) (s : StoreSystem) (result : IoctlResult × Dev UniqueData) :
    Prop :=
  CanReach (step copyToUser) StoreLabel.OfIoctl
    (fun t => t.pc = .idle ∧ t.results = s.results ++ [result.1] ∧ t.dev = result.2) s

theorem Ends.of_step (h : Ends copyToUser v result) {l : StoreLabel}
    (hstep : u.step copyToUser l = some v) (hl : l.OfIoctl) (hresults : v.results = u.results) :
    Ends copyToUser u result := by
  rw [Ends, hresults] at h
  exact CanReach.of_step h hstep hl

/-- The step in which the ioctl returns. -/
theorem ends_of_ret {l : StoreLabel} {ret : ℤ} {out : List UInt8}
    (hstep : u.step copyToUser l = some (v.ret ret out)) (hl : l.OfIoctl)
    (hresults : v.results = u.results) : Ends copyToUser u (⟨ret, out⟩, v.dev) :=
  (canReach_self ⟨rfl, hresults ▸ rfl, rfl⟩).of_step hstep hl

theorem ends_request {rsize : ℤ} {out : List UInt8} (hpc : s.pc = .request rsize out)
    (answer : Result) (success : Bool) :
    Ends copyToUser s (if answer ≠ .success then (⟨-eio, out⟩, s.dev) else
      if success ≠ true then (⟨-eio, out⟩, s.dev) else (⟨rsize, out⟩, s.dev)) := by
  have hsend : s.step copyToUser (.send true) =
      some ((s.take true).setPc (.requestAck true rsize out)) := by
    simp only [step, hpc]
  have hack : ((s.take true).setPc (.requestAck true rsize out)).step copyToUser
      (.ack answer success) = some (((s.take true).setPc (.requestAck true rsize out)).ret
        (if answer = .success ∧ success = true then rsize else -eio) out) :=
    if_pos fun _ => rfl
  have hend := (ends_of_ret hack trivial rfl).of_step hsend trivial rfl
  by_cases hanswer : answer = .success
  · by_cases hsuccess : success = true
    · rw [if_pos ⟨hanswer, hsuccess⟩] at hend
      rwa [if_neg (not_not_intro hanswer), if_neg (not_not_intro hsuccess)]
    · rw [if_neg fun h => hsuccess h.2] at hend
      rwa [if_neg (not_not_intro hanswer), if_pos hsuccess]
  · rw [if_neg fun h => hanswer h.1] at hend
    rwa [if_pos hanswer]

theorem ends_checkComplete {rsize : ℤ} {out : List UInt8} (hpc : s.pc = .checkComplete rsize out)
    (answers : ReadStoreAnswers) :
    Ends copyToUser s (requestNextBatch s.dev rsize out answers) := by
  have hcheck : s.step copyToUser .tau =
      if s.isComplete = false then some (s.setPc (.checkEmpty rsize out))
      else some (s.ret rsize out) := by
    simp only [step, StoreSystem.tau, hpc]
    rfl
  have hempty : (s.setPc (.checkEmpty rsize out)).step copyToUser .tau =
      if ringbufferIsEmpty s.ring = true then some (s.setPc (.reset rsize out))
      else some ((s.setPc (.checkEmpty rsize out)).ret rsize out) := rfl
  rw [requestNextBatch]
  by_cases hcomplete : s.isComplete = false
  · rw [if_pos hcomplete] at hcheck
    by_cases hdrained : ringbufferIsEmpty s.ring = true
    · -- the counter is reset in front of the request
      rw [if_pos hdrained] at hempty
      rw [if_pos ⟨hcomplete, hdrained⟩]
      have hreset : (s.setPc (.reset rsize out)).step copyToUser .tau =
          some ((s.setUniqueData { s.dev.uniqueData with receivedStoreDataSize := 0 }).setPc
            (.request rsize out)) := rfl
      exact (((ends_request rfl answers.result answers.success).of_step hreset trivial
        rfl).of_step hempty trivial rfl).of_step hcheck trivial rfl
    · rw [if_neg hdrained] at hempty
      rw [if_neg fun h => hdrained h.2]
      exact (ends_of_ret hempty trivial rfl).of_step hcheck trivial rfl
  · rw [if_neg hcomplete] at hcheck
    rw [if_neg fun h => hcomplete h.1]
    exact ends_of_ret hcheck trivial rfl

theorem ends_ringRead (hpc : s.pc = .ringRead buffer count) (answers : ReadStoreAnswers) :
    Ends copyToUser s (readStoreDataRing copyToUser s.dev buffer count answers) := by
  have hread : s.step copyToUser (.ringRead answers.copiedCount) =
      some (s.readRing copyToUser buffer count answers.copiedCount) := by
    simp only [step, hpc]
  rw [readRing] at hread
  rw [readStoreDataRing]
  dsimp only at hread ⊢
  by_cases hclosing : s.dev.onclosing = true
  · rw [if_pos hclosing] at hread ⊢
    exact ends_of_ret hread trivial rfl
  rw [if_neg hclosing] at hread ⊢
  by_cases herror : (ringbufferRead copyToUser s.dev.uniqueData.rxStoreData buffer count).ret < 0
  · rw [if_pos herror] at hread ⊢
    exact ends_of_ret hread trivial rfl
  rw [if_neg herror] at hread ⊢
  by_cases hcopied : answers.copiedCount = true
  · rw [if_pos hcopied] at hread
    rw [if_neg (not_not_intro hcopied)]
    exact (ends_checkComplete rfl answers).of_step hread trivial rfl
  · rw [if_neg hcopied] at hread
    rw [if_pos hcopied]
    exact ends_of_ret hread trivial rfl

theorem ends_wait (hpc : s.pc = .wait buffer count) (answers : ReadStoreAnswers) :
    Ends copyToUser s (if rxStoreDataIsReadEnable s.dev = false then
        (⟨if answers.interrupted then -erestartsys else 0, []⟩, s.dev)
      else readStoreDataRing copyToUser s.dev buffer count answers) := by
  by_cases henabled : rxStoreDataIsReadEnable s.dev = false
  · rw [if_pos henabled]
    cases hsignal : answers.interrupted
    · have hwake : s.step copyToUser (.wake .timeout) = some (s.ret 0 []) := by
        simp [step, hpc, henabled]
      exact ends_of_ret hwake trivial rfl
    · have hwake : s.step copyToUser (.wake .interrupted) = some (s.ret (-erestartsys) []) := by
        simp [step, hpc, henabled]
      exact ends_of_ret hwake trivial rfl
  · rw [if_neg henabled]
    have hwake : s.step copyToUser (.wake .enabled) = some (s.setPc (.ringRead buffer count)) := by
      simp [step, hpc, henabled]
    exact (ends_ringRead (s := s.setPc (.ringRead buffer count)) rfl answers).of_step hwake trivial
      rfl

/-- An ioctl that nothing else runs across is an execution of the transfer. -/
theorem exec_ioctlReadStoreData (copyToUser : ℕ → ℕ → Bool) (hpc : s.pc = .idle)
    (hstarted : s.started = true) (buffer : ℕ) (hcount : count < 2 ^ 64)
    (answers : ReadStoreAnswers) :
    ∃ ls t, (∀ l ∈ ls, l.OfIoctl) ∧
      exec (step copyToUser) s
        (.readStoreData buffer count (answers.copiedFrom && answers.copiedTo) :: ls) = some t ∧
      t.pc = .idle ∧
      t.results = s.results ++ [(ioctlReadStoreData copyToUser s.dev buffer count answers).1] ∧
      t.dev = (ioctlReadStoreData copyToUser s.dev buffer count answers).2 := by
  have hguard : s.pc = .idle ∧ s.started = true ∧ count < 2 ^ 64 := ⟨hpc, hstarted, hcount⟩
  simp only [exec_cons, step, if_pos hguard, ioctlReadStoreData]
  cases answers.copiedFrom
  · exact ⟨[], s.ret (-efault) [], by simp, rfl, rfl, rfl, rfl⟩
  cases answers.copiedTo
  · exact ⟨[], s.ret (-efault) [], by simp, rfl, rfl, rfl, rfl⟩
  cases hopening : s.dev.onopening
  case true => exact ⟨[], s.ret (-enodev) [], by simp, rfl, rfl, rfl, rfl⟩
  cases hclosing : s.dev.onclosing
  case true => exact ⟨[], s.ret (-eshutdown) [], by simp, rfl, rfl, rfl, rfl⟩
  obtain ⟨ls, t, hls, hexec, hend⟩ : Ends copyToUser (s.setPc (.wait buffer count)) _ :=
    ends_wait rfl answers
  exact ⟨ls, t, hls, hexec, hend⟩

end StoreSystem

/-! ### What a read that fails leaves -/

variable {copyToUser : ℕ → ℕ → Bool} {dev : Dev UniqueData} {buffer count : ℕ}
  {answers : ReadStoreAnswers}

/-- The bytes that are stored and the count of them are as before. -/
structure StoreKept (dev dev' : Dev UniqueData) : Prop where
  queue : dev'.uniqueData.rxStoreData.queue = dev.uniqueData.rxStoreData.queue
  received : dev'.uniqueData.receivedStoreDataSize = dev.uniqueData.receivedStoreDataSize

theorem StoreKept.refl (dev : Dev UniqueData) : StoreKept dev dev := ⟨rfl, rfl⟩

/-- The ioctl gets to the ring, and the copies of its bytes succeed. -/
structure TakesBytes (copyToUser : ℕ → ℕ → Bool) (dev : Dev UniqueData) (buffer count : ℕ)
    (answers : ReadStoreAnswers) : Prop where
  copiedFrom : answers.copiedFrom = true
  copiedTo : answers.copiedTo = true
  onopening : dev.onopening = false
  onclosing : dev.onclosing = false
  enabled : rxStoreDataIsReadEnable dev = true
  buffer_ne : buffer ≠ 0
  copies : ∀ c ∈ ringbufferReadCopies copyToUser dev.uniqueData.rxStoreData buffer count,
    copyToUser c.dst c.size = true

/-- What comes behind the bytes does not fail, or finds nothing to lose. -/
structure LosesNothing (dev : Dev UniqueData) (count : ℕ) (answers : ReadStoreAnswers) : Prop where
  copiedCount : answers.copiedCount = false → count = 0 ∨ dev.uniqueData.rxStoreData.queue = []
  request : answers.copiedCount = true →
    dev.uniqueData.notifyStoreDataRecvCanFrameComplete = false →
    dev.uniqueData.rxStoreData.queue.length ≤ count →
    answers.result = .success ∧ answers.success = true ∨
      dev.uniqueData.rxStoreData.queue = [] ∧ dev.uniqueData.receivedStoreDataSize = 0

theorem requestNextBatch_kept_iff {dev' : Dev UniqueData} {rsize : ℤ} (hrsize : 0 ≤ rsize)
    {out : List UInt8} (hw : dev'.uniqueData.rxStoreData.Wf) :
    ((requestNextBatch dev' rsize out answers).1.ret < 0 →
        StoreKept dev (requestNextBatch dev' rsize out answers).2) ↔
      (dev'.uniqueData.notifyStoreDataRecvCanFrameComplete = false →
        dev'.uniqueData.rxStoreData.queue = [] →
        answers.result = .success ∧ answers.success = true ∨
          dev.uniqueData.rxStoreData.queue = [] ∧ dev.uniqueData.receivedStoreDataSize = 0) := by
  have herror : -eio < 0 := by decide
  have hnot : ¬ rsize < 0 := Int.not_lt.mpr hrsize
  have hdrained := ringbufferIsEmpty_iff hw
  rw [requestNextBatch]
  by_cases hguard : dev'.uniqueData.notifyStoreDataRecvCanFrameComplete = false ∧
      ringbufferIsEmpty dev'.uniqueData.rxStoreData = true
  · have hnil := hdrained.mp hguard.2
    rw [if_pos hguard]
    dsimp only
    by_cases hanswer : answers.result = .success ∧ answers.success = true
    · rw [if_neg (not_not_intro hanswer.1), if_neg (not_not_intro hanswer.2)]
      exact iff_of_true (fun h => absurd h hnot) fun _ _ => .inl hanswer
    · -- the request fails behind the reset
      have hkept : StoreKept dev { dev' with
          uniqueData := { dev'.uniqueData with receivedStoreDataSize := 0 } } ↔
          dev.uniqueData.rxStoreData.queue = [] ∧ dev.uniqueData.receivedStoreDataSize = 0 :=
        ⟨fun h => ⟨h.queue.symm.trans hnil, h.received.symm⟩,
          fun h => ⟨hnil.trans h.1.symm, h.2.symm⟩⟩
      by_cases hresult : answers.result = .success
      · rw [if_neg (not_not_intro hresult), if_pos fun h => hanswer ⟨hresult, h⟩]
        exact ⟨fun h _ _ => .inr (hkept.mp (h herror)),
          fun h _ => hkept.mpr ((h hguard.1 hnil).resolve_left hanswer)⟩
      · rw [if_pos hresult]
        exact ⟨fun h _ _ => .inr (hkept.mp (h herror)),
          fun h _ => hkept.mpr ((h hguard.1 hnil).resolve_left hanswer)⟩
  · rw [if_neg hguard]
    exact iff_of_true (fun h => absurd h hnot) fun hcomplete hempty =>
      absurd ⟨hcomplete, hdrained.mpr hempty⟩ hguard

theorem readStoreDataRing_kept_iff (hclosing : dev.onclosing = false) {r : ReadResult}
    (hread : ringbufferRead copyToUser dev.uniqueData.rxStoreData buffer count = r)
    (hspec : ReadSpec dev.uniqueData.rxStoreData count r) :
    ((readStoreDataRing copyToUser dev buffer count answers).1.ret < 0 →
        StoreKept dev (readStoreDataRing copyToUser dev buffer count answers).2) ↔
      LosesNothing dev count answers := by
  have hret : 0 ≤ r.ret := by
    rw [hspec.ret]
    exact Int.natCast_nonneg _
  have hqueue := hspec.removed.queue
  rw [readStoreDataRing, hclosing, if_neg Bool.false_ne_true]
  dsimp only
  rw [hread, if_neg (Int.not_lt.mpr hret)]
  cases hcopied : answers.copiedCount with
  | false =>
      -- the bytes are out of the ring
      rw [if_pos Bool.false_ne_true]
      have herror : -efault < 0 := by decide
      have hdrop : dev.uniqueData.rxStoreData.queue.drop count = dev.uniqueData.rxStoreData.queue ↔
          count = 0 ∨ dev.uniqueData.rxStoreData.queue = [] := by
        refine ⟨fun h => ?_, ?_⟩
        · have hlength := congrArg List.length h
          rw [List.length_drop] at hlength
          rcases Nat.eq_zero_or_pos count with hzero | hpos
          · exact .inl hzero
          · exact .inr (List.length_eq_zero_iff.mp (by omega))
        · rintro (rfl | hnil)
          · exact List.drop_zero
          · rw [hnil, List.drop_nil]
      refine ⟨fun h => ⟨fun _ => hdrop.mp ?_, by simp [hcopied]⟩, fun h _ => ⟨?_, rfl⟩⟩
      · exact hqueue.symm.trans (h herror).queue
      · exact hqueue.trans (hdrop.mpr (h.copiedCount hcopied))
  | true =>
      rw [if_neg (not_not_intro rfl), requestNextBatch_kept_iff hret hspec.removed.wf]
      have hdrained : r.ring.queue = [] ↔ dev.uniqueData.rxStoreData.queue.length ≤ count := by
        rw [hqueue, List.drop_eq_nil_iff]
      refine ⟨fun h => ⟨by simp [hcopied], fun _ hcomplete hlength => ?_⟩,
        fun h hcomplete hempty => ?_⟩
      · exact h hcomplete (hdrained.mpr hlength)
      · exact h.request hcopied hcomplete (hdrained.mp hempty)

/-- The ioctl returns in front of the ring, or it is for the ring to tell whether it takes bytes. -/
theorem ioctlReadStoreData_cases (copyToUser : ℕ → ℕ → Bool) (dev : Dev UniqueData)
    (buffer count : ℕ) (answers : ReadStoreAnswers) :
    ¬ TakesBytes copyToUser dev buffer count answers ∧
        (ioctlReadStoreData copyToUser dev buffer count answers).2 = dev ∨
      (TakesBytes copyToUser dev buffer count answers ↔
        0 ≤ (ringbufferRead copyToUser dev.uniqueData.rxStoreData buffer count).ret) ∧
      dev.onclosing = false ∧
      ioctlReadStoreData copyToUser dev buffer count answers =
        readStoreDataRing copyToUser dev buffer count answers := by
  rw [ioctlReadStoreData]
  by_cases hfrom : answers.copiedFrom = true
  case neg =>
    rw [if_pos hfrom]
    exact .inl ⟨fun h => hfrom h.copiedFrom, rfl⟩
  by_cases hto : answers.copiedTo = true
  case neg =>
    rw [if_neg (not_not_intro hfrom), if_pos hto]
    exact .inl ⟨fun h => hto h.copiedTo, rfl⟩
  rw [if_neg (not_not_intro hfrom), if_neg (not_not_intro hto)]
  by_cases hopening : dev.onopening = true
  case pos =>
    rw [if_pos hopening]
    exact .inl ⟨fun h => Bool.false_ne_true (h.onopening.symm.trans hopening), rfl⟩
  by_cases hclosing : dev.onclosing = true
  case pos =>
    rw [if_neg hopening, if_pos hclosing]
    exact .inl ⟨fun h => Bool.false_ne_true (h.onclosing.symm.trans hclosing), rfl⟩
  rw [if_neg hopening, if_neg hclosing]
  by_cases henabled : rxStoreDataIsReadEnable dev = true
  case neg =>
    rw [if_pos (Bool.not_eq_true _ ▸ henabled)]
    exact .inl ⟨fun h => henabled h.enabled, rfl⟩
  rw [henabled, if_neg Bool.true_eq_false_eq_False]
  rw [Bool.not_eq_true] at hopening hclosing
  have hret := ringbufferReadWith_ret_nonneg_iff copyToUser dev.uniqueData.rxStoreData buffer count
  refine .inr ⟨⟨fun h => hret.mpr ⟨h.buffer_ne, h.copies⟩, fun h => ?_⟩, hclosing, rfl⟩
  obtain ⟨hbuffer, hcopies⟩ := hret.mp h
  exact ⟨hfrom, hto, hopening, hclosing, henabled, hbuffer, hcopies⟩

/-- A read that fails leaves what is stored and the count of it as they are exactly if it takes
no bytes, or nothing behind the bytes fails that had something to lose. -/
theorem ioctlReadStoreData_error_keeps_iff (hw : dev.uniqueData.rxStoreData.Wf)
    (hroom : dev.uniqueData.rxStoreData.endPtr + 2 ^ 31 ≤ 2 ^ 64)
    (hcopy : ∀ dst n, copyToUser dst n = true → n < 2 ^ 31) (hcount : count < 2 ^ 64) :
    ((ioctlReadStoreData copyToUser dev buffer count answers).1.ret < 0 →
        StoreKept dev (ioctlReadStoreData copyToUser dev buffer count answers).2) ↔
      (TakesBytes copyToUser dev buffer count answers → LosesNothing dev count answers) := by
  rcases ioctlReadStoreData_cases copyToUser dev buffer count answers with
    ⟨hnot, hdev⟩ | ⟨htakes, hclosing, hring⟩
  · rw [hdev]
    exact iff_of_true (fun _ => .refl dev) fun h => absurd h hnot
  rw [hring, htakes]
  rcases ringbufferReadWith_of_bounded hw hroom hcopy buffer hcount with hspec | ⟨hret, hsame⟩
  · have hnonneg : 0 ≤ (ringbufferRead copyToUser dev.uniqueData.rxStoreData buffer count).ret :=
      hspec.ret ▸ Int.natCast_nonneg _
    rw [readStoreDataRing_kept_iff hclosing rfl hspec]
    exact ⟨fun h _ => h, fun h => h hnonneg⟩
  · -- a copy fails and the ring stays as it is
    have hneg : (ringbufferRead copyToUser dev.uniqueData.rxStoreData buffer count).ret < 0 := by
      rw [ringbufferRead, hret]
      decide
    rw [readStoreDataRing, hclosing, if_neg Bool.false_ne_true]
    dsimp only
    rw [if_pos hneg]
    exact iff_of_true (fun _ => ⟨congrArg Ringbuffer.queue hsame, rfl⟩)
      fun h => absurd h (Int.not_le.mpr hneg)

/-- The device has sent its only stored frame. -/
def lastStored : Dev UniqueData :=
  { opened with
    uniqueData := { opened.uniqueData with
      rxStoreData := (ringbufferWrite opened.uniqueData.rxStoreData (List.replicate 78 7) 78).2
      receivedStoreDataSize := 78
      notifyStoreDataRecvCanFrameComplete := true } }

theorem written_lastStored : Written opened.uniqueData.rxStoreData (List.replicate 78 7)
    lastStored.uniqueData.rxStoreData :=
  (ringbufferWrite_of_fits storeReady_opened.wf rfl (by decide) (fits_of_lt (by decide))).2

theorem room_lastStored : lastStored.uniqueData.rxStoreData.endPtr + 2 ^ 31 ≤ 2 ^ 64 := by
  have h := written_lastStored
  rw [h.wf.end_eq, h.beginPtr, h.bufferSize, ← storeReady_opened.wf.end_eq]
  exact storeReady_opened.room

/-- The application has no buffer. -/
theorem ioctlReadStoreData_error_keeps_iff_lastStored :
    (ioctlReadStoreData copyUpToIntMax lastStored 0 78
        ⟨true, true, false, true, .success, true⟩).1.ret < 0 ∧
      StoreKept lastStored (ioctlReadStoreData copyUpToIntMax lastStored 0 78
        ⟨true, true, false, true, .success, true⟩).2 := by
  have herror : (ioctlReadStoreData copyUpToIntMax lastStored 0 78
      ⟨true, true, false, true, .success, true⟩).1.ret < 0 := by decide
  refine ⟨herror, (ioctlReadStoreData_error_keeps_iff written_lastStored.wf room_lastStored
    (fun _ _ => lt_of_copyUpToIntMax) (by decide)).mpr (fun h => ?_) herror⟩
  exact absurd rfl h.buffer_ne

/-- The copy of the count fails behind the copy of the frame, and the frame is lost. -/
theorem ioctlReadStoreData_error_loses_frame :
    ¬ ∀ (copyToUser : ℕ → ℕ → Bool) (dev : Dev UniqueData) (buffer count : ℕ)
        (answers : ReadStoreAnswers), dev.uniqueData.rxStoreData.Wf →
        (ioctlReadStoreData copyToUser dev buffer count answers).1.ret < 0 →
        StoreKept dev (ioctlReadStoreData copyToUser dev buffer count answers).2 := by
  intro h
  obtain ⟨answers, hanswers⟩ : ∃ answers : ReadStoreAnswers,
      answers = ⟨true, true, false, false, .success, true⟩ := ⟨_, rfl⟩
  have hw := written_lastStored.wf
  have hring : ioctlReadStoreData copyUpToIntMax lastStored 0x1000 78 answers =
      readStoreDataRing copyUpToIntMax lastStored 0x1000 78 answers := by
    rw [hanswers]
    rfl
  have hspec : ReadSpec lastStored.uniqueData.rxStoreData 78
      (ringbufferRead copyUpToIntMax lastStored.uniqueData.rxStoreData 0x1000 78) := by
    have hroom := room_lastStored
    exact ringbufferReadWith_spec hw (by decide) (by omega) fun _ n hn =>
      decide_eq_true (by omega)
  have hkept := h copyUpToIntMax lastStored 0x1000 78 answers hw
  rw [hring] at hkept
  rcases ((readStoreDataRing_kept_iff rfl rfl hspec).mp hkept).copiedCount (hanswers ▸ rfl) with
    hzero | hnil
  · cases hzero
  · rw [written_lastStored.queue] at hnil
    exact absurd (List.append_eq_nil_iff.mp hnil).2 (by decide)

end Ep1Cf02a

end AptUsbtrx
