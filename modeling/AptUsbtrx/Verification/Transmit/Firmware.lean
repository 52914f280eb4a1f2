import AptUsbtrx.Model.Firmware
import AptUsbtrx.Shared.Execution

/-! # The tags of the firmware blocks

The blocks leave in order whatever fails. Their tags follow a count of bytes that goes on when the
set-up of a URB fails, so the tag of a block is that of a later one behind such a failure. -/

namespace AptUsbtrx

open Memory Execution

/-- The tag of the block `k` of `n` blocks. -/
def fwTag (n k : ℕ) : UInt8 :=
  if k = 0 then cmdSendFWDataS else if k = n - 1 then cmdSendFWDataE else cmdSendFWData

/-- The block in a packed message. -/
def fwBlock (urb : List UInt8) : List UInt8 := slice urb 3 32

/-- The id in a packed message. -/
def fwId (urb : List UInt8) : UInt8 := byteAt urb 2

theorem fwTag_eq_fwTag_iff {n j k : ℕ} (hn : 2 ≤ n) :
    fwTag n j = fwTag n k ↔ (j = 0 ↔ k = 0) ∧ (j = n - 1 ↔ k = n - 1) := by
  have hSE : cmdSendFWDataS ≠ cmdSendFWDataE := by decide
  have hSD : cmdSendFWDataS ≠ cmdSendFWData := by decide
  have hED : cmdSendFWDataE ≠ cmdSendFWData := by decide
  have hlast : n - 1 ≠ 0 := by omega
  by_cases hj : j = 0 <;> by_cases hj' : j = n - 1 <;> by_cases hk : k = 0 <;>
    by_cases hk' : k = n - 1 <;>
    simp [fwTag, hj, hj', hk, hk', hlast, hlast.symm, hSE, hSD, hED, hSE.symm, hSD.symm, hED.symm]

/-- The count of bytes makes the tag that of the block with all calls counted that packed one. -/
theorem fwDataId_eq {n : ℕ} (hn : 2 ≤ n) (hlt : n < 2 ^ 27) (k : ℕ) :
    fwDataId (32 * n) ((32 * k % 2 ^ 32 + 32) % 2 ^ 32) = fwTag n (k % 2 ^ 27) := by
  have hfirst : (32 * k % 2 ^ 32 + 32) % 2 ^ 32 = 32 ↔ k % 2 ^ 27 = 0 := by omega
  have hlast : (32 * k % 2 ^ 32 + 32) % 2 ^ 32 = 32 * n ↔ k % 2 ^ 27 = n - 1 := by omega
  rw [fwDataId, fwTag]
  simp only [hfirst, hlast]

/-- The frame of a block. -/
def fwFrame (fwSize fwCount : ℕ) (payload : List UInt8) : List UInt8 :=
  [msgSob, 36, fwDataId fwSize fwCount] ++ payload ++ [msgEob]

theorem packFwData_eq (fwSize fwCount : ℕ) {payload : List UInt8} (hlen : payload.length = 32)
    (msg : Msg) : packFwData fwSize fwCount payload msg =
      (.success, fwFrame fwSize fwCount payload) := by
  have htake : (msg.copyPayload payload).payload.take 32 = payload := by
    have hle : payload.length ≤ msg.payload.length := by
      rw [hlen, msg.payload_length]
      decide
    have h := take_overwrite_zero hle
    rwa [hlen] at h
  have hpack : packFwData fwSize fwCount payload msg = (.success,
      overwrite (List.replicate cmdLengthSendFwData 0) 0 ([msgSob, 36, fwDataId fwSize fwCount] ++
        (msg.copyPayload payload).payload.take 32 ++ [msgEob])) := rfl
  rw [hpack, htake, overwrite_eq_self, fwFrame]
  simp [hlen, cmdLengthSendFwData]

/-! ### One call -/

section

variable {υ : Type} {fwSize fwCount : ℕ} {payload : List UInt8}

theorem fwBlock_fwFrame (hlen : payload.length = 32) :
    fwBlock (fwFrame fwSize fwCount payload) = payload := by
  rw [fwBlock, slice, fwFrame, List.append_assoc]
  exact List.take_left' hlen

/-- What is in front of the semaphore does not count a block as written. -/
theorem writeFwDataCheck_ne (dev : Dev υ) (copied : Bool) :
    writeFwDataCheck dev 32 copied ≠ some 32 := by
  rw [writeFwDataCheck]
  repeat' split
  all_goals decide

/-- The block leaves, its URB cannot be set up but the block is counted, or nothing happens. -/
theorem writeFwData_cases (fwSize fwCount : ℕ) (hlen : payload.length = 32) (call : FwCall υ) :
    call.setsUp payload = true ∧ call.setup = true ∧
        writeFwData fwSize fwCount payload call = ⟨32, (fwCount + 32) % 2 ^ 32,
          some (fwFrame fwSize ((fwCount + 32) % 2 ^ 32) payload)⟩ ∨
      call.setsUp payload = true ∧ call.setup = false ∧
        writeFwData fwSize fwCount payload call = ⟨-eio, (fwCount + 32) % 2 ^ 32, none⟩ ∨
      call.setsUp payload = false ∧ ∃ ret, ret ≠ 32 ∧
        writeFwData fwSize fwCount payload call = ⟨ret, fwCount, none⟩ := by
  rw [writeFwData, FwCall.setsUp]
  cases hcheck : writeFwDataCheck call.dev payload.length call.copied with
  | some ret =>
      refine .inr (.inr ⟨rfl, ret, ?_, rfl⟩)
      rintro rfl
      rw [hlen] at hcheck
      exact writeFwDataCheck_ne _ _ hcheck
  | none =>
      cases call.down with
      | false => exact .inr (.inr ⟨rfl, -eio, by decide, rfl⟩)
      | true =>
          dsimp only
          rw [if_neg (not_not_intro rfl), packFwData_eq _ _ hlen]
          cases call.setup with
          | true => exact .inl ⟨rfl, rfl, rfl⟩
          | false => exact .inr (.inl ⟨rfl, rfl, rfl⟩)

/-! ### The call among the users of the slots -/

variable {ι : Type} [DecidableEq ι] {s : SlotSystem υ ι} {i : ι} {call : FwCall υ}
  {writeCmdId : UInt8} {bufferAddr urbs : ℕ}

/-- The call is over with `write`, `urbs` were in flight in front of it. -/
def Returned (i : ι) (urbs : ℕ) (write : FwWrite) (s : SlotSystem υ ι) : Prop :=
  s.threads i = .idle write.ret ∧ s.fwCount = write.fwCount ∧
    s.tx.urbs = urbs + write.urb.toList.length

/-- Statements of the thread `i`. -/
def OfThread (i : ι) (l : SlotLabel ι) : Prop := ∃ ok msg, l = .advance i ok msg

theorem threads_goto (s : SlotSystem υ ι) (i : ι) (pc : SlotPc) : (s.goto i pc).threads i = pc :=
  Function.update_self ..

theorem canReach_fwPack (hpc : s.threads i = .fwPack payload) (hlen : payload.length = 32)
    (hurbs : s.tx.urbs = urbs) :
    CanReach (SlotSystem.step writeCmdId bufferAddr fwSize) (OfThread i)
      (Returned i urbs (if ¬ call.setup then ⟨-eio, (s.fwCount + 32) % 2 ^ 32, none⟩
        else ⟨32, (s.fwCount + 32) % 2 ^ 32,
          some (fwFrame fwSize ((s.fwCount + 32) % 2 ^ 32) payload)⟩)) s := by
  obtain ⟨u, hu⟩ : ∃ u, u = { s with fwCount := (s.fwCount + 32) % 2 ^ 32 } := ⟨_, rfl⟩
  obtain ⟨data, hdata⟩ : ∃ data, data = fwFrame fwSize ((s.fwCount + 32) % 2 ^ 32) payload :=
    ⟨_, rfl⟩
  have hpack : s.step writeCmdId bufferAddr fwSize (.advance i true call.msg) =
      some (u.goto i (.fwSubmit data)) := by
    simp only [SlotSystem.step, SlotSystem.advance, hpc, packFwData_eq _ _ hlen, hu, hdata]
    rfl
  have hsubmit : (u.goto i (.fwSubmit data)).step writeCmdId bufferAddr fwSize
      (.advance i call.setup call.msg) = if call.setup = true
        then some ((u.goto i (.fwSubmit data)).submitted.goto i (.idle 32))
        else some ((u.goto i (.fwSubmit data)).goto i .fwUp) := by
    simp only [SlotSystem.step, SlotSystem.advance, threads_goto]
  have hup : ((u.goto i (.fwSubmit data)).goto i .fwUp).step writeCmdId bufferAddr fwSize
      (.advance i true call.msg) =
        some (((u.goto i (.fwSubmit data)).goto i .fwUp).up.goto i (.idle (-eio))) := by
    simp only [SlotSystem.step, SlotSystem.advance, threads_goto]
  refine CanReach.of_step ?_ hpack ⟨_, _, rfl⟩
  cases hsetup : call.setup with
  | true =>
      rw [hsetup, if_pos rfl] at hsubmit
      refine (canReach_self ⟨threads_goto _ _ _, ?_, ?_⟩).of_step hsubmit ⟨_, _, rfl⟩
      · rw [hu]
        rfl
      · rw [← hurbs, hu]
        rfl
  | false =>
      rw [hsetup, if_neg Bool.false_ne_true] at hsubmit
      refine ((canReach_self ⟨threads_goto _ _ _, ?_, ?_⟩).of_step hup ⟨_, _, rfl⟩).of_step hsubmit
        ⟨_, _, rfl⟩
      · rw [hu]
        rfl
      · rw [← hurbs, hu]
        rfl

theorem canReach_fwDown (hpc : s.threads i = .fwDown payload) (hlen : payload.length = 32)
    (hslot : call.down = true → 0 < s.tx.usbTransferSem) (hurbs : s.tx.urbs = urbs)
    (hcheck : writeFwDataCheck call.dev payload.length call.copied = none) :
    CanReach (SlotSystem.step writeCmdId bufferAddr fwSize) (OfThread i)
      (Returned i urbs (writeFwData fwSize s.fwCount payload call)) s := by
  have hdown : s.step writeCmdId bufferAddr fwSize (.advance i call.down call.msg) =
      if call.down = true then some (s.down.goto i (.fwPack payload))
      else some (s.goto i (.idle (-eio))) := by
    simp only [SlotSystem.step, SlotSystem.advance, hpc]
    cases hok : call.down with
    | false => rfl
    | true => exact if_pos (hslot hok)
  rw [writeFwData, hcheck]
  dsimp only
  cases hok : call.down with
  | false =>
      rw [hok, if_neg Bool.false_ne_true] at hdown
      rw [if_pos Bool.false_ne_true]
      exact (canReach_self ⟨threads_goto _ _ _, rfl, hurbs⟩).of_step hdown ⟨_, _, rfl⟩
  | true =>
      rw [hok, if_pos rfl] at hdown
      rw [if_neg (not_not_intro rfl), packFwData_eq _ _ hlen]
      exact CanReach.of_step (canReach_fwPack (s := s.down.goto i (.fwPack payload))
        (threads_goto _ _ _) hlen hurbs) hdown ⟨_, _, rfl⟩

/-- A call that nothing else runs across is an execution of the users of the slots. -/
theorem exec_writeFwData {r : ℤ} (hidle : s.threads i = .idle r) (hlen : payload.length = 32)
    (hdev : call.dev = s.tx.dev) (hslot : call.down = true → 0 < s.tx.usbTransferSem)
    (writeCmdId : UInt8) (bufferAddr fwSize : ℕ) :
    ∃ ls t, (∀ l ∈ ls, OfThread i l) ∧
      exec (SlotSystem.step writeCmdId bufferAddr fwSize) s
        (.writeFwData i payload call.copied :: ls) = some t ∧
      Returned i s.tx.urbs (writeFwData fwSize s.fwCount payload call) t := by
  simp only [exec_cons]
  cases hcheck : writeFwDataCheck call.dev payload.length call.copied with
  | some ret =>
      have hcall : s.step writeCmdId bufferAddr fwSize (.writeFwData i payload call.copied) =
          some (s.goto i (.idle ret)) := by
        simp [SlotSystem.step, hidle, ← hdev, hcheck]
      rw [hcall, writeFwData, hcheck]
      exact ⟨[], s.goto i (.idle ret), nofun, rfl, threads_goto _ _ _, rfl, rfl⟩
  | none =>
      have hcall : s.step writeCmdId bufferAddr fwSize (.writeFwData i payload call.copied) =
          some (s.goto i (.fwDown payload)) := by
        simp [SlotSystem.step, hidle, ← hdev, hcheck]
      obtain ⟨ls, t, hls, hexec, ht⟩ := canReach_fwDown (s := s.goto i (.fwDown payload))
        (threads_goto _ _ _) hlen hslot rfl hcheck
      exact ⟨ls, t, hls, hcall ▸ hexec, ht⟩

end

namespace FwSystem

variable {υ : Type} {fwSize : ℕ} {image : FwImage fwSize} {s t : FwSystem} {call : FwCall υ}

theorem length_block {k : ℕ} (h : 32 * (k + 1) ≤ fwSize) : (block image k).length = 32 :=
  length_slice_of_le (by rw [image.property]; omega)

/-- The call submits its block. -/
def Submits (image : FwImage fwSize) (s : FwSystem) (call : FwCall υ) : Prop :=
  call.setsUp (block image s.written) = true ∧ call.setup = true

theorem step_cases (hblocks : 32 ∣ fwSize) (h : s.step image call = some t) :
    32 * (s.written + 1) ≤ fwSize ∧
      (Submits image s call ∧ t = ⟨(s.fwCount + 32) % 2 ^ 32, s.written + 1, s.failed,
          s.urbs ++ [fwFrame fwSize ((s.fwCount + 32) % 2 ^ 32) (block image s.written)]⟩ ∨
        ¬ Submits image s call ∧
          (t = ⟨(s.fwCount + 32) % 2 ^ 32, s.written, s.failed + 1, s.urbs⟩ ∨ t = s)) := by
  rw [step] at h
  split at h
  case isFalse => cases h
  case isTrue hlt =>
    have hle : 32 * (s.written + 1) ≤ fwSize := by omega
    refine ⟨hle, ?_⟩
    obtain rfl := Option.some.inj h
    rcases writeFwData_cases fwSize s.fwCount (length_block hle) call with
      ⟨hup, hsetup, hwrite⟩ | ⟨hup, hsetup, hwrite⟩ | ⟨hup, ret, hret, hwrite⟩
    · left
      refine ⟨⟨hup, hsetup⟩, ?_⟩
      simp [hwrite, hup, hsetup]
    · right
      refine ⟨fun h => Bool.false_ne_true (hsetup.symm.trans h.2), .inl ?_⟩
      simp [hwrite, hup, hsetup, eio]
    · right
      refine ⟨fun h => Bool.false_ne_true (hup.symm.trans h.1), .inr ?_⟩
      simp [hwrite, hup, hret]

/-- The count of bytes and the blocks that have left. -/
structure Counted (image : FwImage fwSize) (s : FwSystem) : Prop where
  fwCount : s.fwCount = 32 * (s.written + s.failed) % 2 ^ 32
  bound : 32 * s.written ≤ fwSize
  blocks : s.urbs.map fwBlock = (List.range s.written).map (block image)

theorem counted_start (image : FwImage fwSize) : Counted image start :=
  ⟨rfl, Nat.zero_le _, rfl⟩

theorem Counted.step (h : Counted image s) (hblocks : 32 ∣ fwSize)
    (hstep : s.step image call = some t) : Counted image t := by
  have hcount := h.fwCount
  obtain ⟨hle, ⟨-, rfl⟩ | ⟨-, rfl | rfl⟩⟩ := step_cases hblocks hstep
  · refine ⟨?_, hle, ?_⟩
    · dsimp only
      omega
    · rw [List.map_append, h.blocks, List.range_succ, List.map_append]
      simp only [List.map_cons, List.map_nil, fwBlock_fwFrame (length_block hle)]
  · refine ⟨?_, h.bound, h.blocks⟩
    dsimp only
    omega
  · exact h

/-- The blocks one behind the other are the image. -/
theorem flatten_blocks (image : FwImage fwSize) (k : ℕ) :
    ((List.range k).map (block image)).flatten = image.val.take (32 * k) := by
  induction k with
  | zero => simp
  | succ k ih =>
      rw [List.range_succ, List.map_append, List.flatten_append, ih, List.map_singleton,
        List.flatten_singleton, block, ← slice_zero, ← slice_zero image.val (32 * (k + 1)),
        Nat.mul_succ, ← slice_append_slice, Nat.zero_add]

/-- The blocks that have left are those of the image in order, with the tags of their places. -/
structure UpdateSpec (image : FwImage fwSize) (s : FwSystem) : Prop where
  data : (s.urbs.map fwBlock).flatten = image.val.take (32 * s.written)
  ids : s.urbs.map fwId = (List.range s.written).map (fwTag (fwSize / 32))

/-- With the blocks and the failed set-ups so far, modulo the `2 ^ 27` blocks behind which the count
of bytes begins again, it is the turn of the first or the last block exactly if it is so with the
blocks alone. -/
structure Aligned (fwSize : ℕ) (s : FwSystem) : Prop where
  first : (s.written + s.failed) % 2 ^ 27 = 0 ↔ s.written = 0
  last : (s.written + s.failed) % 2 ^ 27 = fwSize / 32 - 1 ↔ s.written = fwSize / 32 - 1

theorem Counted.updateSpec_iff (h : Counted image s) (hblocks : 32 ∣ fwSize) (hn : 2 ≤ fwSize / 32)
    (hlt : fwSize / 32 < 2 ^ 27) (hspec : UpdateSpec image s) (hstep : s.step image call = some t) :
    UpdateSpec image t ↔ (Submits image s call → Aligned fwSize s) := by
  have ht := h.step hblocks hstep
  have hdata : (t.urbs.map fwBlock).flatten = image.val.take (32 * t.written) := by
    rw [ht.blocks, flatten_blocks]
  obtain ⟨hle, ⟨hsub, rfl⟩ | ⟨hsub, rfl | rfl⟩⟩ := step_cases hblocks hstep
  · have hid : fwDataId fwSize ((s.fwCount + 32) % 2 ^ 32) =
        fwTag (fwSize / 32) ((s.written + s.failed) % 2 ^ 27) := by
      rw [h.fwCount]
      conv_lhs => rw [← Nat.mul_div_cancel' hblocks]
      exact fwDataId_eq hn hlt _
    have hids : UpdateSpec image ⟨(s.fwCount + 32) % 2 ^ 32, s.written + 1, s.failed,
        s.urbs ++ [fwFrame fwSize ((s.fwCount + 32) % 2 ^ 32) (block image s.written)]⟩ ↔
        fwTag (fwSize / 32) ((s.written + s.failed) % 2 ^ 27) = fwTag (fwSize / 32) s.written := by
      have hlast : fwId (fwFrame fwSize ((s.fwCount + 32) % 2 ^ 32) (block image s.written)) =
          fwDataId fwSize ((s.fwCount + 32) % 2 ^ 32) := rfl
      refine ⟨fun hspec' => ?_, fun htag => ⟨hdata, ?_⟩⟩
      · have hids := hspec'.ids
        rw [List.map_append, hspec.ids, List.range_succ, List.map_append] at hids
        have hone := List.append_cancel_left hids
        rw [List.map_singleton, List.map_singleton, hlast, hid] at hone
        exact (List.cons.inj hone).1
      · rw [List.map_append, hspec.ids, List.range_succ, List.map_append, List.map_singleton,
          List.map_singleton, hlast, hid, htag]
    rw [hids, fwTag_eq_fwTag_iff hn]
    exact ⟨fun h _ => ⟨h.1, h.2⟩, fun h => ⟨(h hsub).first, (h hsub).last⟩⟩
  · exact iff_of_true ⟨hdata, hspec.ids⟩ fun h => absurd h hsub
  · exact iff_of_true hspec fun h => absurd h hsub

/-- All along an update the blocks that have left are those of the image with the tags of their
places exactly if every block is submitted with the count aligned. -/
theorem update_tagged_iff (device : FileDevice) (image : FwImage device.getFwSize)
    {calls : List (FwCall υ)} (hrun : exec (step image) start calls = some s) :
    (∀ ks u, ks <+: calls → exec (step image) start ks = some u → UpdateSpec image u) ↔
      AllSteps (step image) (fun s call => Submits image s call → Aligned device.getFwSize s) start
        calls := by
  have hblocks : 32 ∣ device.getFwSize := by cases device <;> decide
  have hn : 2 ≤ device.getFwSize / 32 := by cases device <;> decide
  have hlt : device.getFwSize / 32 < 2 ^ 27 := by cases device <;> decide
  refine allSteps_iff_forall_prefix (I := Counted image) ?_ ?_ (counted_start image) ?_ hrun
  · intro s call t h hstep
    exact h.step hblocks hstep
  · intro s call t h hspec hstep
    exact h.updateSpec_iff hblocks hn hlt hspec hstep
  · exact ⟨by simp [start], rfl⟩

/-- An update that has delivered its image with the right tags has had no failed set-up, unless
so many that the count of bytes has begun again. -/
theorem failed_of_update_tagged (device : FileDevice) (image : FwImage device.getFwSize)
    {calls : List (FwCall υ)} (hrun : exec (step image) start calls = some s)
    (htagged : AllSteps (step image)
      (fun s call => Submits image s call → Aligned device.getFwSize s) start calls)
    (hdone : 32 * s.written = device.getFwSize) : s.failed % 2 ^ 27 = 0 := by
  have hblocks : 32 ∣ device.getFwSize := by cases device <;> decide
  have hn : 2 ≤ device.getFwSize / 32 := by cases device <;> decide
  have hlt : device.getFwSize / 32 < 2 ^ 27 := by cases device <;> decide
  refine exec_invariant_of_allSteps (I := fun s => 32 * s.written = device.getFwSize →
    s.failed % 2 ^ 27 = 0) ?_ (fun h => ?_) htagged hrun hdone
  · intro s call t h haligned hstep hdone
    obtain ⟨hle, ⟨hsub, rfl⟩ | ⟨-, rfl | rfl⟩⟩ := step_cases hblocks hstep
    · have hlast := (haligned hsub).last
      dsimp only at hdone ⊢
      omega
    · dsimp only at hdone
      omega
    · exact h hdone
  · rfl

/-- An image for the EP1-AG08A. -/
def blankImage : FwImage FileDevice.ep1Ag08a.getFwSize :=
  ⟨List.replicate (192 * 1024) 0, List.length_replicate⟩

/-- A call in which nothing but the set-up of the URB may fail. -/
def fwCall (setup : Bool) : FwCall Unit :=
  ⟨{ Dev.probed 0x10000000 64 0x20000000 ⟨0, 0⟩ () with onopening := false }, true, true, Msg.zero,
    setup⟩

theorem update_tagged_iff_blankImage :
    ∃ s, exec (step blankImage) start [fwCall true, fwCall true] = some s ∧
      ∀ ks u, ks <+: [fwCall true, fwCall true] → exec (step blankImage) start ks = some u →
        UpdateSpec blankImage u := by
  have hrun : (exec (step blankImage) start [fwCall true, fwCall true]).isSome = true := by
    decide +kernel
  obtain ⟨s, hs⟩ := Option.isSome_iff_exists.mp hrun
  refine ⟨s, hs, (update_tagged_iff .ep1Ag08a blankImage hs).mpr ?_⟩
  refine ⟨fun _ => ⟨by decide, by decide⟩, fun t ht => ⟨fun _ => ?_, fun _ _ => trivial⟩⟩
  have hcounts : (step blankImage start (fwCall true)).map (fun t => (t.written, t.failed)) =
      some (1, 0) := by
    decide +kernel
  rw [ht] at hcounts
  obtain ⟨hwritten, hfailed⟩ := Prod.mk.inj (Option.some.inj hcounts)
  exact ⟨by rw [hwritten, hfailed]; decide, by rw [hwritten, hfailed]; decide⟩

/-- The set-up for the first block fails, and the retry submits it as a block of the middle. -/
theorem update_mistagged :
    ¬ ∀ (device : FileDevice) (image : FwImage device.getFwSize) (calls : List (FwCall Unit))
        (s : FwSystem), exec (step image) start calls = some s → UpdateSpec image s := by
  intro h
  have hids : (exec (step blankImage) start [fwCall false, fwCall true]).map
      (fun s => (s.urbs.map fwId, s.written)) = some ([cmdSendFWData], 1) := by
    decide +kernel
  obtain ⟨s, hs, heq⟩ := Option.map_eq_some_iff.mp hids
  obtain ⟨hid, hwritten⟩ := Prod.mk.inj heq
  have hspec := (h .ep1Ag08a blankImage _ s hs).ids
  rw [hid, hwritten] at hspec
  revert hspec
  decide

end FwSystem

end AptUsbtrx
