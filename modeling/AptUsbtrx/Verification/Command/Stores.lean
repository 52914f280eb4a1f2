import AptUsbtrx.Model.ApCt2a
import AptUsbtrx.Model.Ep1Ag08a
import AptUsbtrx.Verification.Command.Ep1Cf02a

/-! # How much a wait stores

`apt_usbtrx_wait_msg_timeout` copies as many bytes as the frame it accepts is long; the size
of the caller's buffer bounds nothing but a bulk transfer. -/

namespace AptUsbtrx

open Memory Execution

/-- The first frame with one of the two ids that the walk over the bytes meets. -/
inductive FirstAnswer (ackId nackId : UInt8) : List UInt8 → Message → Prop where
  | found {m : Message} {tail : List UInt8} : m.Answers ackId nackId →
      FirstAnswer ackId nackId (m.encode ++ tail) m
  | next {m m' : Message} {tail : List UInt8} : ¬ m.Answers ackId nackId →
      FirstAnswer ackId nackId tail m' → FirstAnswer ackId nackId (m.encode ++ tail) m'
  | skip {b : UInt8} {tail : List UInt8} {m' : Message} :
      (∀ (m : Message) (rest : List UInt8), b :: tail ≠ m.encode ++ rest) →
      FirstAnswer ackId nackId tail m' → FirstAnswer ackId nackId (b :: tail) m'

/-- The bytes that a round walks over. -/
def WaitInput.received : WaitInput → List UInt8
  | .completed rx => rx.buffer
  | .bulk recv => recv
  | .timeout | .bulkError => []

/-- The round has received something. -/
def WaitInput.Arrived : WaitInput → Prop
  | .completed _ | .bulk _ => True
  | .timeout | .bulkError => False

/-- The completion structure has its full size, and a bulk transfer fits in the buffer of the
wait. -/
def WaitInput.Fits : WaitInput → Prop
  | .completed rx => rx.Full
  | .bulk recv => recv.length ≤ rxBufferSize
  | .timeout | .bulkError => True

/-- The first frame with one of the two ids in the first round that meets one. -/
inductive FirstAnswerIn (ackId nackId : UInt8) : List WaitRound → Message → Prop where
  | now {round : WaitRound} {rounds : List WaitRound} {m : Message} :
      FirstAnswer ackId nackId round.input.received m →
      FirstAnswerIn ackId nackId (round :: rounds) m
  | later {round : WaitRound} {rounds : List WaitRound} {m : Message} : round.input.Arrived →
      (∀ m', ¬ FirstAnswer ackId nackId round.input.received m') → round.inTime = true →
      FirstAnswerIn ackId nackId rounds m → FirstAnswerIn ackId nackId (round :: rounds) m

section

variable {ackId nackId : UInt8}

theorem not_firstAnswer_nil (m : Message) : ¬ FirstAnswer ackId nackId [] m := by
  intro h
  generalize hxs : ([] : List UInt8) = xs at h
  cases h with
  | found _ => exact not_encode_nil _ _ hxs
  | next _ _ => exact not_encode_nil _ _ hxs
  | skip => cases hxs

theorem FirstAnswer.of_encode {m m' : Message} {tail : List UInt8}
    (h : FirstAnswer ackId nackId (m.encode ++ tail) m') :
    m' = m ∧ m.Answers ackId nackId ∨
      ¬ m.Answers ackId nackId ∧ FirstAnswer ackId nackId tail m' := by
  generalize hxs : m.encode ++ tail = xs at h
  cases h with
  | found hans =>
      obtain ⟨rfl, -⟩ := Message.encode_append_inj hxs
      exact .inl ⟨rfl, hans⟩
  | next hans h =>
      obtain ⟨rfl, rfl⟩ := Message.encode_append_inj hxs
      exact .inr ⟨hans, h⟩
  | skip hno h => exact absurd hxs.symm (hno m tail)

theorem FirstAnswer.of_skip {b : UInt8} {tail : List UInt8} {m' : Message}
    (hno : ∀ (m : Message) (rest : List UInt8), b :: tail ≠ m.encode ++ rest)
    (h : FirstAnswer ackId nackId (b :: tail) m') : FirstAnswer ackId nackId tail m' := by
  generalize hxs : b :: tail = xs at h
  cases h with
  | found hans => exact absurd hxs (hno _ _)
  | next hans h => exact absurd hxs (hno _ _)
  | skip _ h =>
      cases hxs
      exact h

theorem FirstAnswer.length_le {xs : List UInt8} {m : Message}
    (h : FirstAnswer ackId nackId xs m) : m.length ≤ xs.length := by
  induction h with
  | found hans =>
      rw [List.length_append, Message.encode_length]
      omega
  | next hans _ ih =>
      rw [List.length_append]
      omega
  | skip hno _ ih =>
      rw [List.length_cons]
      omega

/-- The loop returns the first answer. -/
theorem Scanned.firstAnswer_iff {xs : List UInt8} {result : Option Msg}
    (h : Scanned ackId nackId xs result) (m : Message) :
    FirstAnswer ackId nackId xs m ↔ ∃ msg, result = some msg ∧ msg.message = m := by
  induction h with
  | done =>
      constructor
      · intro hm
        exact absurd hm (not_firstAnswer_nil m)
      · rintro ⟨msg, hnone, -⟩
        cases hnone
  | skip hno _ ih => exact ⟨fun hm => ih.mp (hm.of_skip hno), fun hm => .skip hno (ih.mpr hm)⟩
  | next hans _ ih =>
      constructor
      · intro hm
        rcases hm.of_encode with ⟨-, hans'⟩ | ⟨-, hm⟩
        · exact absurd hans' hans
        · exact ih.mp hm
      · intro hm
        exact .next hans (ih.mpr hm)
  | found hsize hans =>
      constructor
      · intro hm
        rcases hm.of_encode with ⟨rfl, -⟩ | ⟨hno, -⟩
        · exact ⟨_, rfl, rfl⟩
        · exact absurd hans hno
      · rintro ⟨msg, hmsg, rfl⟩
        cases hmsg
        exact .found hans

/-! ### One round -/

/-- A round over the bytes `xs` stores as many bytes as their first answer is long. -/
structure RoundStores (ackId nackId : UInt8) (xs : List UInt8) (out : Option (List UInt8)) :
    Prop where
  of_answer : ∀ m, FirstAnswer ackId nackId xs m →
    ∃ stored, out = some stored ∧ stored.length = m.length
  of_some : ∀ stored, out = some stored →
    ∃ m, FirstAnswer ackId nackId xs m ∧ stored.length = m.length

theorem waitMsgRound_stores {buf : List UInt8} {recvSize : ℕ} (hbuf : recvSize ≤ buf.length)
    (msg : Msg) :
    RoundStores ackId nackId (buf.take recvSize)
      (waitMsgRound ackId nackId buf recvSize msg) := by
  have hscanned : Scanned ackId nackId (slice buf 0 (recvSize - 0))
      (waitMsgLoop ackId nackId buf recvSize recvSize 0 msg) :=
    waitMsgLoop_scanned hbuf msg (Nat.le_refl _)
  rw [Nat.sub_zero, slice_zero] at hscanned
  have hlength (found : Msg)
      (hfound : waitMsgLoop ackId nackId buf recvSize recvSize 0 msg = some found) :
      (slice buf 0 (payloadLengthToMsg found.payloadSize.toNat)).length =
        found.message.length := by
    have hle := ((hscanned.firstAnswer_iff _).mpr ⟨found, hfound, rfl⟩).length_le
    rw [List.length_take] at hle
    rw [← Msg.length_message (hscanned.spec.answers found hfound).1, length_slice_of_le (by omega)]
  constructor
  · intro m hm
    obtain ⟨found, hfound, rfl⟩ := (hscanned.firstAnswer_iff m).mp hm
    refine ⟨_, ?_, hlength found hfound⟩
    rw [waitMsgRound, hfound, Option.map_some]
  · intro stored hstored
    obtain ⟨found, hfound, rfl⟩ := Option.map_eq_some_iff.mp hstored
    exact ⟨_, (hscanned.firstAnswer_iff _).mpr ⟨found, hfound, rfl⟩, hlength found hfound⟩

theorem RxComplete.Full.take_copyTo {rx : RxComplete} (h : rx.Full) {buf : List UInt8}
    (hbuf : buf.length = rxBufferSize) : (rx.copyTo buf).take rx.bufferSize = rx.buffer := by
  rw [RxComplete.copyTo_eq h hbuf, h.bufferSize_eq, ← h.length_buffer, List.take_length]

/-! ### The whole wait -/

/-- What the rounds leave: the bytes of the first answer, or nothing. -/
structure WaitStores (ackId nackId : UInt8) (rounds : List WaitRound)
    (out : Option (Result × List UInt8)) : Prop where
  of_answer : ∀ m, FirstAnswerIn ackId nackId rounds m →
    ∃ stored, out = some (.success, stored) ∧ stored.length = m.length
  of_some : ∀ result stored, out = some (result, stored) →
    stored = [] ∨ ∃ m, FirstAnswerIn ackId nackId rounds m ∧ stored.length = m.length

/-- A round that ends the wait without an answer. -/
theorem waitStores_stopped {round : WaitRound} {rounds : List WaitRound} {result : Result}
    (hno : ∀ m, ¬ FirstAnswerIn ackId nackId (round :: rounds) m) :
    WaitStores ackId nackId (round :: rounds) (some (result, [])) where
  of_answer m hm := absurd hm (hno m)
  of_some _ stored h := by
    cases h
    exact .inl rfl

theorem WaitStores.cons {round : WaitRound} {rounds : List WaitRound}
    {out : Option (List UInt8)} {rest total : Option (Result × List UInt8)}
    (htotal : total = match out with
      | some data => some (.success, data)
      | none => if round.inTime then rest else some (.failure, []))
    (harrived : round.input.Arrived)
    (hround : RoundStores ackId nackId round.input.received out)
    (hrest : WaitStores ackId nackId rounds rest) :
    WaitStores ackId nackId (round :: rounds) total := by
  subst htotal
  cases out with
  | some data =>
      obtain ⟨m, hm, hlength⟩ := hround.of_some data rfl
      constructor
      · intro m' hm'
        cases hm' with
        | now h =>
            obtain ⟨stored, hstored, heq⟩ := hround.of_answer m' h
            cases hstored
            exact ⟨data, rfl, heq⟩
        | later _ hno _ _ => exact absurd hm (hno m)
      · intro result stored h
        cases h
        exact .inr ⟨m, .now hm, hlength⟩
  | none =>
      have hnone (m : Message) : ¬ FirstAnswer ackId nackId round.input.received m := by
        intro hm
        obtain ⟨stored, hstored, -⟩ := hround.of_answer m hm
        cases hstored
      cases hin : round.inTime with
      | true =>
          constructor
          · intro m hm
            cases hm with
            | now h => exact absurd h (hnone m)
            | later _ _ _ h => exact hrest.of_answer m h
          · intro result stored h
            rcases hrest.of_some result stored h with hnil | ⟨m, hm, hlength⟩
            · exact .inl hnil
            · exact .inr ⟨m, .later harrived hnone hin hm, hlength⟩
      | false =>
          apply waitStores_stopped
          intro m hm
          cases hm with
          | now h => exact hnone m h
          | later _ _ htime _ => exact absurd (hin.symm.trans htime) Bool.false_ne_true

theorem waitMsgRounds_stores {rounds : List WaitRound}
    (hfits : ∀ round ∈ rounds, round.input.Fits) {buf : List UInt8}
    (hbuf : buf.length = rxBufferSize) :
    WaitStores ackId nackId rounds (waitMsgRounds ackId nackId buf rounds) := by
  induction rounds generalizing buf with
  | nil =>
      constructor
      · intro m hm
        cases hm
      · intro result stored h
        cases h
  | cons round rounds ih =>
      obtain ⟨input, msg, inTime⟩ := round
      have hfit : input.Fits := hfits _ List.mem_cons_self
      have ih {buf : List UInt8} (hbuf : buf.length = rxBufferSize) :=
        ih (fun round hround => hfits round (List.mem_cons_of_mem _ hround)) hbuf
      cases input with
      | timeout | bulkError =>
          apply waitStores_stopped
          intro m hm
          cases hm with
          | now h => exact not_firstAnswer_nil m h
          | later harrived _ _ _ => exact harrived
      | completed rx =>
          have hlen : (rx.copyTo buf).length = rxBufferSize :=
            (length_overwrite _ _ _).trans hbuf
          have hround : RoundStores ackId nackId ((rx.copyTo buf).take rx.bufferSize)
              (waitMsgRound ackId nackId (rx.copyTo buf) rx.bufferSize msg) :=
            waitMsgRound_stores (Nat.le_of_eq (hfit.bufferSize_eq.trans hlen.symm)) msg
          rw [hfit.take_copyTo hbuf] at hround
          exact .cons rfl trivial hround (ih hlen)
      | bulk recv =>
          have hlen : (overwrite buf 0 recv).length = rxBufferSize :=
            (length_overwrite _ _ _).trans hbuf
          have hrecv : recv.length ≤ buf.length := hfit.trans (Nat.le_of_eq hbuf.symm)
          have hround : RoundStores ackId nackId ((overwrite buf 0 recv).take recv.length)
              (waitMsgRound ackId nackId (overwrite buf 0 recv) recv.length msg) :=
            waitMsgRound_stores (hfit.trans (Nat.le_of_eq hlen.symm)) msg
          rw [take_overwrite_zero hrecv] at hround
          exact .cons rfl trivial hround (ih hlen)

end

/-- A wait stays within the buffer of the command if and only if the first frame it meets with
one of the two ids, in the first round that meets one, is no longer than the buffer. -/
theorem Command.wait_stores_within_iff (cmd : Command) {rounds : List WaitRound}
    (hfits : ∀ round ∈ rounds, round.input.Fits) :
    (∀ result stored, waitMsgTimeout cmd.respCmdIdAck cmd.respCmdIdNack rounds =
        some (result, stored) → stored.length ≤ cmd.respDataSize) ↔
      ∀ m, FirstAnswerIn cmd.respCmdIdAck cmd.respCmdIdNack rounds m →
        m.length ≤ cmd.respDataSize := by
  have hstores : WaitStores cmd.respCmdIdAck cmd.respCmdIdNack rounds
      (waitMsgTimeout cmd.respCmdIdAck cmd.respCmdIdNack rounds) :=
    waitMsgRounds_stores hfits List.length_replicate
  constructor
  · intro hwithin m hm
    obtain ⟨stored, hstored, hlength⟩ := hstores.of_answer m hm
    rw [← hlength]
    exact hwithin _ stored hstored
  · intro hanswer result stored h
    rcases hstores.of_some result stored h with rfl | ⟨m, hm, hlength⟩
    · exact Nat.zero_le _
    · rw [hlength]
      exact hanswer m hm

/-! ### Every command can be made to overflow -/

/-- The command functions of all units. -/
def driverCommands : List Command :=
  Ep1Cf02a.commands ++ ApCt2a.commands ++ Ep1Ch02a.commands ++ Ep1Ag08a.commands

theorem respDataSize_lt_cmdMaxLength : ∀ cmd ∈ driverCommands, cmd.respDataSize < cmdMaxLength := by
  decide

/-- Whatever the completion buffer held before, the longest frame with the id that a command
waits for does not fit in its buffer. -/
theorem Command.wait_overflows {cmd : Command} (hcmd : cmd ∈ driverCommands) {old : RxComplete}
    (hold : old.Full) (msg : Msg) (inTime : Bool) :
    ∃ m : Message, m.id = cmd.respCmdIdAck ∧ ∃ stored,
      waitMsgTimeout cmd.respCmdIdAck cmd.respCmdIdNack
          [⟨.completed (old.completed m), msg, inTime⟩] = some (.success, stored) ∧
        cmd.respDataSize < stored.length := by
  let m : Message :=
    ⟨cmd.respCmdIdAck, List.replicate maxPayload 0, Nat.le_of_eq List.length_replicate⟩
  have hlength : m.encode.length = cmdMaxLength := by
    rw [m.encode_length, m.length_eq, List.length_replicate]
    rfl
  have hnil : waitMsgTimeout cmd.respCmdIdAck cmd.respCmdIdNack [] = none := rfl
  refine ⟨m, rfl, m.encode, ?_, ?_⟩
  · exact waitMsgTimeout_of_answers hnil (hold.completed m) msg inTime
      (RxComplete.buffer_completed hold m) (.inl rfl)
  · rw [hlength]
    exact respDataSize_lt_cmdMaxLength cmd hcmd

/-- `apt_usbtrx_enable_reset_ts` -/
def enableResetTs : Command := ⟨cmdEnableResetTS, 4, cmdLengthACK, cmdACK, cmdNACK⟩

/-- An ACK to `EnableResetTS` in a frame of the maximal length. -/
def longAck : Message := ⟨cmdACK, cmdEnableResetTS :: List.replicate 77 0, by decide⟩

/-- The completion structure after the probe, once the ACK is dispatched. -/
def longAckCompleted : RxComplete :=
  RxComplete.completed ⟨0, cmdEnableResetTS, List.replicate rxBufferSize 0, rxBufferSize, 0⟩ longAck

theorem full_longAckCompleted : longAckCompleted.Full :=
  RxComplete.Full.completed ⟨List.length_replicate, rfl⟩ longAck

theorem wait_stores_within_iff_longAck :
    (∀ result stored, waitMsgTimeout cmdACK cmdNACK
        [⟨.completed longAckCompleted, Msg.zero, true⟩] = some (result, stored) →
          stored.length ≤ 5) ↔
      ∀ m, FirstAnswerIn cmdACK cmdNACK [⟨.completed longAckCompleted, Msg.zero, true⟩] m →
        m.length ≤ 5 :=
  enableResetTs.wait_stores_within_iff fun round hround => by
    rw [List.mem_singleton.mp hround]
    exact full_longAckCompleted

/-- The device answers `EnableResetTS` with the long ACK. -/
def longAckRun : List Label :=
  [.down enableResetTs [] Msg.zero, .setId, .initCompletion, .send true true, .respond longAck,
    .urb 82 Msg.zero, .round false Msg.zero true]

/-- The wait of `apt_usbtrx_enable_reset_ts` stores 82 bytes in the buffer of 5. -/
theorem enableResetTs_overflows :
    ∃ s, exec (Session.step Ep1Cf02a.protocol) (Session.start Ep1Cf02a.probed) longAckRun =
        some s ∧
      s.finished = [⟨⟨0, enableResetTs⟩, false, (.success, longAck.encode)⟩] ∧
      ¬ ∀ f ∈ s.finished, f.waited.2.length ≤ f.request.cmd.respDataSize := by
  have hfinished : (exec (Session.step Ep1Cf02a.protocol) (Session.start Ep1Cf02a.probed)
      longAckRun).map Session.finished =
        some [⟨⟨0, enableResetTs⟩, false, (.success, longAck.encode)⟩] := by
    decide +kernel
  obtain ⟨s, hs, hf⟩ := Option.map_eq_some_iff.mp hfinished
  refine ⟨s, hs, hf, fun hall => ?_⟩
  have hle := hall ⟨⟨0, enableResetTs⟩, false, (.success, longAck.encode)⟩ (by
    rw [hf]
    exact List.mem_cons_self)
  exact absurd hle (by decide)

end AptUsbtrx
