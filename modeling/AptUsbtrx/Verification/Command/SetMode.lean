import AptUsbtrx.Model.ApCt2aSet
import AptUsbtrx.Verification.Command.SetCommand

/-! # Setting the mode of a CAN unit

What a call leaves of the device when it fails, and the product that the transmit tokens are
calculated from. -/

namespace AptUsbtrx.ApCt2a

open Word32

/-- A call that returns with a failure leaves the device as it was, and the product is an `int`. -/
def FailsCleanly {υ : Type} (env : SyncEnv) (d : CanDev υ) (baudrate : ℤ) (silent : Bool) : Prop :=
  (∀ ret d', uniqueCanSetMode env d baudrate silent = some (ret, d') → ret ≠ 0 → d' = d) ∧
    IsInt (transferBits baudrate)

/-- The request is handed to `usb_bulk_msg`. -/
structure Requests (env : SyncEnv) (baudrate : ℤ) : Prop where
  supported : (convertBaudrateMode baudrate).isSome
  allocated : env.allocated
  down : env.down

/-- `rx_complete` when the request is handed over. -/
def armed (rx : RxComplete) : RxComplete := { rx with id := cmdSetMode, done := 0 }

/-- The request is sent, and the device acknowledges it. -/
structure Acknowledged (env : SyncEnv) (rx : RxComplete) (baudrate : ℤ) : Prop
    extends Requests env baudrate where
  ack : ∃ waited rx', env.exchange.run setModeCommand (armed rx) = some (some waited, rx') ∧
    setModeCommand.finishSet waited env.respMsg = (.success, some true)

/-- The responses that the dispatcher completes during the call. -/
def answers : SyncExchange → List (List UInt8 × Msg)
  | .notSent answers | .noBuffer answers => answers
  | .waited rounds => rounds.flatMap fun round => round.source.answers

/-- The completions that nothing has waited for at the end. -/
def unread : SyncExchange → ℕ
  | .notSent answers | .noBuffer answers => answers.length
  | .waited rounds => rounds.foldl (fun done round => round.source.unread done) 0

/-- The last command was this one too, it has left as many completions behind, and what the answers
store is what is there. -/
structure Undisturbed (x : SyncExchange) (rx : RxComplete) : Prop where
  id : rx.id = cmdSetMode
  done : rx.done = unread x
  stored : rx.completeAll (answers x) = { rx with done := rx.done + (answers x).length }

variable {υ : Type} {env : SyncEnv} {rx : RxComplete} {d : CanDev υ} {baudrate : ℤ} {silent : Bool}

theorem isInt_transferBits_iff :
    IsInt (transferBits baudrate) ↔ -2 ^ 21 ≤ baudrate ∧ baudrate < 2 ^ 21 := by
  rw [IsInt, transferBits]
  omega

theorem transferBits_tdiv (h : 0 ≤ baudrate) :
    (((transferBits baudrate).tdiv 8).tdiv 16).tdiv 1000 = baudrate / 125 := by
  have hbits : 0 ≤ baudrate * 1024 := by omega
  have hbytes : 0 ≤ baudrate * 1024 / 8 := by omega
  have hframes : 0 ≤ baudrate * 1024 / 8 / 16 := by omega
  rw [transferBits, Int.tdiv_eq_ediv_of_nonneg hbits, Int.tdiv_eq_ediv_of_nonneg hbytes,
    Int.tdiv_eq_ediv_of_nonneg hframes]
  omega

/-- The tokens of a millisecond, at least one. -/
theorem tokens_eq (h : IsInt (transferBits baudrate)) :
    (if maxToken baudrate > 0 then maxToken baudrate else 1) = max 1 (baudrate / 125) := by
  rw [maxToken, wrap_of_lt h.1 h.2, txTokenCanSize]
  rcases le_total 0 baudrate with hnonneg | hneg
  · rw [transferBits_tdiv hnonneg]
    omega
  · have hnegBits : transferBits baudrate = -transferBits (-baudrate) := by
      rw [transferBits, transferBits]
      omega
    rw [hnegBits, Int.neg_tdiv, Int.neg_tdiv, Int.neg_tdiv, transferBits_tdiv (by omega)]
    omega

/-! ### What an exchange leaves -/

/-- The answers keep the id and count up the completions. -/
theorem completeAll_eq (rx : RxComplete) (answers : List (List UInt8 × Msg)) (id : UInt8) (n : ℕ) :
    RxComplete.completeAll { rx with id := id, done := n } answers =
      ⟨n + answers.length, id, (rx.completeAll answers).buffer, rx.bufferSize,
        (rx.completeAll answers).dataSize⟩ := by
  induction answers generalizing rx n with
  | nil => rfl
  | cons answer answers ih =>
      rw [List.length_cons, Nat.add_comm answers.length, ← Nat.add_assoc]
      exact ih (rx.complete answer.1 answer.2) (n + 1)

theorem completeAll_append (rx : RxComplete) (answers answers' : List (List UInt8 × Msg)) :
    rx.completeAll (answers ++ answers') = (rx.completeAll answers).completeAll answers' :=
  List.foldl_append

theorem bufferSize_completeAll (rx : RxComplete) (answers : List (List UInt8 × Msg)) :
    (rx.completeAll answers).bufferSize = rx.bufferSize := by
  have heq : rx.completeAll answers = _ := completeAll_eq rx answers rx.id rx.done
  rw [heq]

theorem foldl_leaves (rounds : List AnswerRound) (rx : RxComplete) (id : UInt8) (n : ℕ) :
    rounds.foldl (fun rx round => round.source.leaves rx) { rx with id := id, done := n } =
      ⟨rounds.foldl (fun done round => round.source.unread done) n, id,
        (rx.completeAll (rounds.flatMap fun round => round.source.answers)).buffer, rx.bufferSize,
        (rx.completeAll (rounds.flatMap fun round => round.source.answers)).dataSize⟩ := by
  induction rounds generalizing rx n with
  | nil => rfl
  | cons round rounds ih =>
      have hround : round.source.leaves { rx with id := id, done := n } =
          ⟨round.source.unread n, id, (round.source.completed rx).buffer, rx.bufferSize,
            (round.source.completed rx).dataSize⟩ := by
        rw [AnswerSource.leaves, AnswerSource.completed, completeAll_eq]
        rfl
      rw [List.foldl_cons, List.foldl_cons, hround, List.flatMap_cons, completeAll_append,
        ← bufferSize_completeAll rx round.source.answers]
      exact ih (round.source.completed rx) (round.source.unread n)

theorem waitAnswers_leaves {ackId nackId : UInt8} {taken : List WaitRound} {rx rx' : RxComplete}
    {rounds : List AnswerRound} {waited : Result × List UInt8}
    (h : waitAnswers ackId nackId taken rx rounds = some (waited, rx')) :
    rx' = rounds.foldl (fun rx round => round.source.leaves rx) rx := by
  induction rounds generalizing taken rx with
  | nil => cases h
  | cons round rounds ih =>
      rw [waitAnswers] at h
      split at h
      case h_1 =>
        split at h
        case isTrue hlast =>
          cases h
          rw [List.isEmpty_iff.mp hlast]
          rfl
        case isFalse => cases h
      case h_2 => exact ih h

theorem run_armed_leaves {x : SyncExchange} {cmd : Command} {rx rx' : RxComplete}
    {waited : Option (Result × List UInt8)} (h : x.run cmd (armed rx) = some (waited, rx')) :
    rx' = ⟨unread x, cmdSetMode, (rx.completeAll (answers x)).buffer, rx.bufferSize,
      (rx.completeAll (answers x)).dataSize⟩ := by
  cases x with
  | notSent answers | noBuffer answers =>
      have hcompleted := completeAll_eq rx answers cmdSetMode 0
      cases h
      rw [unread, ← Nat.zero_add answers.length]
      exact hcompleted
  | waited rounds =>
      obtain ⟨⟨result, rx'⟩, hwait, hpair⟩ := Option.map_eq_some_iff.mp h
      cases hpair
      exact (waitAnswers_leaves hwait).trans (foldl_leaves rounds rx cmdSetMode 0)

/-- The call leaves `rx_complete` as it was just when the condition on it holds. -/
theorem eq_self_iff_undisturbed {x : SyncExchange} {cmd : Command} {rx rx' : RxComplete}
    {waited : Option (Result × List UInt8)} (h : x.run cmd (armed rx) = some (waited, rx')) :
    rx' = rx ↔ Undisturbed x rx := by
  rw [run_armed_leaves h]
  constructor
  · intro heq
    have hbuffer := congrArg RxComplete.buffer heq
    have hdataSize := congrArg RxComplete.dataSize heq
    dsimp only at hbuffer hdataSize
    refine ⟨(congrArg RxComplete.id heq).symm, (congrArg RxComplete.done heq).symm, ?_⟩
    refine (completeAll_eq rx (answers x) rx.id rx.done).trans ?_
    rw [hbuffer, hdataSize]
  · intro hrx
    rw [hrx.stored, ← hrx.done, ← hrx.id]

/-! ### The exchange -/

theorem isSome_packSetMode (mode : SetMode) :
    (packSetMode mode).isSome = (convertBaudrateMode mode.baudrate).isSome :=
  Option.isSome_map

theorem runSetSync_of_requests (mode : SetMode) (h : Requests env mode.baudrate)
    (rx : RxComplete) :
    ∃ data, setModeCommand.runSetSync env rx (packSetMode mode) =
      (env.exchange.run setModeCommand (armed rx)).map fun (waited, rx) =>
        (setModeCommand.finished env data waited, rx) := by
  have hsome := h.supported
  rw [← isSome_packSetMode mode, Option.isSome_iff_exists] at hsome
  obtain ⟨payload, hpack⟩ := hsome
  have hmin : cmdMinLength ≤ setModeCommand.reqDataSize := by decide
  have hmax : setModeCommand.reqDataSize ≤ cmdMaxLength := by decide
  obtain ⟨m, hid, hrequest⟩ := Command.packRequest_eq hmin hmax payload env.reqMsg
  have hdata : (rx.setId m.encode).initCompletion = armed rx := by
    rw [RxComplete.setId, Message.byteAt_encode_two, hid]
    rfl
  refine ⟨m.encode, ?_⟩
  rw [Command.runSetSync.eq_def, if_neg (not_not.mpr h.allocated), hpack]
  dsimp only
  rw [hrequest]
  dsimp only
  rw [if_neg (not_not.mpr rfl), if_neg (not_not.mpr h.down), hdata]

theorem runSetSync_of_not_requests (mode : SetMode) (h : ¬ Requests env mode.baudrate)
    (rx : RxComplete) :
    setModeCommand.runSetSync env rx (packSetMode mode) = some (.notSent, rx) := by
  rw [Command.runSetSync.eq_def]
  by_cases hallocated : env.allocated = true
  · rw [if_neg (not_not.mpr hallocated)]
    cases hpack : packSetMode mode with
    | none => rfl
    | some payload =>
        have hdown : env.down ≠ true := fun hdown =>
          h ⟨by rw [← isSome_packSetMode, hpack]; rfl, hallocated, hdown⟩
        dsimp only
        rw [if_pos hdown]
        exact ite_self _
  · rw [if_pos hallocated]

/-! ### The call -/

theorem neg_eio_ne_zero : -eio ≠ 0 := by decide

/-- The call by what the command comes to. -/
theorem uniqueCanSetMode_eq (env : SyncEnv) (d : CanDev υ) (baudrate : ℤ) (silent : Bool) :
    uniqueCanSetMode env d baudrate silent =
      (setModeCommand.runSetSync env d.dev.rxComplete (packSetMode ⟨silent, false, baudrate⟩)).map
        fun (outcome, rx) => (if outcome.executed then 0 else -eio,
          { dev := { d.dev with rxComplete := rx }
            txTransferMaxToken := if maxToken baudrate > 0 then maxToken baudrate else 1 }) := by
  rw [uniqueCanSetMode]
  dsimp only
  generalize setModeCommand.runSetSync env d.dev.rxComplete
    (packSetMode ⟨silent, false, baudrate⟩) = result
  rcases result with _ | ⟨⟨result, success, request⟩, rx⟩
  · rfl
  · cases result <;> rcases success with _ | _ | _ <;> rfl

theorem executed_finished {waited : Option (Result × List UInt8)} {data : List UInt8} :
    (setModeCommand.finished env data waited).executed = true ↔
      ∃ result ∈ waited, setModeCommand.finishSet result env.respMsg = (.success, some true) := by
  cases waited with
  | none => exact iff_of_false Bool.false_ne_true fun ⟨_, hmem, _⟩ => by cases hmem
  | some result =>
      rw [Command.finished, SetOutcome.executed, decide_eq_true_iff]
      constructor
      · rintro ⟨hresult, hsuccess⟩
        exact ⟨result, rfl, Prod.ext hresult hsuccess⟩
      · rintro ⟨_, ⟨⟩, hfinish⟩
        rw [hfinish]
        exact ⟨rfl, rfl⟩

/-- What a call that fails has to leave alone. -/
theorem failed_eq_self_iff (d : CanDev υ) (rx' : RxComplete) (token : ℤ) :
    ({ dev := { d.dev with rxComplete := rx' }, txTransferMaxToken := token } : CanDev υ) = d ↔
      d.txTransferMaxToken = token ∧ rx' = d.dev.rxComplete := by
  obtain ⟨dev, previous⟩ := d
  rw [CanDev.mk.injEq, and_comm, eq_comm (a := token)]
  refine and_congr_right fun _ => ⟨fun h => congrArg Dev.rxComplete h, ?_⟩
  rintro rfl
  rfl

theorem acknowledged_iff (hrequests : Requests env baudrate) {rx' : RxComplete}
    {waited : Option (Result × List UInt8)} (data : List UInt8)
    (hexchange : env.exchange.run setModeCommand (armed rx) = some (waited, rx')) :
    Acknowledged env rx baudrate ↔ (setModeCommand.finished env data waited).executed = true := by
  rw [executed_finished]
  constructor
  · rintro ⟨-, result, rx'', hrun, hfinish⟩
    rw [hexchange] at hrun
    cases hrun
    exact ⟨result, rfl, hfinish⟩
  · rintro ⟨result, rfl, hfinish⟩
    exact ⟨hrequests, result, rx', hexchange, hfinish⟩

/-- A call that has returned. -/
theorem forall_returned_iff {ret : ℤ} {d d' : CanDev υ} :
    (∀ ret' e, some (ret, d') = some (ret', e) → ret' ≠ 0 → e = d) ↔ (ret ≠ 0 → d' = d) := by
  constructor
  · intro h
    exact h ret d' rfl
  · rintro h ret' e ⟨⟩
    exact h

/-- The tokens are stored before anything is checked, and the request replaces the id and the
completion: a call that fails is clean just when both were the same before it. -/
theorem failsCleanly_iff {υ : Type} {env : SyncEnv} {d : CanDev υ} {baudrate : ℤ} {silent : Bool}
    (hreturns : (uniqueCanSetMode env d baudrate silent).isSome) :
    FailsCleanly env d baudrate silent ↔
      (-2 ^ 21 ≤ baudrate ∧ baudrate < 2 ^ 21) ∧
        (Acknowledged env d.dev.rxComplete baudrate ∨
          d.txTransferMaxToken = max 1 (baudrate / 125) ∧
            (Requests env baudrate → Undisturbed env.exchange d.dev.rxComplete)) := by
  rw [FailsCleanly, and_comm, isInt_transferBits_iff]
  refine and_congr_right fun hproduct => ?_
  rw [uniqueCanSetMode_eq, tokens_eq (isInt_transferBits_iff.mpr hproduct)] at hreturns ⊢
  by_cases hrequests : Requests env baudrate
  · obtain ⟨data, hrun⟩ := runSetSync_of_requests ⟨silent, false, baudrate⟩ hrequests
      d.dev.rxComplete
    rw [hrun] at hreturns ⊢
    rw [Option.isSome_map, Option.isSome_map] at hreturns
    obtain ⟨⟨waited, rx'⟩, hexchange⟩ := Option.isSome_iff_exists.mp hreturns
    simp only [hexchange, Option.map_some]
    rw [forall_prop_of_true hrequests, ← eq_self_iff_undisturbed hexchange, ← failed_eq_self_iff,
      forall_returned_iff, acknowledged_iff hrequests data hexchange]
    by_cases hexecuted : (setModeCommand.finished env data waited).executed = true
    · rw [if_pos hexecuted]
      exact iff_of_true (fun h => absurd rfl h) (.inl hexecuted)
    · rw [if_neg hexecuted, or_iff_right hexecuted]
      exact forall_prop_of_true neg_eio_ne_zero
  · have hacknowledged : ¬ Acknowledged env d.dev.rxComplete baudrate :=
      fun h => hrequests h.toRequests
    rw [runSetSync_of_not_requests ⟨silent, false, baudrate⟩ hrequests, Option.map_some,
      forall_returned_iff, or_iff_right hacknowledged, failed_eq_self_iff]
    refine (forall_prop_of_true neg_eio_ne_zero).trans ?_
    exact and_congr_right fun _ => iff_of_true rfl fun h => absurd h hrequests

/-- The device refuses the mode. -/
def refusal : List UInt8 × Msg :=
  ([0xF7, 0x05, cmdNACK, cmdSetMode, 0xFA],
    { Msg.zero.copyPayload [cmdSetMode] with id := cmdNACK, payloadSize := 1 })

/-- A call for 500 kbps after one that was refused as well. -/
def refusedAgain : SyncEnv × CanDev Unit :=
  (⟨true, true, .waited [⟨.reception [refusal], .zero, true⟩], .zero, .zero⟩,
    ⟨{ Dev.probed 0 0 0 ⟨0, 0⟩ () with
      rxComplete := ⟨0, cmdSetMode, refusal.1 ++ List.replicate 1019 0, rxBufferSize, 5⟩ }, 4⟩)

theorem failsCleanly_refusedAgain :
    FailsCleanly refusedAgain.1 refusedAgain.2 500 false := by
  have hreturns : (uniqueCanSetMode refusedAgain.1 refusedAgain.2 500 false).isSome := by
    decide +kernel
  refine (failsCleanly_iff hreturns).mpr ⟨by decide, .inr ⟨by decide, fun _ => ⟨rfl, rfl, ?_⟩⟩⟩
  decide +kernel

/-- A rate that the unit does not support is refused, with forty tokens instead of four. -/
theorem not_failsCleanly_unsupported :
    (uniqueCanSetMode ⟨true, true, .waited [], .zero, .zero⟩ ⟨.probed 0 0 0 ⟨0, 0⟩ (), 4⟩ 5000
      false).map Prod.fst = some (-eio) ∧
    ¬ FailsCleanly ⟨true, true, .waited [], .zero, .zero⟩ ⟨.probed 0 0 0 ⟨0, 0⟩ (), 4⟩ 5000
      false := by
  have hreturns : (uniqueCanSetMode (υ := Unit) ⟨true, true, .waited [], .zero, .zero⟩
      ⟨.probed 0 0 0 ⟨0, 0⟩ (), 4⟩ 5000 false).map (fun r => (r.1, r.2.txTransferMaxToken)) =
        some (-eio, 40) := by decide
  obtain ⟨⟨ret, d'⟩, hcall, hpair⟩ := Option.map_eq_some_iff.mp hreturns
  obtain ⟨rfl, htoken⟩ := Prod.mk.inj hpair
  refine ⟨by rw [hcall]; rfl, fun h => ?_⟩
  have hunchanged := congrArg CanDev.txTransferMaxToken (h.1 _ d' hcall neg_eio_ne_zero)
  rw [htoken] at hunchanged
  exact absurd hunchanged (by decide)

end AptUsbtrx.ApCt2a
