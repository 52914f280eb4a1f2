import AptUsbtrx.Model.SendMsg
import AptUsbtrx.Shared.Execution
import AptUsbtrx.Shared.Semaphore
import AptUsbtrx.Verification.Command.Response

/-! # One command at a time

`send_msg_sem` admits one command between the `down` of `apt_usbtrx_send_msg_sync` and the `up`
that ends its wait, whatever becomes of the commands. -/

namespace AptUsbtrx

open Memory Execution

namespace CmdPc

/-- Before the `down` has returned. -/
def early : CmdPc → Bool
  | checkArgs | allocReq | allocResp | pack | down => true
  | _ => false

/-- The id of the request is in `rx_complete.id`, and the `up` is still to come. -/
def waits : CmdPc → Bool
  | initCompletion | send | upAfterSend | allocBuf | wait _ | upAfterWait _ => true
  | _ => false

/-- Between the `down` and the `up`. -/
def holds (pc : CmdPc) : Prop := pc = setId ∨ pc.waits = true

theorem not_holds_of_early {pc : CmdPc} (h : pc.early = true) : ¬ pc.holds := by
  cases pc <;> simp_all [early, holds, waits]

end CmdPc

namespace CmdCall

/-- What a statement does, as far as the semaphore and the id of the completion go. -/
inductive Moves (ch : MsgChannel) (call : CmdCall) : MsgChannel → CmdCall → Prop where
  | outside {call' : CmdCall} (hpc : ¬ call.pc.holds) (hpc' : ¬ call'.pc.holds)
      (hearly : call'.pc.early = true → call.pc.early = true) (hcmd : call'.cmd = call.cmd)
      (hdowns : call'.downs = call.downs) (hups : call'.ups = call.ups)
      (hreq : call'.pc = .down → byteAt call'.reqData 2 = call'.cmd.reqCmdId) :
      Moves ch call ch call'
  | take (hpc : call.pc = .down) (hsem : 0 < ch.sendMsgSem) :
      Moves ch call { ch with sendMsgSem := ch.sendMsgSem - 1 }
        { call with pc := .setId, downs := call.downs + 1 }
  | setId (hpc : call.pc = .setId) :
      Moves ch call { ch with rxComplete := ch.rxComplete.setId call.reqData }
        (call.goto .initCompletion)
  | inside {ch' : MsgChannel} {pc' : CmdPc} (hpc : call.pc.waits = true)
      (hpc' : pc'.waits = true) (hsem : ch'.sendMsgSem = ch.sendMsgSem)
      (hid : ch'.rxComplete.id = ch.rxComplete.id) : Moves ch call ch' (call.goto pc')
  | give {pc' : CmdPc} (hpc : call.pc.waits = true) (hpc' : ¬ pc'.holds)
      (hlate : pc'.early = false) :
      Moves ch call ch.up { call with pc := pc', ups := call.ups + 1 }

/-- The third byte of a packed message is its id. -/
theorem byteAt_msgPack {msg : Msg} {data : List UInt8} {n : ℕ} (hn : n ≤ data.length)
    (h : (msgPack msg data n).1 = .success) : byteAt (msgPack msg data n).2 2 = msg.id := by
  rw [msgPack] at h ⊢
  by_cases hfit : payloadLengthToMsg msg.payloadSize.toNat > n
  · rw [if_pos hfit] at h
    cases h
  · rw [if_neg hfit]
    simp only [payloadLengthToMsg] at hfit
    have hcopied : 0 ≤ 2 ∧ 2 < 0 + ([msgSob, UInt8.ofNat (payloadLengthToMsg msg.payloadSize.toNat),
        msg.id] ++ msg.payload.take msg.payloadSize.toNat ++ [msgEob]).length ∧
        2 < data.length := by
      refine ⟨Nat.zero_le _, ?_, by omega⟩
      simp only [List.length_append, List.length_cons, List.length_nil]
      omega
    rw [byteAt, List.getD_eq_getElem?_getD, getElem?_overwrite, if_pos hcopied]
    rfl

theorem byteAt_packRequest {cmd : Command} {payload : List UInt8} {msg : Msg}
    (h : (cmd.packRequest payload msg).1 = .success) :
    byteAt (cmd.packRequest payload msg).2 2 = cmd.reqCmdId :=
  byteAt_msgPack (by rw [List.length_replicate]) h

/-- The rounds of the wait stay in the wait or end it. -/
theorem step_moves_round {ch ch' : MsgChannel} {call call' : CmdCall} {input : WaitInput}
    {msg : Msg} {inTime : Bool} (h : call.step ch (.round input msg inTime) = some (ch', call')) :
    Moves ch call ch' call' := by
  simp only [step] at h
  split at h
  case h_1 rounds hpc =>
    have hsem : (ch.consume input).sendMsgSem = ch.sendMsgSem := by cases input <;> rfl
    have hid : (ch.consume input).rxComplete.id = ch.rxComplete.id := by cases input <;> rfl
    split at h
    case isTrue =>
      split at h
      all_goals
        cases h
        exact .inside (by rw [hpc]; rfl) rfl hsem hid
    case isFalse => exact absurd h (by simp)
  case h_2 => exact absurd h (by simp)

theorem step_moves_pack {ch ch' : MsgChannel} {call call' : CmdCall} {ok : Bool}
    {payload : List UInt8} {msg : Msg} (h : call.step ch (.pack ok payload msg) = some (ch', call')) :
    Moves ch call ch' call' := by
  simp only [step] at h
  split at h
  case h_1 hpc =>
    have hout : ¬ call.pc.holds := CmdPc.not_holds_of_early (by rw [hpc]; rfl)
    have hearly : call.pc.early = true := by rw [hpc]; rfl
    have hfail : Moves ch call ch call.fail :=
      .outside hout (by simp [fail, goto, CmdPc.holds, CmdPc.waits]) (fun _ => hearly) rfl rfl rfl
        (by simp [fail, goto])
    split at h
    case isTrue =>
      cases h
      exact hfail
    split at h
    case isFalse.isTrue =>
      cases h
      exact hfail
    case isFalse.isFalse hresult =>
      cases h
      exact .outside hout (CmdPc.not_holds_of_early rfl) (fun _ => hearly) rfl rfl rfl
        fun _ => byteAt_packRequest (not_not.mp hresult)
  case h_2 => exact absurd h (by simp)

theorem step_moves_advance {ch ch' : MsgChannel} {call call' : CmdCall} {ok : Bool}
    (h : call.step ch (.advance ok) = some (ch', call')) : Moves ch call ch' call' := by
  simp only [step] at h
  have hout (pc : CmdPc) (hpc : ¬ pc.holds) (hdown : pc ≠ .down) (hearly : call.pc.early = true) :
      Moves ch call ch (call.goto pc) :=
    .outside (CmdPc.not_holds_of_early hearly) hpc (fun _ => hearly) rfl rfl rfl
      fun hpc' => absurd hpc' hdown
  split at h
  case h_1 hpc | h_2 hpc | h_3 hpc =>
    cases h
    cases ok <;> exact hout _ (by simp [CmdPc.holds, CmdPc.waits]) (by simp) (by rw [hpc]; rfl)
  case h_4 hpc =>
    split at h
    case isTrue =>
      cases h
      exact hout _ (by simp [CmdPc.holds, CmdPc.waits]) (by simp) (by rw [hpc]; rfl)
    split at h
    case isFalse.isTrue hsem =>
      cases h
      exact .take hpc hsem
    case isFalse.isFalse => exact absurd h (by simp)
  case h_5 hpc =>
    cases h
    exact .setId hpc
  case h_6 hpc =>
    cases h
    exact .inside (by rw [hpc]; rfl) rfl rfl rfl
  case h_7 hpc | h_9 hpc =>
    cases h
    cases ok <;> exact .inside (by rw [hpc]; rfl) rfl rfl rfl
  case h_8 hpc =>
    cases h
    exact .give (by rw [hpc]; rfl) (by simp [fail, goto, CmdPc.holds, CmdPc.waits]) rfl
  case h_10 waited hpc =>
    cases h
    by_cases hwaited : waited.1 = .success
    · rw [if_pos hwaited]
      exact .give (by rw [hpc]; rfl) (by simp [CmdPc.holds, CmdPc.waits]) rfl
    · rw [if_neg hwaited]
      exact .give (by rw [hpc]; rfl) (by simp [CmdPc.holds, CmdPc.waits]) rfl
  case h_11 => exact absurd h (by simp)

/-- Every statement makes one of the moves. -/
theorem step_moves {ch ch' : MsgChannel} {call call' : CmdCall} {label : CmdLabel}
    (h : call.step ch label = some (ch', call')) : Moves ch call ch' call' := by
  cases label with
  | advance ok => exact step_moves_advance h
  | pack ok payload msg => exact step_moves_pack h
  | round input msg inTime => exact step_moves_round h
  | parse ok msg =>
      simp only [step] at h
      split at h
      case h_1 stored hpc =>
        cases h
        exact .outside (by rw [hpc]; simp [CmdPc.holds, CmdPc.waits])
          (by simp [goto, CmdPc.holds, CmdPc.waits]) (by simp [goto, CmdPc.early]) rfl rfl rfl
          (by simp [goto])
      case h_2 => exact absurd h (by simp)

/-- The call has taken the semaphore and not given it back. -/
def Holds (call : CmdCall) : Prop := call.pc.holds

/-- What a call did to the semaphore, and the request it packed. -/
structure Ok (call : CmdCall) : Prop where
  downs_le : call.downs ≤ 1
  early : call.pc.early = true → call.downs = 0 ∧ call.ups = 0
  inside : call.pc.holds → call.downs = 1 ∧ call.ups = 0
  late : call.pc.early = false → ¬ call.pc.holds → call.ups = call.downs
  request : call.pc = .down ∨ call.pc.holds → byteAt call.reqData 2 = call.cmd.reqCmdId

theorem ok_start (cmd : Command) : (start cmd).Ok where
  downs_le := Nat.zero_le _
  early _ := ⟨rfl, rfl⟩
  inside h := by simp [start, CmdPc.holds, CmdPc.waits] at h
  late h := by simp [start, CmdPc.early] at h
  request h := by simp [start, CmdPc.holds, CmdPc.waits] at h

theorem Moves.ok {ch ch' : MsgChannel} {call call' : CmdCall} (h : Moves ch call ch' call')
    (hok : call.Ok) : call'.Ok := by
  cases h with
  | outside hpc hpc' hearly hcmd hdowns hups hreq =>
      refine ⟨by rw [hdowns]; exact hok.downs_le, ?_, fun h => absurd h hpc', ?_, ?_⟩
      · intro h
        rw [hdowns, hups]
        exact hok.early (hearly h)
      · intro _ _
        rw [hdowns, hups]
        cases hcase : call.pc.early with
        | true =>
            obtain ⟨hd, hu⟩ := hok.early hcase
            rw [hd, hu]
        | false => exact hok.late hcase hpc
      · rintro (h | h)
        · exact hreq h
        · exact absurd h hpc'
  | take hpc hsem =>
      have hearly := hok.early (by rw [hpc]; rfl)
      refine ⟨by simp [hearly.1], by simp [CmdPc.early], fun _ => ⟨by simp [hearly.1], hearly.2⟩,
        by simp [CmdPc.holds], fun _ => hok.request (.inl hpc)⟩
  | setId hpc =>
      have hin : call.pc.holds := .inl hpc
      exact ⟨hok.downs_le, by simp [goto, CmdPc.early], fun _ => hok.inside hin,
        by simp [goto, CmdPc.holds, CmdPc.waits], fun _ => hok.request (.inr hin)⟩
  | inside hpc hpc' hsem hid =>
      have hin : call.pc.holds := .inr hpc
      refine ⟨hok.downs_le, fun h => ?_, fun _ => hok.inside hin, fun _ h => ?_,
        fun _ => hok.request (.inr hin)⟩
      · exact absurd (.inr hpc') (CmdPc.not_holds_of_early h)
      · exact absurd (.inr hpc') h
  | give hpc hpc' hlate =>
      have hin := hok.inside (.inr hpc)
      refine ⟨hok.downs_le, by simp [hlate], fun h => absurd h hpc', fun _ _ => ?_, ?_⟩
      · simp [hin.1, hin.2]
      · rintro (h | h)
        · simp only at h
          rw [h] at hlate
          cases hlate
        · exact absurd h hpc'

end CmdCall

namespace CmdSystem

variable {ι : Type}

/-- The invariant of a run: the one slot of the semaphore is free or held by one caller, and the
id of the completion is the request of the caller that waits. -/
structure Ok (s : CmdSystem ι) : Prop where
  balanced : Semaphore.Balanced 1 s.channel.sendMsgSem 0 fun i => (s.calls i).Holds
  calls : ∀ i, (s.calls i).Ok
  id_eq : ∀ i, (s.calls i).pc.waits = true →
    s.channel.rxComplete.id = byteAt (s.calls i).reqData 2

theorem ok_start (rx : RxComplete) (ongoing : Bool) (cmds : ι → Command) :
    (start rx ongoing cmds).Ok where
  balanced := Semaphore.balanced_of_none
    (fun _ => CmdPc.not_holds_of_early rfl) rfl
  calls i := CmdCall.ok_start (cmds i)
  id_eq i h := by simp [start, CmdCall.start, CmdPc.waits] at h

/-- A caller that holds the semaphore is alone in its section. -/
theorem Ok.alone {s : CmdSystem ι} (h : s.Ok) {i j : ι} (hi : (s.calls i).pc.holds)
    (hj : (s.calls j).pc.holds) : i = j := h.balanced.unique hi hj

variable [DecidableEq ι]

theorem Ok.balanced_call {s : CmdSystem ι} (h : s.Ok) {i : ι} {ch' : MsgChannel}
    {call' : CmdCall} (hmove : CmdCall.Moves s.channel (s.calls i) ch' call') :
    Semaphore.Balanced 1 ch'.sendMsgSem 0
      fun j => (Function.update s.calls i call' j).Holds := by
  cases hmove with
  | outside hpc hpc' => exact Semaphore.update_stay h.balanced (iff_of_false hpc' hpc) rfl
  | take hpc hsem =>
      have hout : ¬ (s.calls i).Holds := CmdPc.not_holds_of_early (by rw [hpc]; rfl)
      exact Semaphore.update_take h.balanced hout (.inl rfl) (by simp only; omega)
  | setId hpc => exact Semaphore.update_stay h.balanced (iff_of_true (.inr rfl) (.inl hpc)) rfl
  | inside hpc hpc' hsem =>
      exact Semaphore.update_stay h.balanced (iff_of_true (.inr hpc') (.inr hpc)) (by rw [hsem])
  | give hpc hpc' =>
      exact Semaphore.update_give h.balanced (.inr hpc) hpc' (by simp only [MsgChannel.up])

/-- Nobody stores the id of the completion while a caller waits. -/
theorem Ok.id_eq_call {s : CmdSystem ι} (h : s.Ok) {i : ι} {ch' : MsgChannel}
    {call' : CmdCall} (hmove : CmdCall.Moves s.channel (s.calls i) ch' call') {j : ι}
    (hj : (Function.update s.calls i call' j).pc.waits = true) :
    ch'.rxComplete.id = byteAt (Function.update s.calls i call' j).reqData 2 := by
  by_cases hji : j = i
  · rw [hji, Function.update_self] at hj ⊢
    cases hmove with
    | outside hpc hpc' => exact absurd (.inr hj) hpc'
    | take => cases hj
    | setId => rfl
    | inside hpc hpc' hsem hid => exact hid.trans (h.id_eq i hpc)
    | give hpc hpc' => exact absurd (.inr hj) hpc'
  · rw [Function.update_of_ne hji] at hj ⊢
    have hkept := h.id_eq j hj
    cases hmove with
    | outside | take | give => exact hkept
    | setId hpc => exact absurd (h.alone (.inr hj) (.inl hpc)) hji
    | inside hpc hpc' hsem hid => exact hid.trans hkept

theorem Ok.call {s : CmdSystem ι} (h : s.Ok) {i : ι} {ch' : MsgChannel} {call' : CmdCall}
    (hmove : CmdCall.Moves s.channel (s.calls i) ch' call') :
    Ok ⟨ch', Function.update s.calls i call'⟩ := by
  refine ⟨h.balanced_call hmove, ?_, fun j => h.id_eq_call hmove⟩
  intro j
  by_cases hj : j = i
  · rw [hj]
    simp only [Function.update_self]
    exact hmove.ok (h.calls i)
  · simp only [Function.update_of_ne hj]
    exact h.calls j

theorem Ok.step {s s' : CmdSystem ι} {label : SystemLabel ι} (h : s.Ok)
    (hstep : s.step label = some s') : s'.Ok := by
  cases label with
  | call i label =>
      simp only [CmdSystem.step, Option.map_eq_some_iff] at hstep
      obtain ⟨⟨ch', call'⟩, hcall, rfl⟩ := hstep
      exact h.call (CmdCall.step_moves hcall)
  | complete data msg =>
      simp only [CmdSystem.step] at hstep
      split at hstep
      case isTrue =>
        cases hstep
        exact ⟨h.balanced, h.calls, h.id_eq⟩
      case isFalse => cases hstep
  | setRxOngoing ongoing =>
      cases hstep
      exact ⟨h.balanced, h.calls, h.id_eq⟩

/-- The invariant holds along every run. -/
theorem ok_of_exec {rx : RxComplete} {ongoing : Bool} {cmds : ι → Command}
    {labels : List (SystemLabel ι)} {s : CmdSystem ι}
    (h : exec CmdSystem.step (start rx ongoing cmds) labels = some s) : s.Ok :=
  exec_invariant (fun _ _ _ hok hstep => hok.step hstep) (ok_start rx ongoing cmds) h

/-- A caller between its `down` and its `up` is never blocked. -/
theorem Ok.holder_moves {s : CmdSystem ι} {i : ι} (h : (s.calls i).pc.holds) :
    ∃ label s', s.step (.call i label) = some s' := by
  have hadvance : ∀ ok, ((s.calls i).step s.channel (.advance ok)).isSome →
      ∃ label s', s.step (.call i label) = some s' := by
    intro ok hok
    obtain ⟨result, hresult⟩ := Option.isSome_iff_exists.mp hok
    refine ⟨.advance ok, ⟨result.1, Function.update s.calls i result.2⟩, ?_⟩
    rw [CmdSystem.step, hresult]
    rfl
  cases hpc : (s.calls i).pc with
  | checkArgs | allocReq | allocResp | pack | down | parse _ | returned _ =>
      rw [hpc] at h
      simp [CmdPc.holds, CmdPc.waits] at h
  | wait rounds =>
      cases hongoing : s.channel.rxOngoing with
      | true =>
          refine ⟨.round .timeout Msg.zero true, ?_⟩
          simp only [CmdSystem.step, CmdCall.step, hpc, MsgChannel.offers, hongoing, if_true]
          split <;> exact ⟨_, rfl⟩
      | false =>
          refine ⟨.round .bulkError Msg.zero true, ?_⟩
          simp only [CmdSystem.step, CmdCall.step, hpc, MsgChannel.offers, hongoing, Bool.not_false,
            if_true]
          split <;> exact ⟨_, rfl⟩
  | setId | initCompletion | send | upAfterSend | allocBuf | upAfterWait _ =>
      exact hadvance true (by simp [CmdCall.step, hpc])

/-- In every run at most one caller is between its `down` and its `up`; a call gives the
semaphore back exactly once when it has taken it, however it returns; and while a caller waits,
`rx_complete.id` is the id of its request. -/
theorem exclusive {rx : RxComplete} {ongoing : Bool} {cmds : ι → Command}
    {labels : List (SystemLabel ι)} {s : CmdSystem ι}
    (h : exec CmdSystem.step (start rx ongoing cmds) labels = some s) :
    (∀ i j, (s.calls i).pc.holds → (s.calls j).pc.holds → i = j) ∧
      (∀ i, (s.calls i).pc.holds → (s.calls i).downs = 1 ∧ (s.calls i).ups = 0) ∧
      (∀ i result, (s.calls i).pc = .returned result →
        (s.calls i).downs ≤ 1 ∧ (s.calls i).ups = (s.calls i).downs) ∧
      ∀ i, (s.calls i).pc.waits = true → s.channel.rxComplete.id = (s.calls i).cmd.reqCmdId := by
  have hok := ok_of_exec h
  refine ⟨fun i j hi hj => hok.alone hi hj, fun i hi => (hok.calls i).inside hi, ?_, ?_⟩
  · intro i result hpc
    have hlate : (s.calls i).pc.early = false := by rw [hpc]; rfl
    have hout : ¬ (s.calls i).pc.holds := by rw [hpc]; simp [CmdPc.holds, CmdPc.waits]
    exact ⟨(hok.calls i).downs_le, (hok.calls i).late hlate hout⟩
  · intro i hi
    rw [hok.id_eq i hi, (hok.calls i).request (.inr (.inr hi))]

/-- A reset that times out while another command waits for the semaphore. -/
def timeoutRun : List (SystemLabel Bool) :=
  [.call true (.advance true), .call true (.advance true), .call true (.advance true),
    .call true (.pack true [] Msg.zero), .call false (.advance true), .call false (.advance true),
    .call false (.advance true), .call true (.advance true), .call true (.advance true),
    .call false (.pack true [] Msg.zero), .call true (.advance true), .call true (.advance true),
    .call true (.advance true), .call true (.round .timeout Msg.zero true),
    .call true (.advance true), .call false (.advance true), .call false (.advance true)]

/-- The two commands. -/
def timeoutCmds : Bool → Command
  | true => ⟨cmdResetTS, 4, cmdLengthACK, cmdACK, cmdNACK⟩
  | false => ⟨cmdGetFWVersion, 4, 6, cmdResponseGetFWVersion, cmdUnknown⟩

theorem exclusive_timeoutRun : ∃ s : CmdSystem Bool,
    exec CmdSystem.step
        (start ⟨0, 0, List.replicate rxBufferSize 0, rxBufferSize, 0⟩ true timeoutCmds)
        timeoutRun = some s ∧
      ((s.calls true).pc.holds → (s.calls false).pc.holds → true = false) ∧
      ((s.calls false).pc.holds → (s.calls false).downs = 1 ∧ (s.calls false).ups = 0) := by
  have hrun : (exec CmdSystem.step
      (start ⟨0, 0, List.replicate rxBufferSize 0, rxBufferSize, 0⟩ true timeoutCmds)
      timeoutRun).isSome = true := by decide +kernel
  obtain ⟨s, hs⟩ := Option.isSome_iff_exists.mp hrun
  exact ⟨s, hs, (exclusive hs).1 true false, (exclusive hs).2.1 false⟩

end CmdSystem

end AptUsbtrx
