import AptUsbtrx.Model.Ep1Cf02a
import AptUsbtrx.Verification.Command.Conformance

/-! # Commands of the EP1-CF02A

The commands of the unit, and a run in which a command returns the response to an earlier
one. -/

namespace AptUsbtrx

open Memory Execution

namespace Ep1Cf02a

/-- The commands that wait for a response. -/
def commands : List Command :=
  setCommands ++ baseCommands ++
    [GetCmd.silentMode, .fdMode, .isoMode, .bitTiming, .dataBitTiming, .txRxControl, .canClock,
      .deviceTimestampResetTime, .rtcTime, .currentStoreDataState, .storeDataIdListCount,
      .storeDataId 0, .storeDataMeta [], .storeDataRxControl, .storeEnable, .storeMaxDuration,
      .capabilities, .canStatistics].map GetCmd.command

theorem command_mem_commands (cmd : GetCmd) : cmd.command ∈ commands := by
  refine List.mem_append_right _ ?_
  cases cmd with
  | storeDataId index => exact List.mem_map.mpr ⟨.storeDataId 0, by simp, rfl⟩
  | storeDataMeta id => exact List.mem_map.mpr ⟨.storeDataMeta [], by simp, rfl⟩
  | _ => exact List.mem_map_of_mem (by simp)

/-- The completion after a message, and what the dispatcher leaves alone. -/
theorem dispatchMsg_frame (dev : Dev UniqueData) (data : List UInt8) (msg : Msg) :
    (dispatchMsg dev data msg).1.rxComplete =
        (if responseCases.lookup msg.id = some dev.rxComplete.id then
          dev.rxComplete.complete data msg
        else dev.rxComplete) ∧
      (dispatchMsg dev data msg).1.rxTransfer = dev.rxTransfer ∧
      (dispatchMsg dev data msg).1.rxOngoing = dev.rxOngoing ∧
      (dispatchMsg dev data msg).1.onclosing = dev.onclosing := by
  rw [dispatchMsg]
  by_cases hframe : msg.id = cmdNotifyRecvCANFrame
  · have hlookup : responseCases.lookup msg.id = none := by
      rw [hframe]
      rfl
    rw [if_pos hframe, hlookup]
    by_cases hfile : dev.uniqueData.ifType = .file
    · rw [if_pos hfile]
      exact ⟨rfl, rfl, rfl, rfl⟩
    · rw [if_neg hfile]
      exact ⟨rfl, rfl, rfl, rfl⟩
  rw [if_neg hframe]
  by_cases hstore : msg.id = cmdNotifyStoreDataRecvCanFrame
  · have hlookup : responseCases.lookup msg.id = none := by
      rw [hstore]
      rfl
    rw [if_pos hstore, hlookup]
    exact ⟨rfl, rfl, rfl, rfl⟩
  rw [if_neg hstore]
  by_cases hcomplete : msg.id = cmdNotifyStoreDataRecvCanFrameComplete
  · have hlookup : responseCases.lookup msg.id = none := by
      rw [hcomplete]
      rfl
    rw [if_pos hcomplete, hlookup]
    exact ⟨rfl, rfl, rfl, rfl⟩
  rw [if_neg hcomplete]
  cases responseCases.lookup msg.id with
  | none => exact ⟨rfl, rfl, rfl, rfl⟩
  | some requestId =>
      simp only [dispatchMsgCommonResponse, Option.some.injEq]
      by_cases hid : dev.rxComplete.id = requestId
      · rw [if_pos hid, if_pos hid.symm]
        exact ⟨rfl, rfl, rfl, rfl⟩
      · rw [if_neg hid, if_neg (Ne.symm hid)]
        exact ⟨rfl, rfl, rfl, rfl⟩

/-- The unit as the commands see it. -/
def protocol : Protocol UniqueData where
  dispatch := dispatchMsg
  requestOf id := responseCases.lookup id
  commands := commands
  rxComplete_eq dev data msg := (dispatchMsg_frame dev data msg).1
  rxTransfer_eq dev data msg := (dispatchMsg_frame dev data msg).2.1
  rxOngoing_eq dev data msg := (dispatchMsg_frame dev data msg).2.2.1
  onclosing_eq dev data msg := (dispatchMsg_frame dev data msg).2.2.2
  reqDataSize_bounds := by decide

/-! ### The decoders -/

theorem le16_take {data : List UInt8} {i n : ℕ} (h : i + 2 ≤ n) :
    le16 (data.take n) i = le16 data i := by
  rw [le16, le16, byteAt_take (by omega), byteAt_take (by omega)]

theorem le32_take {data : List UInt8} {i n : ℕ} (h : i + 4 ≤ n) :
    le32 (data.take n) i = le32 data i := by
  rw [le32, le32, le16_take (by omega), byteAt_take (by omega), byteAt_take (by omega)]

theorem le32Signed_take {data : List UInt8} {i n : ℕ} (h : i + 4 ≤ n) :
    le32Signed (data.take n) i = le32Signed data i :=
  congrArg (fun v : ℕ => (v : ℤ).bmod (2 ^ 32)) (le32_take h)

theorem le64_take {data : List UInt8} {i n : ℕ} (h : i + 8 ≤ n) :
    le64 (data.take n) i = le64 data i := by
  rw [le64, le64, le32_take (by omega), le32_take (by omega)]

/-- The decoders look at the payload bytes of the documented length only. -/
theorem parseResp_take (cmd : GetCmd) {data : List UInt8} {n : ℕ}
    (h : cmd.command.respDataSize ≤ n + 4) : cmd.parseResp (data.take n) = cmd.parseResp data := by
  cases cmd with
  | silentMode | fdMode | isoMode | txRxControl | storeEnable =>
      simp only [GetCmd.command, GetCmd.getCommon] at h
      simp (disch := omega) only [GetCmd.parseResp, parseResponseGetSilentMode,
        parseResponseGetFdMode, parseResponseGetIsoMode, parseResponseGetTxRxControl,
        parseResponseGetStoreEnable, byteAt_take]
      rfl
  | bitTiming | dataBitTiming =>
      simp only [GetCmd.command, GetCmd.getCommon] at h
      simp (disch := omega) only [GetCmd.parseResp, parseResponseGetDataBitTiming,
        parseResponseGetBitTiming, le16_take]
      rfl
  | canClock | storeDataIdListCount | storeMaxDuration | capabilities =>
      simp only [GetCmd.command, GetCmd.getCommon] at h
      simp (disch := omega) only [GetCmd.parseResp, parseResponseGetCanClock,
        parseResponseGetStoreDataIdListCount, parseResponseGetStoreMaxDuration,
        parseResponseGetCapabilities, le32Signed_take, le32_take, le64_take]
      rfl
  | deviceTimestampResetTime | rtcTime =>
      simp only [GetCmd.command, GetCmd.getCommon] at h
      simp (disch := omega) only [GetCmd.parseResp, parseResponseGetDeviceTimestampResetTime,
        parseTimestamp, parseResponseGetRtcTime, byteAt_take, le32_take]
      rfl
  | currentStoreDataState | storeDataId | storeDataRxControl | canStatistics =>
      simp only [GetCmd.command, GetCmd.getCommon] at h
      simp (disch := omega) only [GetCmd.parseResp, parseResponseGetCurrentStoreDataState,
        parseResponseGetStoreDataId, parseResponseGetStoreDataRxControl,
        parseResponseGetCanStatistics, cmdStoreDataIdMaxLength, byteAt_take, slice_take, le32_take,
        le64_take]
      rfl
  | storeDataMeta =>
      simp only [GetCmd.command] at h
      simp (disch := omega) only [GetCmd.parseResp, parseResponseGetStoreDataMeta,
        parseResponseGetRtcTime, parseTimestamp, byteAt_take, le32Signed_take, le32_take, le64_take]
      rfl

/-- The wait has stored a response of the documented length. -/
theorem finish_encode (cmd : GetCmd) {m : Message} (hm : m.length = cmd.command.respDataSize)
    (msg : Msg) (data : UniqueData) :
    cmd.finish (.success, m.encode) msg data =
      (.success, some (cmd.parseResp m.payload), cmd.update (cmd.parseResp m.payload) data) := by
  obtain ⟨respMsg, hresponse, hmessage⟩ := Command.response_encode hm msg
  have hparse : cmd.parseResp respMsg.payload = cmd.parseResp m.payload := by
    have hpayload : m.payload = respMsg.payload.take respMsg.payloadSize.toNat := by
      rw [← hmessage]
      rfl
    have hlen := m.length_eq
    rw [hpayload]
    refine (parseResp_take cmd ?_).symm
    rw [← hm, hlen, hpayload, List.length_take]
    omega
  rw [GetCmd.finish, Command.finishGet_eq, hresponse]
  simp only [hparse]

/-- The command ends with success and the decoded payload of `m`. -/
def Decodes (cmd : GetCmd) (waited : Result × List UInt8) (m : Message) : Prop :=
  ∀ msg data, cmd.finish waited msg data =
    (.success, some (cmd.parseResp m.payload), cmd.update (cmd.parseResp m.payload) data)

/-- With a device that answers in time a get command that is done has decoded the response
to its own request, and one whose response is delivered is done after the next round. -/
theorem getCmd_decodes_response {dev : Dev UniqueData} (hdev : dev.Ready) {ls : List Label}
    {s : Session UniqueData}
    (hrun : exec (Session.step protocol) (Session.start dev) ls = some s)
    (hconf : AllSteps (Session.step protocol) Session.Conforming (Session.start dev) ls)
    (cmd : GetCmd) :
    (∀ f ∈ s.finished, f.request.cmd = cmd.command →
      ∃ m : Message, ⟨some f.request, m⟩ ∈ s.sent ∧ Decodes cmd f.waited m) ∧
    (∀ a rounds, s.active = some a → a.request.cmd = cmd.command → a.stage = .wait rounds →
      s.pending = [] → s.wire = [] → ∀ msg inTime, ∃ t waited, ∃ m : Message,
        s.step protocol (.round false msg inTime) = some t ∧
        t.finished = s.finished ++ [⟨a.request, a.outstanding, waited⟩] ∧
        ⟨some a.request, m⟩ ∈ s.sent ∧ Decodes cmd waited m) := by
  obtain ⟨hrx, -, hcor, hprompt⟩ := Session.invariants_of_conforming hdev hrun hconf
  constructor
  · intro f hf hcmd
    obtain ⟨m, hm, hexp, hwaited⟩ := hprompt.finished f hf
    rw [hcmd] at hexp
    refine ⟨m, hm, fun msg data => ?_⟩
    rw [hwaited]
    exact finish_encode cmd hexp.length_eq msg data
  · intro a rounds ha hcmd hstage hpending hwire msg inTime
    obtain ⟨t, m, hstep, hm, hexp, hfinished⟩ :=
      Session.round_of_delivered hrx hcor hprompt ha hstage hpending hwire msg inTime
    rw [hcmd] at hexp
    exact ⟨t, _, m, hstep, hfinished, hm, finish_encode cmd hexp.length_eq⟩

theorem ready_probed : probed.Ready := Dev.ready_probed _ _ _ _ _

/-- A buffer status and the response to `GetSilentMode`, in three URBs. -/
def silentModeRun : List Label :=
  [.down GetCmd.silentMode.command [] Msg.zero, .setId, .initCompletion, .send true true,
    .notify ⟨cmdNotifyBufferStatus, [0x10], by decide⟩,
    .respond ⟨cmdResponseGetSilentMode, [0x00], by decide⟩,
    .urb 3 Msg.zero, .urb 6 Msg.zero, .urb 1 Msg.zero, .round false Msg.zero true]

theorem getCmd_decodes_response_silentMode :
    ∃ s, exec (Session.step protocol) (Session.start probed) silentModeRun = some s ∧
      ∃ f ∈ s.finished, ∃ m : Message, ⟨some f.request, m⟩ ∈ s.sent ∧
        Decodes .silentMode f.waited m := by
  have hfinished : (exec (Session.step protocol) (Session.start probed) silentModeRun).map
      Session.finished = some [⟨⟨0, GetCmd.silentMode.command⟩, false,
        (.success, [0xF7, 0x05, 0x61, 0x00, 0xFA])⟩] := by
    decide +kernel
  obtain ⟨s, hs, hf⟩ := Option.map_eq_some_iff.mp hfinished
  have hmem : ⟨⟨0, GetCmd.silentMode.command⟩, false, (.success, [0xF7, 0x05, 0x61, 0x00, 0xFA])⟩ ∈
      s.finished := by
    rw [hf]
    exact List.mem_cons_self
  exact ⟨s, hs, _, hmem,
    (getCmd_decodes_response ready_probed hs (by decide +kernel) .silentMode).1 _ hmem rfl⟩

/-! ### A late response -/

/-- The response to `GetStoreDataID` for the first index. -/
def lateResponse : Message :=
  ⟨cmdResponseGetStoreDataID, List.replicate 32 0x41, by decide⟩

/-- The command for the first index times out, the one for the second is sent, and then the
response to the first one arrives. -/
def lateRun : List Label :=
  [.down (GetCmd.storeDataId 0).command (GetCmd.storeDataId 0).packReq Msg.zero, .setId,
    .initCompletion, .send true true, .round true Msg.zero false,
    .down (GetCmd.storeDataId 1).command (GetCmd.storeDataId 1).packReq Msg.zero, .setId,
    .initCompletion, .send true true, .respond lateResponse, .urb 36 Msg.zero,
    .round false Msg.zero true]

theorem lateRun_finished :
    (exec (Session.step protocol) (Session.start probed) lateRun).map
      (fun s => (s.sent, s.finished)) =
    some ([⟨some ⟨0, (GetCmd.storeDataId 0).command⟩, lateResponse⟩],
      [⟨⟨0, (GetCmd.storeDataId 0).command⟩, false, (.timeout, [])⟩,
        ⟨⟨1, (GetCmd.storeDataId 1).command⟩, true, (.success, lateResponse.encode)⟩]) := by
  decide +kernel

/-- The command for the second index succeeds with the id stored at the first one, which is
the response to no other request than the one that timed out. -/
theorem getStoreDataId_returns_late_response :
    ∃ s, exec (Session.step protocol) (Session.start probed) lateRun = some s ∧
      (∃ f ∈ s.finished, f.request = ⟨1, (GetCmd.storeDataId 1).command⟩ ∧
        (GetCmd.storeDataId 1).finish f.waited Msg.zero (initData 0x30000000) =
          (.success, some (List.replicate 32 0x41 : List UInt8), initData 0x30000000)) ∧
      ¬ ∀ f ∈ s.finished, ∀ msg respMsg, f.request.cmd.response f.waited msg = some respMsg →
        ⟨some f.request, respMsg.message⟩ ∈ s.sent := by
  obtain ⟨s, hs, hstate⟩ := Option.map_eq_some_iff.mp lateRun_finished
  obtain ⟨hsent, hfinished⟩ := Prod.mk.inj hstate
  have hmem : ⟨⟨1, (GetCmd.storeDataId 1).command⟩, true, (.success, lateResponse.encode)⟩ ∈
      s.finished := by
    rw [hfinished]
    exact List.mem_cons_of_mem _ List.mem_cons_self
  refine ⟨s, hs, ⟨_, hmem, rfl, ?_⟩, fun hall => ?_⟩
  · exact finish_encode (.storeDataId 1) rfl Msg.zero _
  · obtain ⟨respMsg, hresponse, hmessage⟩ := Command.response_encode
      (show lateResponse.length = (GetCmd.storeDataId 1).command.respDataSize from rfl) Msg.zero
    have hown := hall _ hmem Msg.zero respMsg hresponse
    rw [hsent, List.mem_singleton, hmessage] at hown
    cases hown

theorem response_matches_late :
    ∃ s, exec (Session.step protocol) (Session.start probed) lateRun = some s ∧
      ∃ f ∈ s.finished, ∃ respMsg r, f.request.cmd.response f.waited Msg.zero = some respMsg ∧
        ⟨some r, respMsg.message⟩ ∈ s.sent ∧ r.cmd.reqCmdId = f.request.cmd.reqCmdId ∧
        r.seq ≤ f.request.seq ∧ (f.outstanding = false → r = f.request) := by
  obtain ⟨s, hs, hstate⟩ := Option.map_eq_some_iff.mp lateRun_finished
  obtain ⟨-, hfinished⟩ := Prod.mk.inj hstate
  have hmem : ⟨⟨1, (GetCmd.storeDataId 1).command⟩, true, (.success, lateResponse.encode)⟩ ∈
      s.finished := by
    rw [hfinished]
    exact List.mem_cons_of_mem _ List.mem_cons_self
  obtain ⟨respMsg, hresponse, -⟩ := Command.response_encode
    (show lateResponse.length = (GetCmd.storeDataId 1).command.respDataSize from rfl) Msg.zero
  obtain ⟨r, hr⟩ := Session.response_matches ready_probed hs hmem hresponse
  exact ⟨s, hs, _, hmem, respMsg, r, hresponse, hr⟩

end Ep1Cf02a

end AptUsbtrx
