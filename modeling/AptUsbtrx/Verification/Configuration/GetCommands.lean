import AptUsbtrx.Verification.Configuration.Exchange

/-! # The get functions

They leave the unit alone, and return what it may report when no request of the same command is
still unanswered. -/

namespace AptUsbtrx

open Memory

namespace Ep1Cf02a

theorem Readable.command_bounds (r : Readable) :
    cmdMinLength ≤ r.getCmd.command.reqDataSize ∧ r.getCmd.command.reqDataSize ≤ cmdMaxLength ∧
      msgLengthToPayload r.getCmd.command.reqDataSize = 0 ∧
      r.getCmd.command.respDataSize ≤ cmdMaxLength := by
  cases r with
  | value setting => cases setting <;> decide
  | canClock | resetTime | storeDataState => decide

/-- A request with the id of the get function is the request of the get function. -/
theorem Known.eq_request {r : Readable} {request : List UInt8} (h : Known request)
    (hid : HasId r.getCmd.command.reqCmdId request) : request = r.request := by
  cases h with
  | set setting _ => exact absurd (hasId_frame.mp hid) (reqCmdId_ne setting r)
  | get other => rw [Readable.reqCmdId_inj (hasId_frame.mp hid)]

namespace ConfigSystem

variable {κ : Type} {firmware : Firmware κ} {s t u : ConfigSystem κ} {r : Readable}

/-! ### The request of a get function -/

/-- The bytes are a response with one of these payloads. -/
def IsReport (r : Readable) (old : Set (List UInt8)) (bytes : List UInt8) : Prop :=
  ∃ payload ∈ old, payloadLengthToMsg payload.length = r.getCmd.command.respDataSize ∧
    bytes = frame r.getCmd.command.respCmdIdAck payload

/-- The system while the call waits. -/
structure GetRun (firmware : Firmware κ) (r : Readable) (old : Set (List UInt8))
    (s : ConfigSystem κ) : Prop where
  wf : s.Wf
  id : s.dev.rxComplete.id = r.getCmd.command.reqCmdId
  possible : s.link.possible firmware r ⊆ old
  answers : ∀ answer ∈ s.link.answers, HasId r.getCmd.command.reqCmdId answer.request →
    IsReport r old answer.bytes
  front : 0 < s.dev.rxComplete.done → ∃ bytes stale, IsReport r old bytes ∧
    s.dev.rxComplete.buffer = bytes ++ stale

theorem GetRun.event {old : Set (List UInt8)} (h : GetRun firmware r old s)
    (hconforms : firmware.Conforms) (hkept : r.Kept) (event : LinkEvent) :
    GetRun firmware r old (s.event firmware event) := by
  have hbelow := below_event h.wf hconforms event
  refine ⟨h.wf.event hconforms event, hbelow.id.trans h.id,
    (hbelow.possible r hkept).trans h.possible, ?_, ?_⟩
  · cases event with
    | serve =>
        rw [ConfigSystem.event]
        split
        case h_1 => exact h.answers
        case h_2 request requests hrequests =>
          intro answer hmem hid
          rcases List.mem_append.mp hmem with hbefore | hnew
          · exact h.answers answer hbefore hid
          · rw [List.mem_singleton.mp hnew] at hid ⊢
            have hknown := h.wf.requests request (hrequests ▸ List.mem_cons_self)
            obtain ⟨payload, hanswer, hlength⟩ := hconforms.get s.link.unit r
            have hreport : firmware.report s.link.unit r = payload := by
              rw [Firmware.report, hanswer, framePayload_frame]
            refine ⟨payload, h.possible (hreport ▸ report_mem_possible s.link r), hlength, ?_⟩
            rw [hknown.eq_request hid]
            exact hanswer
    | ignore | elapse => exact h.answers
    | arrive =>
        rw [ConfigSystem.event]
        split
        case h_1 => exact h.answers
        case h_2 answer answers hanswers =>
          obtain ⟨m, -, hlink, -⟩ := receive_spec
            (s := { s with link := { s.link with answers := answers } }) h.wf.rxOngoing
            (h.wf.answers answer (hanswers ▸ List.mem_cons_self))
          rw [hlink]
          exact fun a ha => h.answers a (hanswers ▸ List.mem_cons_of_mem answer ha)
    | lose => exact fun a ha => h.answers a (List.mem_of_mem_tail ha)
  · cases event with
    | serve =>
        rw [ConfigSystem.event]
        split
        all_goals exact h.front
    | ignore | elapse | lose => exact h.front
    | arrive =>
        rw [ConfigSystem.event]
        split
        case h_1 => exact h.front
        case h_2 answer answers hanswers =>
          have hmem : answer ∈ s.link.answers := hanswers ▸ List.mem_cons_self
          obtain ⟨m, hbytes, -, -, -, -, hcomplete⟩ := receive_spec
            (s := { s with link := { s.link with answers := answers } }) h.wf.rxOngoing
            (h.wf.answers answer hmem)
          dsimp only at hcomplete
          rw [h.id] at hcomplete
          rw [hcomplete]
          by_cases hown : HasId r.getCmd.command.reqCmdId answer.request
          · rw [if_pos hown]
            refine fun _ => ⟨answer.bytes, s.dev.rxComplete.buffer.drop m.length,
              h.answers answer hmem hown, ?_⟩
            rw [RxComplete.buffer_completed h.wf.full, hbytes]
          · rw [if_neg hown]
            exact h.front

/-- What the wait of a get function ends with when no earlier request of its command is
unanswered. -/
theorem getRun_wait (hconforms : firmware.Conforms) (hkept : r.Kept) {old : Set (List UInt8)}
    (h : GetRun firmware r old s) (rounds : List LinkRound) :
    (s.wait firmware r.getCmd.command (List.replicate rxBufferSize 0) rounds).1 = (.timeout, []) ∨
      ∃ bytes, IsReport r old bytes ∧
        (s.wait firmware r.getCmd.command (List.replicate rxBufferSize 0) rounds).1 =
          (.success, bytes) := by
  have hfront : ∀ u, GetRun firmware r old u → 0 < u.dev.rxComplete.done →
      u.dev.rxComplete.Full ∧ ∃ (m : Message) (stale : List UInt8),
        u.dev.rxComplete.buffer = m.encode ++ stale ∧
        m.Answers r.getCmd.command.respCmdIdAck r.getCmd.command.respCmdIdNack ∧
        IsReport r old m.encode := by
    intro u hu hdone
    obtain ⟨bytes, stale, ⟨payload, hpayload, hlength, rfl⟩, hbuffer⟩ := hu.front hdone
    have hbound : payload.length ≤ maxPayload := by
      have hle := r.command_bounds.2.2.2
      simp only [payloadLengthToMsg, cmdMaxLength, maxPayload] at *
      omega
    exact ⟨hu.wf.full, ⟨r.getCmd.command.respCmdIdAck, payload, hbound⟩, stale, hbuffer, .inl rfl,
      payload, hpayload, hlength, rfl⟩
  rcases wait_cases (fun u event hu => hu.event hconforms hkept event) hfront h
    List.length_replicate rounds with htimeout | ⟨u, m, hreport, hwaited, -⟩
  · exact .inl htimeout
  · exact .inr ⟨m.encode, hreport, hwaited⟩

/-! ### Get functions -/

/-- What a call of a get function comes to. As long as no request was handed over while one of its
command was unanswered, its output is something the unit may report. -/
structure GetEffect (firmware : Firmware κ) (s t : ConfigSystem κ) (r : Readable)
    (output : Option r.getCmd.Output) : Prop where
  wf : t.Wf
  possible : ∀ kept : Readable, kept.Kept →
    t.link.possible firmware kept ⊆ s.link.possible firmware kept
  log : t.log = s.log ∨ ∃ answered, t.log = s.log ++
    [⟨r.getCmd.command.reqCmdId, s.link.Outstanding r.getCmd.command.reqCmdId, answered⟩]
  uniqueData : t.dev.uniqueData =
    output.elim s.dev.uniqueData fun output => r.getCmd.update output s.dev.uniqueData
  read : t.Fresh → r.Kept → ∀ out, output = some out →
    ∃ payload ∈ s.link.possible firmware r, out = r.getCmd.parseResp payload

/-- Posting the request of a get function changes nothing that the unit may come to. -/
theorem possible_post_get {kept : Readable} :
    ((s.armed r.request).post r.request).link.possible firmware kept ⊆
      s.link.possible firmware kept := by
  rintro p (rfl | ⟨setting, rfl, hmem⟩)
  · exact .inl rfl
  · rcases List.mem_append.mp hmem with hold | hnew
    · exact .inr ⟨setting, rfl, hold⟩
    · exact absurd (frame_inj (List.mem_singleton.mp hnew)).1 (reqCmdId_ne setting r)

theorem getRun_post (hs : s.Wf) (hidle : ¬ s.link.Outstanding r.getCmd.command.reqCmdId) :
    GetRun firmware r (s.link.possible firmware r) ((s.armed r.request).post r.request) :=
  ⟨hs.post (.get r), rfl, possible_post_get,
    fun answer hmem hid => absurd (.inr ⟨answer, hmem, hid⟩) hidle,
    fun hpos => absurd hpos (lt_irrefl 0)⟩

/-- A get function once its request is sent, or could not be sent. -/
structure GetWaited (firmware : Firmware κ) (s t : ConfigSystem κ) (r : Readable)
    (waited : Result × List UInt8) : Prop where
  wf : t.Wf
  possible : ∀ kept : Readable, kept.Kept →
    t.link.possible firmware kept ⊆ s.link.possible firmware kept
  log : t.log = s.log ∨ ∃ answered, t.log = s.log ++
    [⟨r.getCmd.command.reqCmdId, s.link.Outstanding r.getCmd.command.reqCmdId, answered⟩]
  uniqueData : t.dev.uniqueData = s.dev.uniqueData
  read : t.Fresh → r.Kept → waited.1 = .success →
    IsReport r (s.link.possible firmware r) waited.2

theorem getWaited_of_exchanged (hconforms : firmware.Conforms) (hs : s.Wf)
    {waited : Result × List UInt8}
    (h : Exchanged firmware s r.getCmd.command r.request waited t) :
    GetWaited firmware s t r waited := by
  have hwfPost := hs.post (.get r)
  cases h with
  | unsent =>
      exact ⟨hs.armed _, fun _ _ => subset_rfl, .inl rfl, rfl, fun _ _ h => Result.noConfusion h⟩
  | unanswered =>
      exact ⟨hwfPost.record _, fun _ _ => possible_post_get, .inr ⟨false, rfl⟩, rfl,
        fun _ _ h => Result.noConfusion h⟩
  | @waited rounds waited u hwait =>
      obtain ⟨hwf, hbelow⟩ := below_wait hconforms hwfPost r.getCmd.command
        (List.replicate rxBufferSize 0) rounds
      rw [hwait] at hwf hbelow
      refine ⟨hwf.record _, fun kept hkept => (hbelow.possible kept hkept).trans possible_post_get,
        .inr ⟨_, congrArg (· ++ _) hbelow.log⟩, hbelow.uniqueData, fun hfresh hkept hsuccess => ?_⟩
      have hidle : decide (s.link.Outstanding r.getCmd.command.reqCmdId) = false :=
        hfresh _ (List.mem_append_right _ List.mem_cons_self)
      have hends := getRun_wait hconforms hkept (getRun_post hs (of_decide_eq_false hidle)) rounds
      rw [hwait] at hends
      rcases hends with htimeout | ⟨bytes, hreport, hanswer⟩
      · dsimp only at htimeout
        rw [htimeout] at hsuccess
        cases hsuccess
      · dsimp only at hanswer
        rw [hanswer]
        exact hreport

/-- The output of a get function, and what it leaves of the data of the device. -/
theorem finish_uniqueData (cmd : GetCmd) (waited : Result × List UInt8) (msg : Msg)
    (data : UniqueData) : (cmd.finish waited msg data).2.2 =
      (cmd.finish waited msg data).2.1.elim data fun output => cmd.update output data := by
  rw [GetCmd.finish, Command.finishGet_eq]
  cases cmd.command.response waited msg with
  | none => rfl
  | some respMsg => rfl

/-- A get function that has an output has decoded a response. -/
theorem output_of_finish {old : Set (List UInt8)} {waited : Result × List UInt8} {msg : Msg}
    {data : UniqueData} {out : r.getCmd.Output}
    (hread : waited.1 = .success → IsReport r old waited.2)
    (hout : (r.getCmd.finish waited msg data).2.1 = some out) :
    ∃ payload ∈ old, out = r.getCmd.parseResp payload := by
  have hsuccess : waited.1 = .success := by
    by_contra hfailed
    rw [GetCmd.finish, Command.finishGet_eq, Command.response, if_neg fun h => hfailed h.1] at hout
    cases hout
  obtain ⟨payload, hpayload, hlength, hbytes⟩ := hread hsuccess
  have hbound : payload.length ≤ maxPayload := by
    have hle := r.command_bounds.2.2.2
    simp only [payloadLengthToMsg, cmdMaxLength, maxPayload] at *
    omega
  have hwaited : waited = (.success, (⟨_, payload, hbound⟩ : Message).encode) :=
    Prod.ext hsuccess hbytes
  rw [hwaited, finish_encode r.getCmd (m := ⟨_, payload, hbound⟩) hlength] at hout
  exact ⟨payload, hpayload, (Option.some.inj hout).symm⟩

/-- The functions `ep1_cf02a_get_..`. -/
theorem getEffect_get (hconforms : firmware.Conforms) (hs : s.Wf) (x : Exchange) (r : Readable) :
    GetEffect firmware s (s.get firmware x r).2 r (s.get firmware x r).1 := by
  obtain ⟨hmin, hmax, hempty, -⟩ := r.command_bounds
  obtain ⟨payload, hlength, -, hnone | ⟨waited, t, hexchanged, hsome⟩⟩ :=
    request_cases firmware hmin hmax s x r.getCmd.packReq
  · rw [get, hnone]
    refine ⟨hs, fun _ _ => subset_rfl, .inl rfl, rfl, fun _ _ out hout => ?_⟩
    cases hout
  · rw [List.eq_nil_of_length_eq_zero (hlength.trans hempty)] at hexchanged
    have hwaited := getWaited_of_exchanged hconforms hs hexchanged
    rw [get, hsome]
    refine ⟨⟨hwaited.wf.rxOngoing, hwaited.wf.full, hwaited.wf.requests, hwaited.wf.answers⟩,
      hwaited.possible, hwaited.log, ?_, fun hfresh hkept out hout => ?_⟩
    · rw [← hwaited.uniqueData]
      exact finish_uniqueData r.getCmd waited x.respMsg t.dev.uniqueData
    · exact output_of_finish (hwaited.read hfresh hkept) hout

end ConfigSystem

end Ep1Cf02a

end AptUsbtrx
