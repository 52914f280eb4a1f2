import AptUsbtrx.Verification.Configuration.Link

/-! # One exchange

What a set function and a get function leave of the unit and of the driver, with a unit that may be
slow. -/

namespace AptUsbtrx

open Memory

/-! ### The request and the answer -/

/-- The call has seen an ACK or a NACK for its own request. -/
theorem Command.finishSet_frame {cmd : Command} {id : UInt8}
    (hlength : cmd.respDataSize = cmdLengthACK) (msg : Msg) :
    cmd.finishSet (.success, frame id [cmd.reqCmdId]) msg =
      if id = cmdACK then (.success, some true)
      else if id = cmdNACK then (.success, some false) else (.success, none) := by
  have hone : [cmd.reqCmdId].length ≤ maxPayload := by simp [maxPayload]
  let m : Message := ⟨id, [cmd.reqCmdId], hone⟩
  obtain ⟨hsuccess, hmessage⟩ := parseResponse_encode (show m.length = cmd.respDataSize by
    rw [hlength]; rfl) msg
  have hid : (cmd.parseResponse m.encode msg).2.id = id := congrArg Message.id hmessage
  have hbyte : byteAt (cmd.parseResponse m.encode msg).2.payload 0 = cmd.reqCmdId := by
    have hpayload : (cmd.parseResponse m.encode msg).2.bytes = [cmd.reqCmdId] :=
      congrArg Message.payload hmessage
    rw [Msg.bytes] at hpayload
    have hcons := List.take_append_drop (cmd.parseResponse m.encode msg).2.payloadSize.toNat
      (cmd.parseResponse m.encode msg).2.payload
    rw [hpayload] at hcons
    rw [← hcons]
    rfl
  rw [frame_eq_encode hone, finishSet]
  change (if Result.success ≠ .success then _ else _) = _
  rw [if_neg (not_not.mpr rfl)]
  dsimp only
  rw [if_neg (not_not.mpr hsuccess), msgParseAck]
  dsimp only
  rw [if_neg (not_not.mpr rfl), if_neg (not_not.mpr hbyte), hid]

namespace Ep1Cf02a

theorem Setting.command_bounds (setting : Setting) :
    cmdMinLength ≤ setting.command.reqDataSize ∧ setting.command.reqDataSize ≤ cmdMaxLength ∧
      setting.command.respDataSize = cmdLengthACK ∧ setting.command.respCmdIdAck = cmdACK ∧
      setting.command.respCmdIdNack = cmdNACK := by
  cases setting <;> decide

namespace ConfigSystem

variable {κ : Type} {firmware : Firmware κ} {s t u : ConfigSystem κ} {cmd : Command}

/-! ### The wait -/

section

variable {J : ConfigSystem κ → Prop}

theorem foldl_event (hevent : ∀ u event, J u → J (u.event firmware event)) (hs : J s)
    (events : List LinkEvent) : J (events.foldl (event firmware) s) :=
  List.foldlRecOn events (event firmware) hs fun u hu event _ => hevent u event hu

/-- What every event and the taking of a completion preserve. -/
theorem wait_invariant (hevent : ∀ u event, J u → J (u.event firmware event))
    (htake : ∀ u n, J u → J (u.setRxComplete { u.dev.rxComplete with done := n })) (hs : J s)
    (buf : List UInt8) (rounds : List LinkRound) : J (s.wait firmware cmd buf rounds).2 := by
  induction rounds generalizing s buf with
  | nil => exact hs
  | cons round rounds ih =>
      have hafter := foldl_event hevent hs round.events
      rw [wait]
      dsimp only
      split
      case isTrue => exact hafter
      case isFalse =>
        have htaken :=
          htake _ ((round.events.foldl (event firmware) s).dev.rxComplete.done - 1) hafter
        split
        case h_1 => exact htaken
        case h_2 =>
          split
          case isTrue => exact ih htaken _
          case isFalse => exact htaken

/-- Where the completion is only signalled with what the command takes, the wait ends with that or
the time is up. -/
theorem wait_cases {Q : ConfigSystem κ → Message → Prop}
    (hevent : ∀ u event, J u → J (u.event firmware event))
    (hfront : ∀ u, J u → 0 < u.dev.rxComplete.done → u.dev.rxComplete.Full ∧ ∃ m stale,
      u.dev.rxComplete.buffer = m.encode ++ stale ∧ m.Answers cmd.respCmdIdAck cmd.respCmdIdNack ∧
        Q u m)
    (hs : J s) {buf : List UInt8} (hbuf : buf.length = rxBufferSize) (rounds : List LinkRound) :
    (s.wait firmware cmd buf rounds).1 = (.timeout, []) ∨ ∃ u m, Q u m ∧
      (s.wait firmware cmd buf rounds).1 = (.success, m.encode) ∧
        (s.wait firmware cmd buf rounds).2.link = u.link := by
  cases rounds with
  | nil => exact .inl rfl
  | cons round rounds =>
      have hafter := foldl_event hevent hs round.events
      rw [wait]
      dsimp only
      by_cases hdone : (round.events.foldl (event firmware) s).dev.rxComplete.done = 0
      · rw [if_pos hdone]
        exact .inl rfl
      · obtain ⟨hfull, m, stale, hbuffer, hanswers, hQ⟩ :=
          hfront _ hafter (Nat.pos_of_ne_zero hdone)
        rw [if_neg hdone, RxComplete.waitMsgRound_of_answers hfull hbuf round.msg hbuffer hanswers]
        exact .inr ⟨_, m, hQ, rfl, rfl⟩

end

/-! ### Handing a request over -/

/-- No request was handed over while one of the same command was unanswered. -/
def Fresh (s : ConfigSystem κ) : Prop := ∀ handover ∈ s.log, handover.outstanding = false

instance (s : ConfigSystem κ) : Decidable s.Fresh := inferInstanceAs (Decidable (∀ _ ∈ s.log, _))

/-- The request of a command is about to be sent. -/
def armed (s : ConfigSystem κ) (data : List UInt8) : ConfigSystem κ :=
  s.setRxComplete (s.dev.rxComplete.setId data).initCompletion

/-- How an exchange can end. -/
inductive Exchanged (firmware : Firmware κ) (s : ConfigSystem κ) (cmd : Command)
    (data : List UInt8) : Result × List UInt8 → ConfigSystem κ → Prop where
  | unsent : Exchanged firmware s cmd data (.failure, []) (s.armed data)
  | unanswered : Exchanged firmware s cmd data (.failure, [])
      (((s.armed data).post data).record ⟨byteAt data 2, s.link.Outstanding (byteAt data 2), false⟩)
  | waited (rounds : List LinkRound) {waited : Result × List UInt8} {u : ConfigSystem κ} :
      ((s.armed data).post data).wait firmware cmd (List.replicate rxBufferSize 0) rounds =
        (waited, u) →
      Exchanged firmware s cmd data waited
        (u.record ⟨byteAt data 2, s.link.Outstanding (byteAt data 2), waited.1 = .success⟩)

theorem exchanged_exchange (firmware : Firmware κ) (s : ConfigSystem κ) (x : Exchange)
    (cmd : Command) (data : List UInt8) :
    Exchanged firmware s cmd data (s.exchange firmware x cmd data).1
      (s.exchange firmware x cmd data).2 := by
  rw [exchange]
  dsimp only
  by_cases hsent : x.sent = true
  · rw [if_neg (not_not.mpr hsent)]
    by_cases hbuf : x.bufAllocated = true
    · rw [if_pos hbuf]
      exact .waited x.rounds rfl
    · rw [if_neg hbuf]
      exact .unanswered
  · rw [if_pos hsent]
    by_cases hgot : x.got = true
    · rw [if_pos hgot]
      exact .unanswered
    · rw [if_neg hgot]
      exact .unsent

/-- A command function fails before it hands anything over, or hands its request over. -/
theorem request_cases (firmware : Firmware κ) (hmin : cmdMinLength ≤ cmd.reqDataSize)
    (hmax : cmd.reqDataSize ≤ cmdMaxLength) (s : ConfigSystem κ) (x : Exchange)
    (pack : List UInt8) :
    ∃ payload, payload.length = msgLengthToPayload cmd.reqDataSize ∧
      (pack.length = msgLengthToPayload cmd.reqDataSize → payload = pack) ∧
      (s.request firmware x cmd pack = (none, s) ∨
        ∃ waited t, Exchanged firmware s cmd (frame cmd.reqCmdId payload) waited t ∧
          s.request firmware x cmd pack = (some waited, t)) := by
  obtain ⟨m, hid, hpayload, hframe⟩ := Command.packRequest_spec hmin hmax pack x.reqMsg
  have hroom : msgLengthToPayload cmd.reqDataSize ≤ x.reqMsg.payload.length := by
    rw [x.reqMsg.payload_length]
    simp only [msgLengthToPayload, cmdMaxLength, maxPayload] at *
    omega
  have hdata : m.encode = frame cmd.reqCmdId m.payload := by
    rw [← hid]
    rfl
  refine ⟨m.payload, ?_, fun hlength => ?_, ?_⟩
  · rw [hpayload, List.length_take, length_overwrite]
    exact Nat.min_eq_left hroom
  · rw [hpayload, ← msgLengthToPayload, ← hlength, take_overwrite_zero (hlength ▸ hroom)]
  rw [request, hframe, hdata]
  by_cases hallocated : x.allocated = true
  · rw [if_neg (not_not.mpr hallocated)]
    dsimp only
    rw [if_neg (not_not.mpr rfl)]
    by_cases hdown : x.down = true
    · rw [if_neg (not_not.mpr hdown)]
      exact .inr ⟨_, _, exchanged_exchange firmware s x cmd _, rfl⟩
    · rw [if_pos hdown]
      exact .inl rfl
  · rw [if_pos hallocated]
    exact .inl rfl

theorem Wf.setRxComplete {rx : RxComplete} (hs : s.Wf) (hrx : rx.Full) : (s.setRxComplete rx).Wf :=
  ⟨hs.rxOngoing, hrx, hs.requests, hs.answers⟩

theorem Wf.armed (hs : s.Wf) (data : List UInt8) : (s.armed data).Wf :=
  hs.setRxComplete ⟨hs.full.length_buffer, hs.full.bufferSize_eq⟩

theorem Wf.post (hs : s.Wf) {data : List UInt8} (hdata : Known data) :
    ((s.armed data).post data).Wf := by
  refine ⟨hs.rxOngoing, (hs.armed data).full, fun request hrequest => ?_, hs.answers⟩
  rcases List.mem_append.mp hrequest with hold | hnew
  · exact hs.requests request hold
  · rw [List.mem_singleton.mp hnew]
    exact hdata

theorem Wf.record (hs : s.Wf) (handover : Handover) : (s.record handover).Wf :=
  ⟨hs.rxOngoing, hs.full, hs.requests, hs.answers⟩

/-- Whatever happens in the wait, nothing may become of the system but what might anyway. -/
theorem below_wait (hconforms : firmware.Conforms) (hs : s.Wf) (cmd : Command) (buf : List UInt8)
    (rounds : List LinkRound) :
    (s.wait firmware cmd buf rounds).2.Wf ∧
      Below firmware s (s.wait firmware cmd buf rounds).2 := by
  refine wait_invariant (J := fun u => u.Wf ∧ Below firmware s u) ?_ ?_ ⟨hs, .refl s⟩ buf rounds
  · rintro u event ⟨hu, hbelow⟩
    exact ⟨hu.event hconforms event, hbelow.trans (below_event hu hconforms event)⟩
  · rintro u n ⟨hu, hbelow⟩
    refine ⟨hu.setRxComplete ⟨hu.full.length_buffer, hu.full.bufferSize_eq⟩, hbelow.possible,
      hbelow.uniqueData, hbelow.log, hbelow.id⟩

end ConfigSystem

end Ep1Cf02a

end AptUsbtrx
