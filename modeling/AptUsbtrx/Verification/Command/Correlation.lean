import AptUsbtrx.Verification.Command.Receiving

/-! # Which response a command returns

The completion is matched by the id of the request only. A command returns the response to
its own request unless one to an earlier request with the same id was still to come when
it initialised the completion. -/

namespace AptUsbtrx

open Memory Execution

namespace Session

variable {υ : Type} {P : Protocol υ} {s : Session υ}

/-- `r` is a request whose response may end the wait of `request`. -/
structure Matches (request : Request) (outstanding : Bool) (r : Request) : Prop where
  cmdId : r.cmd.reqCmdId = request.cmd.reqCmdId
  seq_le : r.seq ≤ request.seq
  own : outstanding = false → r = request

/-- The bytes start with a response to a matching request. -/
def Holds (sent : List Sent) (request : Request) (outstanding : Bool) (bytes : List UInt8) : Prop :=
  ∃ x ∈ sent, ∃ r, x.origin = some r ∧ Matches request outstanding r ∧
    ∃ tail, bytes = x.message.encode ++ tail

theorem Holds.mono {sent sent' : List Sent} {request : Request} {outstanding : Bool}
    {bytes : List UInt8} (h : Holds sent request outstanding bytes) (hsub : sent ⊆ sent') :
    Holds sent' request outstanding bytes := by
  obtain ⟨x, hx, hrest⟩ := h
  exact ⟨x, hsub hx, hrest⟩

/-- The completion is set up for `request`, whose response or that of another matching
request it gets. -/
structure Armed (request : Request) (outstanding : Bool) (sent : List Sent) (due : List Request)
    (rx : RxComplete) : Prop where
  id : rx.id = request.cmd.reqCmdId
  seq_le : ∀ r ∈ due, r.seq ≤ request.seq
  own : outstanding = false → ∀ r ∈ due, r.cmd.reqCmdId = request.cmd.reqCmdId → r = request
  front : 0 < rx.done → Holds sent request outstanding rx.buffer

namespace Armed

variable {request : Request} {outstanding : Bool} {sent : List Sent} {due : List Request}
  {rx : RxComplete}

theorem of_subset (h : Armed request outstanding sent due rx) {sent' : List Sent}
    {due' : List Request} (hsent : sent ⊆ sent') (hdue : ∀ r ∈ due', r ∈ due) :
    Armed request outstanding sent' due' rx where
  id := h.id
  seq_le r hr := h.seq_le r (hdue r hr)
  own ho r hr := h.own ho r (hdue r hr)
  front hdone := (h.front hdone).mono hsent

/-- The dispatcher is handed one message. -/
theorem signal {x : Sent} {inflight : List Sent} {pending : List Request}
    (h : Armed request outstanding sent ((x :: inflight).filterMap Sent.origin ++ pending) rx)
    (hfull : rx.Full) (hx : x ∈ sent)
    (hname : P.request x.message = x.origin.map fun r => r.cmd.reqCmdId) :
    Armed request outstanding sent (inflight.filterMap Sent.origin ++ pending)
      (P.signal rx x.message) := by
  have hsub : ∀ r ∈ inflight.filterMap Sent.origin ++ pending,
      r ∈ (x :: inflight).filterMap Sent.origin ++ pending := by
    intro r hr
    rcases List.mem_append.mp hr with hr | hr
    · obtain ⟨y, hy, horigin⟩ := List.mem_filterMap.mp hr
      exact List.mem_append_left _
        (List.mem_filterMap.mpr ⟨y, List.mem_cons_of_mem x hy, horigin⟩)
    · exact List.mem_append_right _ hr
  have hrest := h.of_subset (List.Subset.refl sent) hsub
  refine ⟨(P.signal_id rx x.message).trans h.id, hrest.seq_le, hrest.own, ?_⟩
  rw [Protocol.signal]
  by_cases hreq : P.request x.message = some rx.id
  · rw [if_pos hreq]
    intro _
    rw [hname] at hreq
    obtain ⟨r, horigin, hid⟩ := Option.map_eq_some_iff.mp hreq
    have hr : r ∈ (x :: inflight).filterMap Sent.origin ++ pending :=
      List.mem_append_left _ (List.mem_filterMap.mpr ⟨x, List.mem_cons_self, horigin⟩)
    have hcmd : r.cmd.reqCmdId = request.cmd.reqCmdId := hid.trans h.id
    exact ⟨x, hx, r, horigin, ⟨hcmd, h.seq_le r hr, fun ho => h.own ho r hr hcmd⟩, _,
      RxComplete.buffer_completed hfull x.message⟩
  · rw [if_neg hreq]
    exact h.front

/-- The dispatcher is handed the messages of a URB. -/
theorem foldl_signal {inflight : List Sent} {pending : List Request}
    (h : Armed request outstanding sent (inflight.filterMap Sent.origin ++ pending) rx)
    (hfull : rx.Full) (hsent : inflight ⊆ sent)
    (hname : ∀ x ∈ sent, P.request x.message = x.origin.map fun r => r.cmd.reqCmdId) (k : ℕ) :
    Armed request outstanding sent ((inflight.drop k).filterMap Sent.origin ++ pending)
      (((inflight.take k).map Sent.message).foldl P.signal rx) := by
  refine (Receiving.foldl_signal_induction (I := fun inflight rx =>
    Armed request outstanding sent (inflight.filterMap Sent.origin ++ pending) rx ∧
      rx.Full ∧ inflight ⊆ sent) ?_ ⟨h, hfull, hsent⟩ k).1
  rintro x inflight rx ⟨h, hfull, hsent⟩
  have hx : x ∈ sent := hsent List.mem_cons_self
  exact ⟨h.signal hfull hx (hname x hx), P.full_signal hfull _,
    fun y hy => hsent (List.mem_cons_of_mem x hy)⟩

/-- The completion that was waited for. -/
theorem took (h : Armed request outstanding sent due rx) :
    Armed request outstanding sent due { rx with done := rx.done - 1 } where
  id := h.id
  seq_le := h.seq_le
  own := h.own
  front hdone := h.front (Nat.lt_of_lt_of_le hdone (Nat.sub_le _ _))

end Armed

/-- Where the holder of the semaphore stands. -/
def StageInv (s : Session υ) (a : Active) : Prop :=
  match a.stage with
  | .setId => byteAt a.data 2 = a.request.cmd.reqCmdId
  | .initCompletion => s.dev.rxComplete.id = a.request.cmd.reqCmdId
  | .send => Armed a.request a.outstanding s.sent s.due s.dev.rxComplete
  | .wait rounds => Armed a.request a.outstanding s.sent s.due s.dev.rxComplete ∧
      waitMsgTimeout a.request.cmd.respCmdIdAck a.request.cmd.respCmdIdNack rounds = none

/-- What a command that is done stored. -/
def Stored (sent : List Sent) (f : Finished) : Prop :=
  f.waited.1 = .success → ∃ bytes, Holds sent f.request f.outstanding bytes ∧
    ∃ k, f.waited.2 = bytes.take k

structure Correlated (s : Session υ) : Prop where
  stage : ∀ a, s.active = some a → StageInv s a
  stored : ∀ f ∈ s.finished, Stored s.sent f

namespace Correlated

theorem down (h : Correlated s) (hle : ∀ c ∈ P.commands, cmdMinLength ≤ c.reqDataSize ∧
    c.reqDataSize ≤ cmdMaxLength) {cmd : Command} (hcmd : cmd ∈ P.commands) (pack : List UInt8)
    (msg : Msg) : Correlated (s.down cmd (cmd.packRequest pack msg).2) where
  stage a ha := by
    obtain ⟨m, hm, hpack⟩ := Command.packRequest_eq (hle cmd hcmd).1 (hle cmd hcmd).2 pack msg
    cases ha
    simp only [StageInv, hpack]
    exact m.byteAt_encode_two.trans hm
  stored := h.stored

theorem setId (h : Correlated s) {a : Active} (ha : s.active = some a) (hstage : a.stage = .setId) :
    Correlated (s.setId a) where
  stage b hb := by
    have hid := h.stage a ha
    rw [StageInv, hstage] at hid
    cases hb
    exact hid
  stored := h.stored

theorem initCompletion (h : Correlated s) (hord : Ordered s) {a : Active}
    (ha : s.active = some a) (hstage : a.stage = .initCompletion) :
    Correlated (s.initCompletion a) where
  stage b hb := by
    have hid := h.stage a ha
    rw [StageInv, hstage] at hid
    cases hb
    refine ⟨hid, hord.due_le a ha, fun hnone r hr hcmd => ?_, nofun⟩
    -- nothing with this id is due
    have hany := List.any_eq_false.mp hnone r hr
    exact absurd (beq_iff_eq.mpr hcmd) hany
  stored := h.stored

theorem stored_finish (h : Correlated s) {a : Active} {waited : Result × List UInt8}
    (hstored : Stored s.sent ⟨a.request, a.outstanding, waited⟩) :
    Correlated (s.finish a waited) where
  stage := nofun
  stored f hf := by
    rcases List.mem_append.mp hf with hf | hf
    · exact h.stored f hf
    · rw [List.mem_singleton.mp hf]
      exact hstored

theorem send (h : Correlated s) {a : Active} (ha : s.active = some a) (hstage : a.stage = .send) :
    Correlated ((s.take a true).wait a []) where
  stage b hb := by
    have harmed := h.stage a ha
    rw [StageInv, hstage] at harmed
    cases hb
    refine ⟨⟨harmed.id, ?_, ?_, harmed.front⟩, rfl⟩
    · intro r hr
      rcases mem_due_take hr with hr | rfl
      · exact harmed.seq_le r hr
      · exact Nat.le_refl _
    · intro ho r hr hcmd
      rcases mem_due_take hr with hr | rfl
      · exact harmed.own ho r hr hcmd
      · rfl
  stored := h.stored

theorem round (h : Correlated s) (hrx : Receiving P s) {a : Active} {rounds : List WaitRound}
    (ha : s.active = some a) (hstage : a.stage = .wait rounds) {expired : Bool} {msg : Msg}
    {inTime : Bool} (hexpired : expired = true ↔ s.dev.rxComplete.done = 0)
    {waited : Result × List UInt8}
    (hwaited : waitMsgTimeout a.request.cmd.respCmdIdAck a.request.cmd.respCmdIdNack
      (rounds ++ [⟨s.waitInput expired, msg, inTime⟩]) = some waited) :
    Stored s.sent ⟨a.request, a.outstanding, waited⟩ := by
  have harmed := h.stage a ha
  rw [StageInv, hstage] at harmed
  obtain ⟨harmed, hrounds⟩ := harmed
  intro hsuccess
  cases expired with
  | true =>
      obtain ⟨buf, -, heq⟩ := waitMsgRounds_append hrounds [⟨s.waitInput true, msg, inTime⟩]
      rw [waitMsgTimeout, heq] at hwaited
      cases hwaited
      cases hsuccess
  | false =>
      obtain ⟨result, stored⟩ := waited
      cases hsuccess
      have hdone : 0 < s.dev.rxComplete.done :=
        Nat.pos_of_ne_zero fun hzero => absurd (hexpired.mpr hzero) Bool.false_ne_true
      exact ⟨_, harmed.front hdone, eq_take_of_waitMsgTimeout hrounds hrx.full hwaited⟩

/-- Steps that leave the command and the completion alone. -/
theorem of_due (h : Correlated s) {t : Session υ} (hactive : t.active = s.active)
    (hfinished : t.finished = s.finished) (hsent : s.sent ⊆ t.sent)
    (hcomplete : t.dev.rxComplete = s.dev.rxComplete) (hdue : t.due = s.due) : Correlated t where
  stage a ha := by
    have hold := h.stage a (hactive ▸ ha)
    rw [StageInv] at hold ⊢
    rw [hcomplete, hdue]
    cases hstage : a.stage with
    | setId | initCompletion =>
        rw [hstage] at hold
        exact hold
    | send =>
        rw [hstage] at hold
        exact hold.of_subset hsent fun _ hr => hr
    | wait rounds =>
        rw [hstage] at hold
        exact ⟨hold.1.of_subset hsent fun _ hr => hr, hold.2⟩
  stored f hf hsuccess := by
    obtain ⟨bytes, hbytes, hk⟩ := h.stored f (hfinished ▸ hf) hsuccess
    exact ⟨bytes, hbytes.mono hsent, hk⟩

theorem urb (h : Correlated s) (hrx : Receiving P s) {n : ℕ} {msg : Msg} {k : ℕ}
    (hk : Receiving.UrbSpec P s (s.urb P n msg) k) : Correlated (s.urb P n msg) where
  stage a ha := by
    have hold := h.stage a ha
    have hsub : s.inflight ⊆ s.sent := List.drop_subset _ _
    have hname := fun x hx => (hrx.named x hx).2
    rw [StageInv] at hold ⊢
    rw [hk.rxComplete, due_urb hk]
    cases hstage : a.stage with
    | setId =>
        rw [hstage] at hold
        exact hold
    | initCompletion =>
        rw [hstage] at hold
        exact (Receiving.id_foldl _ _).trans hold
    | send =>
        rw [hstage] at hold
        exact hold.foldl_signal hrx.full hsub hname k
    | wait rounds =>
        rw [hstage] at hold
        exact ⟨hold.1.foldl_signal hrx.full hsub hname k, hold.2⟩
  stored := h.stored

theorem step (h : Correlated s) (hrx : Receiving P s) (hord : Ordered s) {l : Label}
    {t : Session υ} (hstep : Step P s l t) : Correlated t := by
  cases hstep with
  | down _ hcmd => exact h.down P.reqDataSize_bounds hcmd _ _
  | setId ha hstage => exact h.setId ha hstage
  | initCompletion ha hstage => exact h.initCompletion hord ha hstage
  | send ha hstage => exact h.send ha hstage
  | @sendFailed a taken ha hstage =>
      have hfailed : Correlated (s.finish a (.failure, [])) := h.stored_finish nofun
      exact ⟨nofun, by cases taken <;> exact hfailed.stored⟩
  | allocFailed ha hstage => exact h.stored_finish nofun
  | @finish a rounds expired msg inTime waited ha hstage hexpired hwaited =>
      have hround := h.stored_finish (h.round hrx ha hstage hexpired hwaited)
      exact ⟨nofun, by cases expired <;> exact hround.stored⟩
  | @retry a rounds expired msg inTime ha hstage hexpired hnone =>
      have harmed := h.stage a ha
      rw [StageInv, hstage] at harmed
      refine ⟨?_, by cases expired <;> exact h.stored⟩
      rintro b ⟨⟩
      cases expired with
      | true => exact ⟨harmed.1, hnone⟩
      | false => exact ⟨harmed.1.took, hnone⟩
  | @respond request pending m hpending =>
      exact h.of_due rfl rfl (List.subset_append_left _ _) rfl
        (due_respond m hpending hrx.handed_le)
  | @notify m =>
      exact h.of_due rfl rfl (List.subset_append_left _ _) rfl (due_notify m hrx.handed_le)
  | @urb n msg hn _ =>
      obtain ⟨k, hk⟩ := hrx.urb hn msg
      exact h.urb hrx hk

end Correlated

/-! ### Every run -/

/-- The state of the system is as the three invariants say. -/
theorem invariants_of_exec {dev : Dev υ} (hdev : dev.Ready) {ls : List Label}
    (hrun : exec (step P) (start dev) ls = some s) : Receiving P s ∧ Ordered s ∧ Correlated s := by
  apply exec_invariant (I := fun s => Receiving P s ∧ Ordered s ∧ Correlated s) _ _ hrun
  · rintro s l t ⟨hrx, hord, hcor⟩ hstep
    have hstep := step_of_eq_some hstep
    exact ⟨hrx.step hstep, hord.step hrx hstep, hcor.step hrx hord hstep⟩
  · exact ⟨receiving_start hdev, ordered_start dev, ⟨nofun, nofun⟩⟩

/-- A command that succeeds decodes the response to a request with the same id that was sent
no later than its own. The response is the one to its own request unless one to an earlier
request with the same id was still to come when the completion was initialised. -/
theorem response_matches {dev : Dev υ} (hdev : dev.Ready) {ls : List Label}
    (hrun : exec (step P) (start dev) ls = some s) {f : Finished} (hf : f ∈ s.finished)
    {msg respMsg : Msg} (hresponse : f.request.cmd.response f.waited msg = some respMsg) :
    ∃ r, ⟨some r, respMsg.message⟩ ∈ s.sent ∧ r.cmd.reqCmdId = f.request.cmd.reqCmdId ∧
      r.seq ≤ f.request.seq ∧ (f.outstanding = false → r = f.request) := by
  obtain ⟨-, -, hcor⟩ := invariants_of_exec hdev hrun
  rw [Command.response] at hresponse
  split at hresponse
  next hsuccess =>
    cases hresponse
    obtain ⟨_, ⟨x, hx, r, horigin, hmatch, tail, rfl⟩, k, htake⟩ := hcor.stored f hf hsuccess.1
    rw [htake] at hsuccess ⊢
    refine ⟨r, ?_, hmatch.cmdId, hmatch.seq_le, hmatch.own⟩
    rw [Command.parseResponse_take hsuccess.2, ← horigin]
    exact hx
  next => cases hresponse

end Session

end AptUsbtrx
