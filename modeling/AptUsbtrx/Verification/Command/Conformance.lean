import AptUsbtrx.Verification.Command.Correlation

/-! # Commands of a device that answers in time

When every request is answered in time by a response of the expected form, a command
returns the response to its own request. -/

namespace AptUsbtrx

open Memory Execution

namespace Session

variable {υ : Type} {P : Protocol υ} {s : Session υ}

/-- A response of the form that the command expects. -/
structure Expected (cmd : Command) (m : Message) : Prop where
  answers : m.Answers cmd.respCmdIdAck cmd.respCmdIdNack
  length_eq : m.length = cmd.respDataSize

instance (cmd : Command) (m : Message) : Decidable (Expected cmd m) :=
  decidable_of_iff (m.Answers cmd.respCmdIdAck cmd.respCmdIdNack ∧ m.length = cmd.respDataSize)
    ⟨fun h => ⟨h.1, h.2⟩, fun h => ⟨h.1, h.2⟩⟩

/-- No transfer, allocation or wait fails, and the device answers as the commands expect. -/
def Conforming (s : Session υ) : Label → Prop
  | .send _ ok => ok = true
  | .allocFailed => False
  | .round expired _ _ => expired = false
  | .respond m => ∀ r ∈ s.pending.head?, Expected r.cmd m
  | _ => True

instance (s : Session υ) : ∀ l, Decidable (Conforming s l)
  | .send _ ok => inferInstanceAs (Decidable (ok = true))
  | .allocFailed => inferInstanceAs (Decidable False)
  | .round expired _ _ => inferInstanceAs (Decidable (expired = false))
  | .respond m => inferInstanceAs (Decidable (∀ r ∈ s.pending.head?, Expected r.cmd m))
  | .down _ _ _ | .setId | .initCompletion | .notify _ | .urb _ _ => isTrue trivial

/-- Either the response to `r` is the only one due, or the completion was signalled. -/
def Awaits (r : Request) (due : List Request) (rx : RxComplete) : Prop :=
  due = [r] ∧ rx.done = 0 ∨ due = [] ∧ 0 < rx.done

/-- A message that names no request leaves the completion alone. -/
theorem signal_of_origin_none {x : Sent} {rx : RxComplete} (horigin : x.origin = none)
    (hname : P.request x.message = x.origin.map fun r => r.cmd.reqCmdId) :
    P.signal rx x.message = rx := by
  rw [horigin] at hname
  rw [Protocol.signal, hname, Option.map_none, if_neg (Option.some_ne_none _).symm]

theorem Awaits.signal {r : Request} {x : Sent} {inflight : List Sent} {pending : List Request}
    {rx : RxComplete} (h : Awaits r ((x :: inflight).filterMap Sent.origin ++ pending) rx)
    (hid : rx.id = r.cmd.reqCmdId)
    (hname : P.request x.message = x.origin.map fun r => r.cmd.reqCmdId) :
    Awaits r (inflight.filterMap Sent.origin ++ pending) (P.signal rx x.message) := by
  cases horigin : x.origin with
  | none =>
      rw [List.filterMap_cons_none horigin] at h
      rwa [signal_of_origin_none horigin hname]
  | some r' =>
      rw [List.filterMap_cons_some horigin, List.cons_append] at h
      rcases h with ⟨hdue, -⟩ | ⟨hdue, -⟩
      · obtain ⟨rfl, hrest⟩ := List.cons.inj hdue
        rw [horigin, Option.map_some, ← hid] at hname
        rw [Protocol.signal, if_pos hname]
        exact .inr ⟨hrest, Nat.succ_pos _⟩
      · cases hdue

theorem Awaits.foldl_signal {r : Request} {inflight : List Sent} {pending : List Request}
    {rx : RxComplete} (h : Awaits r (inflight.filterMap Sent.origin ++ pending) rx)
    (hid : rx.id = r.cmd.reqCmdId)
    (hname : ∀ x ∈ inflight, P.request x.message = x.origin.map fun r => r.cmd.reqCmdId) (k : ℕ) :
    Awaits r ((inflight.drop k).filterMap Sent.origin ++ pending)
      (((inflight.take k).map Sent.message).foldl P.signal rx) := by
  refine (Receiving.foldl_signal_induction (I := fun inflight rx =>
    Awaits r (inflight.filterMap Sent.origin ++ pending) rx ∧ rx.id = r.cmd.reqCmdId ∧
      ∀ x ∈ inflight, P.request x.message = x.origin.map fun r => r.cmd.reqCmdId)
    ?_ ⟨h, hid, hname⟩ k).1
  rintro x inflight rx ⟨h, hid, hname⟩
  exact ⟨h.signal hid (hname x List.mem_cons_self), (P.signal_id _ _).trans hid,
    fun y hy => hname y (List.mem_cons_of_mem x hy)⟩

theorem foldl_signal_of_due_nil {inflight : List Sent} {pending : List Request} {rx : RxComplete}
    (h : inflight.filterMap Sent.origin ++ pending = [])
    (hname : ∀ x ∈ inflight, P.request x.message = x.origin.map fun r => r.cmd.reqCmdId) (k : ℕ) :
    ((inflight.take k).map Sent.message).foldl P.signal rx = rx := by
  have hnone : ∀ x ∈ inflight, x.origin = none := List.filterMap_eq_nil_iff.mp
    (List.append_eq_nil_iff.mp h).1
  refine (Receiving.foldl_signal_induction (I := fun inflight rx' => rx' = rx ∧
    ∀ x ∈ inflight, x.origin = none ∧
      P.request x.message = x.origin.map fun r => r.cmd.reqCmdId)
    ?_ ⟨rfl, fun x hx => ⟨hnone x hx, hname x hx⟩⟩ k).1
  rintro x inflight rx' ⟨rfl, hrest⟩
  obtain ⟨horigin, hrequest⟩ := hrest x List.mem_cons_self
  exact ⟨signal_of_origin_none horigin hrequest,
    fun y hy => hrest y (List.mem_cons_of_mem x hy)⟩

/-- No response is due but the one to the command that waits. -/
def PromptStage (s : Session υ) (a : Active) : Prop :=
  match a.stage with
  | .setId | .initCompletion => s.due = []
  | .send => a.outstanding = false ∧ s.due = [] ∧ s.dev.rxComplete.done = 0
  | .wait _ => a.outstanding = false ∧ Awaits a.request s.due s.dev.rxComplete

structure Prompt (s : Session υ) : Prop where
  expected : ∀ x ∈ s.sent, ∀ r, x.origin = some r → Expected r.cmd x.message
  idle : s.active = none → s.due = []
  stage : ∀ a, s.active = some a → PromptStage s a
  finished : ∀ f ∈ s.finished, ∃ m : Message, ⟨some f.request, m⟩ ∈ s.sent ∧
    Expected f.request.cmd m ∧ f.waited = (.success, m.encode)

namespace Prompt

/-- A round on the completion ends the wait with the response to the command's own request. -/
theorem round (h : Prompt s) (hrx : Receiving P s) (hcor : Correlated s) {a : Active}
    {rounds : List WaitRound} (ha : s.active = some a) (hstage : a.stage = .wait rounds)
    (hdone : 0 < s.dev.rxComplete.done) (msg : Msg) (inTime : Bool) :
    s.due = [] ∧ ∃ m : Message, ⟨some a.request, m⟩ ∈ s.sent ∧ Expected a.request.cmd m ∧
      waitMsgTimeout a.request.cmd.respCmdIdAck a.request.cmd.respCmdIdNack
        (rounds ++ [⟨s.waitInput false, msg, inTime⟩]) = some (.success, m.encode) := by
  have hprompt := h.stage a ha
  rw [PromptStage, hstage] at hprompt
  obtain ⟨hout, hawaits⟩ := hprompt
  have harmed := hcor.stage a ha
  rw [StageInv, hstage] at harmed
  obtain ⟨harmed, hrounds⟩ := harmed
  obtain ⟨⟨origin, m⟩, hx, r, horigin, hmatch, tail, hbuffer⟩ := harmed.front hdone
  obtain rfl := hmatch.own hout
  subst horigin
  have hexp := h.expected _ hx a.request rfl
  refine ⟨?_, m, hx, hexp, waitMsgTimeout_of_answers hrounds hrx.full msg inTime hbuffer
    hexp.answers⟩
  rcases hawaits with ⟨-, hzero⟩ | ⟨hdue, -⟩
  · exact absurd hzero (Nat.ne_of_gt hdone)
  · exact hdue

theorem finish (h : Prompt s) {a : Active} {m : Message} (hdue : s.due = [])
    (hm : ⟨some a.request, m⟩ ∈ s.sent) (hexp : Expected a.request.cmd m) :
    Prompt (s.finish a (.success, m.encode)) where
  expected := h.expected
  idle _ := hdue
  stage := nofun
  finished f hf := by
    rcases List.mem_append.mp hf with hf | hf
    · exact h.finished f hf
    · rw [List.mem_singleton.mp hf]
      exact ⟨m, hm, hexp, rfl⟩

/-- Steps of the device and the receive path. -/
theorem of_due (h : Prompt s) {t : Session υ} (hactive : t.active = s.active)
    (hfinished : t.finished = s.finished) (hsent : s.sent ⊆ t.sent)
    (hexpected : ∀ x ∈ t.sent, ∀ r, x.origin = some r → Expected r.cmd x.message)
    (hidle : s.due = [] → t.due = [] ∧ t.dev.rxComplete = s.dev.rxComplete)
    (hawaits : ∀ a, s.active = some a → Awaits a.request s.due s.dev.rxComplete →
      (∃ rounds, a.stage = .wait rounds) → Awaits a.request t.due t.dev.rxComplete) : Prompt t where
  expected := hexpected
  idle ha := (hidle (h.idle (hactive ▸ ha))).1
  stage a ha := by
    rw [hactive] at ha
    have hold := h.stage a ha
    rw [PromptStage] at hold ⊢
    cases hstage : a.stage with
    | setId | initCompletion =>
        rw [hstage] at hold
        exact (hidle hold).1
    | send =>
        rw [hstage] at hold
        obtain ⟨hout, hdue, hdone⟩ := hold
        obtain ⟨hdue', hcomplete⟩ := hidle hdue
        exact ⟨hout, hdue', by rw [hcomplete]; exact hdone⟩
    | wait rounds =>
        rw [hstage] at hold
        exact ⟨hold.1, hawaits a ha hold.2 ⟨rounds, hstage⟩⟩
  finished f hf := by
    rw [hfinished] at hf
    obtain ⟨m, hm, hrest⟩ := h.finished f hf
    exact ⟨m, hsent hm, hrest⟩

theorem step (h : Prompt s) (hrx : Receiving P s) (hord : Ordered s) (hcor : Correlated s)
    {l : Label} {t : Session υ} (hconf : Conforming s l) (hstep : Step P s l t) : Prompt t := by
  cases hstep with
  | down hsem _ =>
      have hnone : s.active = none := hord.idle_of_sem hsem
      refine ⟨h.expected, nofun, ?_, h.finished⟩
      rintro a ⟨⟩
      exact h.idle hnone
  | setId ha hstage =>
      have hold := h.stage _ ha
      rw [PromptStage, hstage] at hold
      refine ⟨h.expected, nofun, ?_, h.finished⟩
      rintro b ⟨⟩
      exact hold
  | initCompletion ha hstage =>
      have hold : s.due = [] := by
        have hold := h.stage _ ha
        rwa [PromptStage, hstage] at hold
      refine ⟨h.expected, nofun, ?_, h.finished⟩
      rintro b ⟨⟩
      refine ⟨?_, hold, rfl⟩
      simp only [hold, List.any_nil]
  | @send a ha hstage =>
      have hold := h.stage a ha
      rw [PromptStage, hstage] at hold
      obtain ⟨hout, hdue, hdone⟩ := hold
      refine ⟨h.expected, nofun, ?_, h.finished⟩
      rintro b ⟨⟩
      have htake : (s.take a true).due = s.due ++ [a.request] :=
        (List.append_assoc _ _ _).symm
      exact ⟨hout, .inl ⟨htake.trans (by rw [hdue]; rfl), hdone⟩⟩
  | sendFailed | allocFailed => cases hconf
  | @finish a rounds expired msg inTime waited ha hstage hexpired hwaited =>
      obtain rfl : expired = false := hconf
      have hdone : 0 < s.dev.rxComplete.done :=
        Nat.pos_of_ne_zero fun hzero => nomatch hexpired.mpr hzero
      obtain ⟨hdue, m, hm, hexp, heq⟩ := h.round hrx hcor ha hstage hdone msg inTime
      obtain rfl : (.success, m.encode) = waited := Option.some.inj (heq.symm.trans hwaited)
      have hfinish := h.finish hdue hm hexp
      exact ⟨hfinish.expected, hfinish.idle, nofun, hfinish.finished⟩
  | @retry a rounds expired msg inTime ha hstage hexpired hnone =>
      obtain rfl : expired = false := hconf
      have hdone : 0 < s.dev.rxComplete.done :=
        Nat.pos_of_ne_zero fun hzero => nomatch hexpired.mpr hzero
      obtain ⟨-, m, -, -, heq⟩ := h.round hrx hcor ha hstage hdone msg inTime
      cases heq.symm.trans hnone
  | @respond request pending m hpending hwf hname =>
      have hdue := due_respond m hpending hrx.handed_le
      refine h.of_due rfl rfl (List.subset_append_left _ _) ?_ (fun hnil => ⟨hdue.trans hnil, rfl⟩)
        fun a _ hawaits _ => by rw [hdue]; exact hawaits
      intro x hx r horigin
      rcases List.mem_append.mp hx with hx | hx
      · exact h.expected x hx r horigin
      · rw [List.mem_singleton.mp hx] at horigin ⊢
        cases horigin
        exact hconf request (by rw [hpending]; rfl)
  | @notify m =>
      have hdue := due_notify m hrx.handed_le
      refine h.of_due rfl rfl (List.subset_append_left _ _) ?_ (fun hnil => ⟨hdue.trans hnil, rfl⟩)
        fun a _ hawaits _ => by rw [hdue]; exact hawaits
      intro x hx r horigin
      rcases List.mem_append.mp hx with hx | hx
      · exact h.expected x hx r horigin
      · rw [List.mem_singleton.mp hx] at horigin
        cases horigin
  | @urb n msg hn _ =>
      obtain ⟨k, hk⟩ := hrx.urb hn msg
      have hname : ∀ x ∈ s.inflight, P.request x.message =
          x.origin.map fun r => r.cmd.reqCmdId :=
        fun x hx => (hrx.named x (List.mem_of_mem_drop hx)).2
      refine h.of_due rfl rfl (List.Subset.refl _) h.expected (fun hnil => ⟨?_, ?_⟩) ?_
      · exact List.eq_nil_iff_forall_not_mem.mpr fun r hr => by
          have hmem := mem_due_of_urb hk hr
          rw [hnil] at hmem
          cases hmem
      · rw [hk.rxComplete]
        exact foldl_signal_of_due_nil hnil hname k
      · rintro a ha hawaits ⟨rounds, hstage⟩
        have harmed := hcor.stage a ha
        rw [StageInv, hstage] at harmed
        rw [due_urb hk, hk.rxComplete]
        exact hawaits.foldl_signal harmed.1.id hname k

end Prompt

/-! ### Every run -/

theorem invariants_of_conforming {dev : Dev υ} (hdev : dev.Ready) {ls : List Label}
    (hrun : exec (step P) (start dev) ls = some s)
    (hconf : AllSteps (step P) Conforming (start dev) ls) :
    Receiving P s ∧ Ordered s ∧ Correlated s ∧ Prompt s := by
  apply exec_invariant_of_allSteps
    (I := fun s => Receiving P s ∧ Ordered s ∧ Correlated s ∧ Prompt s) _ _ hconf hrun
  · rintro s l t ⟨hrx, hord, hcor, hprompt⟩ hc hstep
    have hstep := step_of_eq_some hstep
    exact ⟨hrx.step hstep, hord.step hrx hstep, hcor.step hrx hord hstep,
      hprompt.step hrx hord hcor hc hstep⟩
  · exact ⟨receiving_start hdev, ordered_start dev, ⟨nofun, nofun⟩,
      ⟨nofun, fun _ => rfl, nofun, nofun⟩⟩

/-- Nothing is in flight when the wire is empty: no frame is carried over as a whole. -/
theorem Receiving.inflight_eq_nil (h : Receiving P s) (hwire : s.wire = []) :
    s.inflight = [] := by
  cases hinflight : s.inflight with
  | nil => rfl
  | cons x inflight =>
      have hstream := h.stream
      have hwaiting := h.transfer.waiting
      rw [hwire, List.append_nil, hinflight, List.map_cons, List.flatMap_cons] at hstream
      rw [hstream, frameVerdict_encode] at hwaiting
      cases hwaiting

/-- Once its response is delivered, the next round ends a command with it. -/
theorem round_of_delivered (hrx : Receiving P s) (hcor : Correlated s) (hprompt : Prompt s)
    {a : Active} {rounds : List WaitRound} (ha : s.active = some a)
    (hstage : a.stage = .wait rounds) (hpending : s.pending = []) (hwire : s.wire = [])
    (msg : Msg) (inTime : Bool) :
    ∃ t m, step P s (.round false msg inTime) = some t ∧ ⟨some a.request, m⟩ ∈ s.sent ∧
      Expected a.request.cmd m ∧
      t.finished = s.finished ++ [⟨a.request, a.outstanding, (.success, m.encode)⟩] := by
  have hdue : s.due = [] := by
    rw [due, hrx.inflight_eq_nil hwire, hpending]
    rfl
  have hdone : 0 < s.dev.rxComplete.done := by
    have hold := hprompt.stage a ha
    rw [PromptStage, hstage, hdue] at hold
    rcases hold.2 with ⟨hne, -⟩ | ⟨-, hdone⟩
    · cases hne
    · exact hdone
  obtain ⟨-, m, hm, hexp, hwaited⟩ := hprompt.round hrx hcor ha hstage hdone msg inTime
  refine ⟨(s.took false).finish a (.success, m.encode), m, ?_, hm, hexp, rfl⟩
  obtain ⟨request, data, stage, outstanding⟩ := a
  obtain rfl : stage = .wait rounds := hstage
  simp only [step, ha]
  rw [if_pos (by simpa using Nat.ne_of_gt hdone), hwaited]

end Session

end AptUsbtrx
