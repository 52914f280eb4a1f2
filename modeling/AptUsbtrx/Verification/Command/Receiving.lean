import AptUsbtrx.Verification.Command.Response
import AptUsbtrx.Verification.Command.Session

/-! # The receive path of a session

Every step keeps the receive path in order: what is carried over and what is on the wire
are the frames that the dispatcher was not handed yet. -/

namespace AptUsbtrx

open Memory Execution

/-- The reception runs and nothing was received. -/
structure Dev.Ready {υ : Type} (dev : Dev υ) : Prop where
  length_buffer : dev.rxTransfer.buffer.length = rxTransferBufferSize
  empty : dev.rxTransfer.dataSize = 0
  ongoing : dev.rxOngoing = true
  notClosing : dev.onclosing = false
  full : dev.rxComplete.Full

theorem Dev.ready_probed {υ : Type} (rxDataAddr rxDataSize txDataAddr : ℕ) (time : Timespec64)
    (uniqueData : υ) : (Dev.probed rxDataAddr rxDataSize txDataAddr time uniqueData).Ready :=
  ⟨List.length_replicate, rfl, rfl, rfl, List.length_replicate, rfl⟩

namespace Session

variable {υ : Type} {P : Protocol υ} {s : Session υ}

@[simp] theorem inflight_put (x : Sent) (h : s.handed ≤ s.sent.length) :
    (s.put x).inflight = s.inflight ++ [x] := List.drop_append_of_le_length h

/-- The receive path is running and what it still has to decode are whole frames. -/
structure Receiving (P : Protocol υ) (s : Session υ) : Prop where
  transfer : s.dev.rxTransfer.Wf
  ongoing : s.dev.rxOngoing = true
  notClosing : s.dev.onclosing = false
  full : s.dev.rxComplete.Full
  handed_le : s.handed ≤ s.sent.length
  stream : s.dev.rxTransfer.leftover ++ s.wire =
    (s.inflight.map Sent.message).flatMap Message.encode
  named : ∀ x ∈ s.sent, x.message.WellFormed ∧
    P.request x.message = x.origin.map fun r => r.cmd.reqCmdId

theorem receiving_start {dev : Dev υ} (hdev : dev.Ready) : Receiving P (start dev) where
  transfer := RxTransfer.wf_of_empty hdev.length_buffer hdev.empty
  ongoing := hdev.ongoing
  notClosing := hdev.notClosing
  full := hdev.full
  handed_le := Nat.le_refl _
  stream := by
    rw [start, RxTransfer.leftover_of_empty hdev.empty]
    rfl
  named := nofun

namespace Receiving

/-- What a URB does: the dispatcher is handed the next messages in flight. -/
structure UrbSpec (P : Protocol υ) (s t : Session υ) (k : ℕ) : Prop where
  le : k ≤ s.inflight.length
  handed : t.handed = s.handed + k
  rxComplete : t.dev.rxComplete =
    ((s.inflight.take k).map Sent.message).foldl P.signal s.dev.rxComplete
  receiving : Receiving P t

/-- What every message that is handed over keeps holds behind the first `k` of them. -/
theorem foldl_signal_induction {I : List Sent → RxComplete → Prop}
    (hsignal : ∀ x inflight rx, I (x :: inflight) rx → I inflight (P.signal rx x.message))
    {inflight : List Sent} {rx : RxComplete} (h : I inflight rx) (k : ℕ) :
    I (inflight.drop k) (((inflight.take k).map Sent.message).foldl P.signal rx) := by
  induction k generalizing inflight rx with
  | zero => exact h
  | succ k ih =>
      cases inflight with
      | nil => exact h
      | cons x inflight => exact ih (hsignal x inflight rx h)

theorem id_foldl (rx : RxComplete) (ms : List Message) : (ms.foldl P.signal rx).id = rx.id := by
  induction ms generalizing rx with
  | nil => rfl
  | cons m ms ih => exact (ih _).trans (P.signal_id rx m)

theorem full_foldl {rx : RxComplete} (h : rx.Full) (ms : List Message) :
    (ms.foldl P.signal rx).Full := by
  induction ms generalizing rx with
  | nil => exact h
  | cons m ms ih => exact ih (P.full_signal h m)

theorem urb (h : Receiving P s) {n : ℕ} (hn : n ≤ rxBufferSize) (msg : Msg) :
    ∃ k, UrbSpec P s (s.urb P n msg) k := by
  have hrecv : (s.wire.take n).length ≤ rxBufferSize := by
    rw [List.length_take]
    omega
  obtain ⟨k, hk, hscan, hrest⟩ := scan_of_frames
    (show (s.dev.rxTransfer.leftover ++ s.wire.take n) ++ s.wire.drop n =
      (s.inflight.map Sent.message).flatMap Message.encode by
        rw [List.append_assoc, List.take_append_drop, h.stream])
  rw [List.length_map] at hk
  rw [← List.map_take] at hscan
  have hsim : Simulates (dispatchMsg P.dispatch) Message.WellFormed
      (fun dev rx => dev.rxComplete = rx ∧ dev.rxOngoing = true ∧ dev.onclosing = false)
      P.signal := by
    rintro dev rx data m ⟨rfl, hongoing, hclosing⟩ hhanded hwf
    have hspec := P.dispatchMsg_spec hongoing hhanded hwf
    exact ⟨hspec.rxComplete, hspec.rxOngoing.trans hongoing, hspec.onclosing.trans hclosing⟩
  have hwf : ∀ m ∈ (frameDecoder.scan (s.dev.rxTransfer.leftover ++ s.wire.take n)).1,
      m.WellFormed := by
    rw [hscan]
    intro m hm
    obtain ⟨x, hx, rfl⟩ := List.mem_map.mp hm
    exact (h.named x (List.mem_of_mem_drop (List.mem_of_mem_take hx))).1
  obtain ⟨htransfer, hleft, hcomplete, hongoing, hclosing⟩ := readBulkCallback_spec hsim msg
    h.transfer hrecv ⟨rfl, h.ongoing, h.notClosing⟩ hwf
  rw [hscan] at hcomplete
  have hhanded : (handedMessages (dispatchMsg P.dispatch) s.dev s.dev.rxTransfer
      [(s.wire.take n, msg)]).length = k := by
    rw [handedMessages_of_wf _ _ h.transfer (by simpa [Legal] using hrecv), List.length_map]
    simp only [received, List.map_cons, List.map_nil, List.flatten_cons, List.flatten_nil,
      List.append_nil]
    rw [hscan, List.length_map, List.length_take, Nat.min_eq_left hk]
  have hdev : (s.urb P n msg).dev = { (readBulkCallback (dispatchMsg P.dispatch) false .ok
      (s.wire.take n) msg s.dev.rxTransfer s.dev).2.1 with
      rxTransfer := (readBulkCallback (dispatchMsg P.dispatch) false .ok
        (s.wire.take n) msg s.dev.rxTransfer s.dev).1 } := by
    rw [Session.urb, Dev.readBulkCallback, h.notClosing]
  have hcount : (s.urb P n msg).handed = s.handed + k := by
    rw [Session.urb, hhanded]
  have hinflight : (s.urb P n msg).inflight = s.inflight.drop k := by
    rw [Session.inflight, hcount, ← List.drop_drop]
    rfl
  refine ⟨k, hk, hcount, by rw [hdev]; exact hcomplete, ?_⟩
  refine ⟨by rw [hdev]; exact htransfer, by rw [hdev]; exact hongoing,
    by rw [hdev]; exact hclosing, ?_, ?_, ?_, h.named⟩
  · rw [hdev]
    simp only [hcomplete]
    exact full_foldl h.full _
  · rw [hcount]
    have : s.inflight.length = s.sent.length - s.handed := List.length_drop
    have := h.handed_le
    change s.handed + k ≤ s.sent.length
    omega
  · rw [hinflight, List.map_drop, ← hrest, ← hleft, hdev]
    rfl

theorem put (h : Receiving P s) {x : Sent} (hwf : x.message.WellFormed)
    (hname : P.request x.message = x.origin.map fun r => r.cmd.reqCmdId) :
    Receiving P (s.put x) := by
  refine ⟨h.transfer, h.ongoing, h.notClosing, h.full, ?_, ?_, ?_⟩
  · exact h.handed_le.trans (by simp [Session.put])
  · rw [inflight_put x h.handed_le, List.map_append, List.flatMap_append, ← h.stream]
    simp [Session.put]
  · intro y hy
    rcases List.mem_append.mp hy with hy | hy
    · exact h.named y hy
    · rw [List.mem_singleton.mp hy]
      exact ⟨hwf, hname⟩

/-- The steps of a command that do not touch the receive path. -/
theorem of_eq (h : Receiving P s) {t : Session υ} (htransfer : t.dev.rxTransfer = s.dev.rxTransfer)
    (hongoing : t.dev.rxOngoing = s.dev.rxOngoing) (hclosing : t.dev.onclosing = s.dev.onclosing)
    (hfull : t.dev.rxComplete.Full) (hsent : t.sent = s.sent) (hhanded : t.handed = s.handed)
    (hwire : t.wire = s.wire) : Receiving P t where
  transfer := htransfer ▸ h.transfer
  ongoing := hongoing.trans h.ongoing
  notClosing := hclosing.trans h.notClosing
  full := hfull
  handed_le := by
    rw [hhanded, hsent]
    exact h.handed_le
  stream := by
    rw [htransfer, hwire, inflight, hhanded, hsent]
    exact h.stream
  named := by
    rw [hsent]
    exact h.named

theorem step (h : Receiving P s) {l : Label} {t : Session υ} (hstep : Step P s l t) :
    Receiving P t := by
  have hsame : s.dev.rxComplete.Full := h.full
  cases hstep with
  | down | send | allocFailed => exact h.of_eq rfl rfl rfl hsame rfl rfl rfl
  | setId | initCompletion =>
      exact h.of_eq rfl rfl rfl ⟨hsame.length_buffer, hsame.bufferSize_eq⟩ rfl rfl rfl
  | @sendFailed a taken =>
      cases taken with
      | false | true => exact h.of_eq rfl rfl rfl hsame rfl rfl rfl
  | @finish a rounds expired | @retry a rounds expired =>
      cases expired with
      | true => exact h.of_eq rfl rfl rfl hsame rfl rfl rfl
      | false => exact h.of_eq rfl rfl rfl ⟨hsame.length_buffer, hsame.bufferSize_eq⟩ rfl rfl rfl
  | @respond request pending m _ hwf hname =>
      have hidle : Receiving P { s with pending := pending } :=
        h.of_eq rfl rfl rfl hsame rfl rfl rfl
      exact hidle.put (x := ⟨some request, m⟩) hwf hname
  | notify hwf hname => exact h.put hwf hname
  | @urb n msg hn _ =>
      obtain ⟨k, hk⟩ := h.urb hn msg
      exact hk.receiving

end Receiving

/-! ### The order of requests -/

theorem due_respond {request : Request} {pending : List Request} (m : Message)
    (hpending : s.pending = request :: pending) (h : s.handed ≤ s.sent.length) :
    ({ s with pending := pending }.put ⟨some request, m⟩).due = s.due := by
  have hinflight := inflight_put (s := { s with pending := pending }) ⟨some request, m⟩ h
  rw [due, hinflight, due, hpending, List.filterMap_append, List.append_assoc]
  rfl

theorem due_notify (m : Message) (h : s.handed ≤ s.sent.length) :
    (s.put ⟨none, m⟩).due = s.due := by
  rw [due, inflight_put _ h, due, List.filterMap_append]
  simp [Session.put]

/-- The requests whose response is due after `k` messages. -/
theorem due_urb {n : ℕ} {msg : Msg} {k : ℕ} (h : Receiving.UrbSpec P s (s.urb P n msg) k) :
    (s.urb P n msg).due = (s.inflight.drop k).filterMap Sent.origin ++ s.pending := by
  rw [due, inflight, h.handed, ← List.drop_drop]
  rfl

theorem mem_due_of_urb {n : ℕ} {msg : Msg} {k : ℕ}
    (h : Receiving.UrbSpec P s (s.urb P n msg) k) {r : Request} (hr : r ∈ (s.urb P n msg).due) :
    r ∈ s.due := by
  rw [due_urb h] at hr
  rcases List.mem_append.mp hr with hr | hr
  · obtain ⟨x, hx, horigin⟩ := List.mem_filterMap.mp hr
    exact List.mem_append_left _ (List.mem_filterMap.mpr ⟨x, List.mem_of_mem_drop hx, horigin⟩)
  · exact List.mem_append_right _ hr

theorem mem_due_take {a : Active} {taken : Bool} {r : Request} (hr : r ∈ (s.take a taken).due) :
    r ∈ s.due ∨ r = a.request := by
  cases taken with
  | false => exact .inl hr
  | true =>
      change r ∈ s.inflight.filterMap Sent.origin ++ (s.pending ++ [a.request]) at hr
      rw [← List.append_assoc] at hr
      exact (List.mem_append.mp hr).imp_right List.mem_singleton.mp

/-- At most one command holds the semaphore, and it is the youngest one. -/
structure Ordered (s : Session υ) : Prop where
  sem : s.sendMsgSem = if s.active.isSome then 0 else 1
  due_lt : ∀ r ∈ s.due, r.seq < s.nextSeq
  active_lt : ∀ a, s.active = some a → a.request.seq < s.nextSeq
  due_le : ∀ a, s.active = some a → ∀ r ∈ s.due, r.seq ≤ a.request.seq

theorem ordered_start (dev : Dev υ) : Ordered (start dev) := ⟨rfl, nofun, nofun, nofun⟩

namespace Ordered

/-- Steps that keep the holder of the semaphore and make no request due. -/
theorem of_due (h : Ordered s) {t : Session υ} (hsem : t.sendMsgSem = s.sendMsgSem)
    (hactive : t.active.map Active.request = s.active.map Active.request)
    (hnext : t.nextSeq = s.nextSeq) (hdue : ∀ r ∈ t.due, r ∈ s.due) : Ordered t := by
  have hsome (a : Active) (ha : t.active = some a) :
      ∃ b, s.active = some b ∧ b.request = a.request := by
    rw [ha] at hactive
    obtain ⟨b, hb, hab⟩ := Option.map_eq_some_iff.mp hactive.symm
    exact ⟨b, hb, hab⟩
  refine ⟨?_, ?_, ?_, ?_⟩
  · rw [hsem, h.sem, ← Option.isSome_map (f := Active.request), ← hactive, Option.isSome_map]
  · intro r hr
    rw [hnext]
    exact h.due_lt r (hdue r hr)
  · intro a ha
    obtain ⟨b, hb, hab⟩ := hsome a ha
    rw [hnext, ← hab]
    exact h.active_lt b hb
  · intro a ha r hr
    obtain ⟨b, hb, hab⟩ := hsome a ha
    rw [← hab]
    exact h.due_le b hb r (hdue r hr)

theorem take (h : Ordered s) {a : Active} (ha : s.active = some a) (taken : Bool) :
    Ordered (s.take a taken) := by
  have hactive : (s.take a taken).active = s.active := by cases taken <;> rfl
  have hnext : (s.take a taken).nextSeq = s.nextSeq := by cases taken <;> rfl
  refine ⟨?_, ?_, ?_, ?_⟩
  · rw [hactive, ← h.sem]
    cases taken <;> rfl
  · intro r hr
    rw [hnext]
    rcases mem_due_take hr with hr | rfl
    · exact h.due_lt r hr
    · exact h.active_lt a ha
  · rw [hactive, hnext]
    exact h.active_lt
  · rw [hactive]
    intro b hb r hr
    rcases mem_due_take hr with hr | rfl
    · exact h.due_le b hb r hr
    · rw [ha] at hb
      cases hb
      exact Nat.le_refl _

theorem finish (h : Ordered s) {a : Active} (ha : s.active = some a)
    (waited : Result × List UInt8) : Ordered (s.finish a waited) := by
  refine ⟨?_, h.due_lt, nofun, nofun⟩
  have hsem := h.sem
  rw [ha] at hsem
  simp [Session.finish, hsem]

theorem took (h : Ordered s) (expired : Bool) : Ordered (s.took expired) := by
  cases expired with
  | false => exact h.of_due rfl rfl rfl fun _ hr => hr
  | true => exact h

theorem idle_of_sem (h : Ordered s) (hsem : 0 < s.sendMsgSem) : s.active = none := by
  have hheld := h.sem
  cases hactive : s.active with
  | none => rfl
  | some a =>
      rw [hactive, Option.isSome_some, if_pos rfl] at hheld
      omega

theorem step (h : Ordered s) (hrx : Receiving P s) {l : Label} {t : Session υ}
    (hstep : Step P s l t) : Ordered t := by
  cases hstep with
  | @down cmd pack msg hsem _ =>
      have hnone := h.idle_of_sem hsem
      refine ⟨?_, ?_, ?_, ?_⟩
      · simp [Session.down, h.sem, hnone]
      · intro r hr
        exact Nat.lt_succ_of_lt (h.due_lt r hr)
      · rintro a ⟨⟩
        exact Nat.lt_succ_self _
      · rintro a ⟨⟩ r hr
        exact Nat.le_of_lt (h.due_lt r hr)
  | setId ha | initCompletion ha =>
      exact h.of_due rfl (by rw [ha]; rfl) rfl fun _ hr => hr
  | send ha =>
      exact (h.take ha true).of_due rfl (by rw [show (s.take _ true).active = _ from ha]; rfl) rfl
        fun _ hr => hr
  | @sendFailed a taken ha =>
      have hactive : (s.take a taken).active = some a := by cases taken <;> exact ha
      exact (h.take ha taken).finish hactive _
  | allocFailed ha => exact h.finish ha _
  | @finish a rounds expired msg inTime waited ha =>
      have hactive : (s.took expired).active = some a := by cases expired <;> exact ha
      exact (h.took expired).finish hactive _
  | @retry a rounds expired msg inTime ha =>
      have hactive : (s.took expired).active = some a := by cases expired <;> exact ha
      exact (h.took expired).of_due rfl (by rw [hactive]; rfl) rfl fun _ hr => hr
  | @respond request pending m hpending =>
      refine h.of_due rfl rfl rfl fun r hr => ?_
      rwa [due_respond m hpending hrx.handed_le] at hr
  | @notify m =>
      refine h.of_due rfl rfl rfl fun r hr => ?_
      rwa [due_notify m hrx.handed_le] at hr
  | @urb n msg hn _ =>
      obtain ⟨k, hk⟩ := hrx.urb hn msg
      exact h.of_due rfl rfl rfl fun r hr => mem_due_of_urb hk hr

end Ordered

end Session

end AptUsbtrx
