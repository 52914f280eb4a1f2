import AptUsbtrx.Model.Ep1Cf02a
import AptUsbtrx.Shared.Execution
import AptUsbtrx.Verification.Read.Parse
import AptUsbtrx.Verification.Ringbuffer.Operations

/-! # Device and host timestamps

Two devices that differ in the timestamp mode run in lockstep: as long as every read starts
with a record, the application gets the same bytes from both, but for the timestamps. -/

namespace AptUsbtrx

open Memory Execution

variable {υ : Type}

/-- The receive ring and the copy of it in `rx_rbmsg`. -/
structure ReadReady (dev : Dev υ) : Prop where
  wf : dev.rxData.Wf
  room : dev.rxData.endPtr + maxRwCount < 2 ^ 64
  length_rbmsg : dev.rxRbmsg.length = dev.rxData.bufferSize

section

variable {dev : Dev υ} (func : UniqueFunction) {copyToUser : ℕ → ℕ → Bool} (rbmsgAddr : ℕ)
  (hready : ReadReady dev) (hopening : dev.onopening = false) (hclosing : dev.onclosing = false)
  (hcopy : ∀ dst n, copyToUser dst n = true) (buffer : ℕ) {count : ℕ}
  (hbuffer : buffer ≠ 0) (hcount : count ≤ maxRwCount) (relativeTimeNs : UInt64)
  (interrupted : Bool)

theorem read_opening {count : ℕ} (h : dev.onopening = true) :
    read func copyToUser rbmsgAddr dev buffer count relativeTimeNs interrupted =
      some (⟨-enodev, []⟩, dev) := by
  rw [read, if_pos h]

include hopening in
theorem read_closing {count : ℕ} (h : dev.onclosing = true) :
    read func copyToUser rbmsgAddr dev buffer count relativeTimeNs interrupted =
      some (⟨-eshutdown, []⟩, dev) := by
  rw [read, hopening, if_neg Bool.false_ne_true, if_pos h]

include hclosing in
theorem isReadEnable_iff (hw : dev.rxData.Wf) : isReadEnable dev = true ↔ dev.rxData.queue ≠ [] := by
  rw [isReadEnable, hclosing, if_neg Bool.false_ne_true]
  simp only [ne_eq, ← ringbufferIsEmpty_iff hw]
  cases ringbufferIsEmpty dev.rxData <;> simp

include hready hopening hclosing

/-- There is nothing to read. -/
theorem read_empty (hempty : dev.rxData.queue = []) :
    read func copyToUser rbmsgAddr dev buffer count relativeTimeNs interrupted =
      if interrupted then some (⟨-erestartsys, []⟩, dev) else none := by
  have hdisabled : isReadEnable dev = false := by
    rw [← Bool.not_eq_true, isReadEnable_iff hclosing hready.wf]
    exact not_not_intro hempty
  rw [read, hopening, if_neg Bool.false_ne_true, hclosing, if_neg Bool.false_ne_true,
    if_pos hdisabled]

include hcopy hbuffer hcount in
theorem read_device (hmode : dev.timestampMode = .device) (hne : dev.rxData.queue ≠ []) :
    ∃ ring, Removed dev.rxData count ring ∧
      read func copyToUser rbmsgAddr dev buffer count relativeTimeNs interrupted =
        some (⟨(min count dev.rxData.queue.length : ℕ), dev.rxData.queue.take count⟩,
          { dev with rxData := ring }) := by
  have hroom := hready.room
  have henabled := (isReadEnable_iff hclosing hready.wf).mpr hne
  have hspec : ReadSpec dev.rxData count (ringbufferRead copyToUser dev.rxData buffer count) :=
    ringbufferReadWith_spec hready.wf hbuffer (by omega) fun dst n _ => hcopy dst n
  refine ⟨_, hspec.removed, ?_⟩
  rw [read, hopening, if_neg Bool.false_ne_true, hclosing, if_neg Bool.false_ne_true, henabled,
    if_neg (by decide), if_pos hmode]
  dsimp only
  rw [hspec.ret, hspec.out, if_neg (by omega)]

omit hready in
/-- A read in host mode hands out what `apt_usbtrx_parse_rbmsg` makes of the oldest bytes, which
leave the ring before they are parsed and copied. -/
theorem read_host_eq (hw : dev.rxData.Wf) (haddr : rbmsgAddr ≠ 0)
    (hmode : dev.timestampMode = .host) (hne : dev.rxData.queue ≠ []) {n : ℕ}
    (hn : n = min count dev.rxData.queue.length) (hroom : dev.rxData.endPtr + n < 2 ^ 64)
    (hpos : 0 < n) {result : Result} {rbmsg : List UInt8}
    (hparse : parseRbmsg func .host (overwrite dev.rxRbmsg 0 (dev.rxData.queue.take n)) n
      relativeTimeNs = (result, rbmsg)) :
    ∃ ring, Removed dev.rxData count ring ∧
      read func copyToUser rbmsgAddr dev buffer count relativeTimeNs interrupted =
        some (if result = .success ∧ copyToUser buffer n = true then ⟨n, rbmsg.take n⟩
          else ⟨-eio, []⟩, { dev with rxData := ring, rxRbmsg := rbmsg }) := by
  have henabled := (isReadEnable_iff hclosing hw).mpr hne
  have hused : (if ringbufferGetUsedSize dev.rxData > count then count
      else ringbufferGetUsedSize dev.rxData) = n := by
    rw [ringbufferGetUsedSize_eq hw]
    split <;> omega
  have hspec : ReadSpec dev.rxData n (ringbufferRawread dev.rxData rbmsgAddr n) :=
    ringbufferRawread_spec hw haddr hroom
  have hret : (ringbufferRawread dev.rxData rbmsgAddr n).ret = n := by
    rw [hspec.ret, Nat.min_eq_left (by omega)]
  refine ⟨_, (ReadSpec.of_min hn hret hspec.out hspec.removed).removed, ?_⟩
  rw [read, hopening, if_neg Bool.false_ne_true, hclosing, if_neg Bool.false_ne_true, henabled,
    if_neg (by decide), hmode, if_neg (by decide)]
  dsimp only
  rw [hused, hret, hspec.out, if_neg (by omega), if_pos (by omega), Int.toNat_natCast, hparse]
  dsimp only
  by_cases hresult : result = .success
  · rw [if_neg (not_not_intro hresult)]
    by_cases hcopied : copyToUser buffer n = true
    · rw [if_neg (not_not_intro hcopied), if_pos ⟨hresult, hcopied⟩]
    · rw [if_pos hcopied, if_neg fun h => hcopied h.2]
  · rw [if_pos hresult, if_neg fun h => hresult h.1]

omit hopening hclosing in
/-- What is copied to `rx_rbmsg`. -/
theorem length_take_queue {n : ℕ} (hn : n ≤ dev.rxData.queue.length) :
    (dev.rxData.queue.take n).length = n ∧ n ≤ dev.rxRbmsg.length := by
  have hlen := Ringbuffer.length_queue_le hready.wf
  rw [List.length_take, hready.length_rbmsg]
  omega

include hcopy hcount in
/-- A read in host mode of bytes that start with a record. -/
theorem read_host (haddr : rbmsgAddr ≠ 0) (hmode : dev.timestampMode = .host)
    (hne : dev.rxData.queue ≠ []) (hpos : 0 < count) {pending : List (List UInt8)}
    (hrecords : ∀ r ∈ pending, func.IsRecord r) (hqueue : dev.rxData.queue = pending.flatten)
    (hcut : CutSized func dev.rxRbmsg 0 pending (min count dev.rxData.queue.length)) :
    ∃ ring rbmsg, Removed dev.rxData count ring ∧ rbmsg.length = dev.rxRbmsg.length ∧
      read func copyToUser rbmsgAddr dev buffer count relativeTimeNs interrupted =
        some (⟨(min count dev.rxData.queue.length : ℕ),
            (stamped (hostTimestamp (relativeTimeNs / nsecPerUsec)) pending).take
              (min count dev.rxData.queue.length)⟩,
          { dev with rxData := ring, rxRbmsg := rbmsg }) := by
  have hlenpos := List.length_pos_of_ne_nil hne
  obtain ⟨n, hn⟩ : ∃ n, n = min count dev.rxData.queue.length := ⟨_, rfl⟩
  obtain ⟨houtlen, hfits⟩ := length_take_queue hready (n := n) (by omega)
  have hfront : (overwrite dev.rxRbmsg 0 (dev.rxData.queue.take n)).take n =
      pending.flatten.take n := by
    have htake := take_overwrite_zero (houtlen.trans_le hfits)
    rw [houtlen] at htake
    rw [htake, hqueue]
  rw [← hn] at hcut ⊢
  obtain ⟨rbmsg, hparse, hlength, hstamps⟩ := parseRbmsg_records relativeTimeNs hrecords
    (by rw [← hqueue]; omega) (by rwa [length_overwrite]) hfront (hcut.overwrite houtlen)
  have hroom := hready.room
  obtain ⟨ring, hremoved, hread⟩ := read_host_eq func rbmsgAddr hopening hclosing buffer
    relativeTimeNs interrupted hready.wf haddr hmode hne hn (by omega) (by omega) hparse
  refine ⟨ring, rbmsg, hremoved, hlength.trans (length_overwrite _ _ _), ?_⟩
  rw [hread, if_pos ⟨rfl, hcopy _ _⟩, hstamps]

end

namespace ReadSystem

variable {func : UniqueFunction} {copyToUser : ℕ → ℕ → Bool} {rbmsgAddr : ℕ} {s t : ReadSystem υ}

/-- The bytes returned by the reads so far. -/
def returned (s : ReadSystem υ) : List UInt8 := s.reads.flatMap FileRead.out

/-- The same reads have returned the same, but for the timestamps of the records. -/
structure Agree (s t : ReadSystem υ) : Prop where
  records : t.records = s.records
  rets : t.reads.map FileRead.ret = s.reads.map FileRead.ret
  length : t.returned.length = s.returned.length
  bytes : ∀ k, timestampAt s.records k = false → t.returned[k]? = s.returned[k]?

/-- The next read starts with a record, and the record that it cuts in front of its ninth
byte, if any, still has a size. -/
def Aligned (func : UniqueFunction) (s : ReadSystem υ) : ReadLabel → Prop
  | .deliver _ => True
  | .read _ count _ _ => ∃ done pending, s.records = done ++ pending ∧
      done.flatten.length = s.returned.length ∧
      CutSized func s.dev.rxRbmsg 0 pending (min count s.dev.rxData.queue.length)

/-- The device in device mode and the device in host mode. -/
structure Lockstep (func : UniqueFunction) (s t : ReadSystem υ) : Prop where
  agree : Agree s t
  ready : ReadReady t.dev
  device : s.dev.timestampMode = .device
  host : t.dev.timestampMode = .host
  rxData : s.dev.rxData = t.dev.rxData
  length_rbmsg : s.dev.rxRbmsg.length = t.dev.rxRbmsg.length
  onopening : s.dev.onopening = t.dev.onopening
  onclosing : s.dev.onclosing = t.dev.onclosing
  isRecord : ∀ r ∈ s.records, func.IsRecord r
  stream : s.records.flatten = s.returned ++ s.dev.rxData.queue

theorem Lockstep.ready_device (h : Lockstep func s t) : ReadReady s.dev where
  wf := h.rxData ▸ h.ready.wf
  room := h.rxData ▸ h.ready.room
  length_rbmsg := by rw [h.length_rbmsg, h.ready.length_rbmsg, h.rxData]

@[simp] theorem returned_finish (s : ReadSystem υ) (r : FileRead × Dev υ) :
    (s.finish r).returned = s.returned ++ r.1.out := by
  simp [returned, finish]

@[simp] theorem returned_deliver (s : ReadSystem υ) (record : List UInt8) :
    (s.deliver record).returned = s.returned := rfl

/-- On the EP1-CF02A a delivery is what the dispatcher does with the notification. -/
theorem deliver_dev_eq_dispatchMsg (s : ReadSystem Ep1Cf02a.UniqueData)
    (hongoing : s.dev.rxOngoing = true) (hfile : s.dev.uniqueData.ifType = .file)
    (data : List UInt8) {msg : Msg} (hid : msg.id = Ep1Cf02a.cmdNotifyRecvCANFrame)
    (hsize : msg.payloadSize = 78) :
    (s.deliver msg.payload).dev = (dispatchMsg Ep1Cf02a.dispatchMsg s.dev data msg).1 := by
  rw [dispatchMsg, if_neg (not_not_intro hongoing), hid, if_neg (by decide), if_neg (by decide),
    if_neg (by decide), Ep1Cf02a.dispatchMsg, hid, if_pos rfl, if_pos hfile, deliver,
    msg.payload_length, hsize]
  rfl

/-- One more read. -/
theorem Agree.finish (h : Agree s t) (dev dev' : Dev υ) {ret : ℤ} {out out' : List UInt8}
    (hlen : out'.length = out.length)
    (hbytes : ∀ k, timestampAt s.records (s.returned.length + k) = false → out'[k]? = out[k]?) :
    Agree (s.finish (⟨ret, out⟩, dev)) (t.finish (⟨ret, out'⟩, dev')) where
  records := h.records
  rets := by simp [ReadSystem.finish, h.rets]
  length := by
    rw [returned_finish, returned_finish, List.length_append, List.length_append, h.length, hlen]
  bytes k hk := by
    have hlength := h.length
    rw [returned_finish, returned_finish]
    by_cases hin : k < s.returned.length
    · rw [List.getElem?_append_left (hlength ▸ hin), List.getElem?_append_left hin]
      exact h.bytes k hk
    · rw [List.getElem?_append_right (by omega), List.getElem?_append_right (by omega), hlength]
      apply hbytes
      rwa [Nat.add_sub_cancel' (Nat.not_lt.mp hin)]

/-- A read that returns no bytes. -/
theorem Lockstep.finish_nothing (h : Lockstep func s t) (ret : ℤ) :
    Lockstep func (s.finish (⟨ret, []⟩, s.dev)) (t.finish (⟨ret, []⟩, t.dev)) where
  agree := h.agree.finish _ _ rfl fun _ _ => rfl
  ready := h.ready
  device := h.device
  host := h.host
  rxData := h.rxData
  length_rbmsg := h.length_rbmsg
  onopening := h.onopening
  onclosing := h.onclosing
  isRecord := h.isRecord
  stream := by
    rw [returned_finish, List.append_nil]
    exact h.stream

/-- `new` has entered both rings. -/
theorem Lockstep.enter (h : Lockstep func s t) {ring : Ringbuffer} (new : List (List UInt8))
    (hw : ring.Wf) (hend : ring.endPtr = t.dev.rxData.endPtr)
    (hsize : ring.bufferSize = t.dev.rxData.bufferSize)
    (hqueue : ring.queue = t.dev.rxData.queue ++ new.flatten) (hnew : ∀ r ∈ new, func.IsRecord r) :
    Lockstep func { s with dev := { s.dev with rxData := ring }, records := s.records ++ new }
      { t with dev := { t.dev with rxData := ring }, records := t.records ++ new } where
  agree :=
    { records := congrArg (· ++ new) h.agree.records
      rets := h.agree.rets
      length := h.agree.length
      bytes := fun k hk => h.agree.bytes k (by
        rw [← Bool.not_eq_true] at hk ⊢
        exact fun hold => hk (timestampAt_append_of_eq_true new hold)) }
  ready :=
    { wf := hw
      room := hend ▸ h.ready.room
      length_rbmsg := hsize ▸ h.ready.length_rbmsg }
  device := h.device
  host := h.host
  rxData := rfl
  length_rbmsg := h.length_rbmsg
  onopening := h.onopening
  onclosing := h.onclosing
  isRecord r hr := (List.mem_append.mp hr).elim (h.isRecord r) (hnew r)
  stream := by
    change (s.records ++ new).flatten = s.returned ++ ring.queue
    rw [List.flatten_append, h.stream, hqueue, h.rxData, List.append_assoc]

/-- A record enters both rings or none. -/
theorem Lockstep.deliver (h : Lockstep func s t) {record : List UInt8}
    (hrecord : func.IsRecord record) : Lockstep func (s.deliver record) (t.deliver record) := by
  have hbounds := hrecord.length_bounds
  have hroom : t.dev.rxData.endPtr + record.length < 2 ^ 64 := by
    have hmax : maxPayload ≤ maxRwCount := by decide
    have := h.ready.room
    omega
  rw [ReadSystem.deliver, ReadSystem.deliver, h.rxData]
  rcases ringbufferWrite_cases h.ready.wf rfl (h.ready.wf.writePtr_add_lt hroom)
    (Nat.zero_lt_of_lt hbounds.1) with
    ⟨-, hret, hwritten⟩ | ⟨-, hskip⟩
  · dsimp only
    rw [hret, if_neg (by omega), if_neg (by omega)]
    refine h.enter [record] hwritten.wf ?_ hwritten.bufferSize ?_ fun r hr =>
      List.mem_singleton.mp hr ▸ hrecord
    · rw [hwritten.wf.end_eq, hwritten.beginPtr, hwritten.bufferSize, h.ready.wf.end_eq]
    · rw [hwritten.queue, List.flatten_singleton]
  · rw [hskip]
    dsimp only
    rw [if_pos (by decide), if_pos (by decide)]
    have hnone := h.enter [] (wf_skipped h.ready.wf record.length) rfl rfl
      (List.append_nil _).symm fun r hr => nomatch hr
    rwa [List.append_nil, List.append_nil] at hnone

/-- A read from rings that are not empty. -/
theorem Lockstep.read (h : Lockstep func s t) (hopening : t.dev.onopening = false)
    (hclosing : t.dev.onclosing = false) (hcopy : ∀ dst n, copyToUser dst n = true)
    (haddr : rbmsgAddr ≠ 0) {buffer count : ℕ} (hbuffer : buffer ≠ 0) (hpos : 0 < count)
    (hcount : count ≤ maxRwCount) (relativeTimeNs : UInt64) (interrupted : Bool)
    (hne : t.dev.rxData.queue ≠ [])
    (haligned : Aligned func t (.read buffer count relativeTimeNs interrupted)) :
    ∃ r r', AptUsbtrx.read func copyToUser rbmsgAddr s.dev buffer count relativeTimeNs
        interrupted = some r ∧
      AptUsbtrx.read func copyToUser rbmsgAddr t.dev buffer count relativeTimeNs interrupted =
        some r' ∧ Lockstep func (s.finish r) (t.finish r') := by
  obtain ⟨done, pending, hrecords, hdone, hcut⟩ := haligned
  have hpending : s.returned = done.flatten ∧ s.dev.rxData.queue = pending.flatten := by
    have hstream := h.stream
    rw [← h.agree.records, hrecords, List.flatten_append] at hstream
    exact (List.append_inj hstream (hdone.trans h.agree.length)).imp Eq.symm Eq.symm
  have hisRecord : ∀ r ∈ pending, func.IsRecord r := by
    intro r hr
    refine h.isRecord r ?_
    rw [← h.agree.records, hrecords]
    exact List.mem_append_right _ hr
  obtain ⟨ring, hremoved, hread⟩ := read_device func rbmsgAddr h.ready_device
    (h.onopening.trans hopening) (h.onclosing.trans hclosing) hcopy buffer hbuffer hcount
    relativeTimeNs interrupted h.device (h.rxData ▸ hne)
  obtain ⟨ring', rbmsg, hremoved', hrbmsg, hread'⟩ := read_host func rbmsgAddr h.ready hopening
    hclosing hcopy buffer hcount relativeTimeNs interrupted haddr h.host hne hpos hisRecord
    (h.rxData ▸ hpending.2) hcut
  refine ⟨_, _, hread, hread', ?_⟩
  rw [h.rxData]
  have hqueue : t.dev.rxData.queue = pending.flatten := h.rxData ▸ hpending.2
  have hsizes : ∀ r ∈ pending, timestampSize < r.length :=
    fun r hr => (hisRecord r hr).length_bounds.1
  have hstamped := length_stamped
    (length_hostTimestamp (relativeTimeNs / nsecPerUsec)) hsizes
  exact
    { agree := by
        refine h.agree.finish _ _ ?_ fun k hk => ?_
        · rw [List.length_take, List.length_take, hstamped, hqueue]
          omega
        · rw [← h.agree.records, hrecords, hpending.1, timestampAt_append] at hk
          have hbyte := getElem?_stamped (length_hostTimestamp (relativeTimeNs / nsecPerUsec))
            hsizes hk
          have htake : t.dev.rxData.queue.take count =
              t.dev.rxData.queue.take (min count t.dev.rxData.queue.length) :=
            List.take_eq_take_min
          rw [htake, List.getElem?_take, List.getElem?_take, hbyte, hqueue]
      ready :=
        { wf := hremoved'.wf
          room := by
            rw [hremoved'.eq]
            exact h.ready.room
          length_rbmsg := (hrbmsg.trans h.ready.length_rbmsg).trans hremoved'.bufferSize.symm }
      device := h.device
      host := h.host
      rxData := by
        rw [h.rxData] at hremoved
        exact hremoved.eq.trans hremoved'.eq.symm
      length_rbmsg := h.length_rbmsg.trans hrbmsg.symm
      onopening := h.onopening
      onclosing := h.onclosing
      isRecord := h.isRecord
      stream := by
        change s.records.flatten = _ ++ ring.queue
        rw [returned_finish, hremoved.queue, h.rxData, List.append_assoc, List.take_append_drop,
          h.stream, h.rxData] }

theorem Lockstep.step (h : Lockstep func s t) (hcopy : ∀ dst n, copyToUser dst n = true)
    (haddr : rbmsgAddr ≠ 0) {l : ReadLabel} (haligned : Aligned func t l) :
    Option.Rel (Lockstep func) (s.step func copyToUser rbmsgAddr l)
      (t.step func copyToUser rbmsgAddr l) := by
  cases l with
  | deliver record =>
      simp only [ReadSystem.step]
      by_cases hrecord : func.IsRecord record
      · rw [if_pos hrecord, if_pos hrecord]
        exact .some (h.deliver hrecord)
      · rw [if_neg hrecord, if_neg hrecord]
        exact .none
  | read buffer count relativeTimeNs interrupted =>
      simp only [ReadSystem.step]
      by_cases hguard : buffer ≠ 0 ∧ 0 < count ∧ count ≤ maxRwCount
      · rw [if_pos hguard, if_pos hguard]
        obtain ⟨hbuffer, hpos, hcount⟩ := hguard
        by_cases hopening : t.dev.onopening = true
        · rw [read_opening _ _ _ _ _ hopening, read_opening _ _ _ _ _ (h.onopening.trans hopening)]
          exact .some (h.finish_nothing _)
        rw [Bool.not_eq_true] at hopening
        by_cases hclosing : t.dev.onclosing = true
        · rw [read_closing _ _ hopening _ _ _ hclosing,
            read_closing _ _ (h.onopening.trans hopening) _ _ _ (h.onclosing.trans hclosing)]
          exact .some (h.finish_nothing _)
        rw [Bool.not_eq_true] at hclosing
        by_cases hempty : t.dev.rxData.queue = []
        · rw [read_empty _ _ h.ready hopening hclosing _ _ _ hempty,
            read_empty _ _ h.ready_device (h.onopening.trans hopening)
              (h.onclosing.trans hclosing) _ _ _ (h.rxData ▸ hempty)]
          cases interrupted with
          | false => exact .none
          | true => exact .some (h.finish_nothing _)
        · obtain ⟨r, r', hread, hread', hnext⟩ := h.read hopening hclosing hcopy haddr hbuffer hpos
            hcount relativeTimeNs interrupted hempty haligned
          rw [hread, hread']
          exact .some hnext
      · rw [if_neg hguard, if_neg hguard]
        exact .none

/-- While every read starts with a record, host mode and device mode agree. -/
theorem host_agrees_with_device (func : UniqueFunction)
    (hcopy : ∀ dst n, copyToUser dst n = true) (haddr : rbmsgAddr ≠ 0) {dev : Dev υ}
    (hready : ReadReady dev) (hempty : dev.rxData.queue = []) {ls : List ReadLabel}
    (haligned : AllSteps (step func copyToUser rbmsgAddr) (Aligned func)
      (init { dev with timestampMode := .host }) ls) :
    Option.Rel Agree
      (exec (step func copyToUser rbmsgAddr) (init { dev with timestampMode := .device }) ls)
      (exec (step func copyToUser rbmsgAddr) (init { dev with timestampMode := .host }) ls) := by
  have hinit : Lockstep func (init { dev with timestampMode := .device })
      (init { dev with timestampMode := .host }) :=
    { agree := ⟨rfl, rfl, rfl, fun _ _ => rfl⟩
      ready := ⟨hready.wf, hready.room, hready.length_rbmsg⟩
      device := rfl
      host := rfl
      rxData := rfl
      length_rbmsg := rfl
      onopening := rfl
      onclosing := rfl
      isRecord := fun r hr => nomatch hr
      stream := hempty.symm }
  have hrel := exec_rel_of_allSteps (fun _ _ _ h hl => h.step hcopy haddr hl) hinit haligned
  generalize exec (step func copyToUser rbmsgAddr) (init { dev with timestampMode := .device }) ls =
    os at hrel ⊢
  generalize exec (step func copyToUser rbmsgAddr) (init { dev with timestampMode := .host }) ls =
    ot at hrel ⊢
  cases hrel with
  | some h => exact .some h.agree
  | none => exact .none

/-- A read that starts behind the timestamp of a record goes wrong at some time of the clock. -/
theorem Lockstep.misaligned_read_differs (h : Lockstep func s t) (hopening : t.dev.onopening = false)
    (hclosing : t.dev.onclosing = false) (hcopy : ∀ dst n, copyToUser dst n = true)
    (haddr : rbmsgAddr ≠ 0) {buffer count : ℕ} (hbuffer : buffer ≠ 0) (hpos : 0 < count)
    (hcount : count ≤ maxRwCount) (interrupted : Bool) (hne : t.dev.rxData.queue ≠ [])
    (hdata : timestampAt s.records s.returned.length = false) :
    ∃ relativeTimeNs r r',
      AptUsbtrx.read func copyToUser rbmsgAddr s.dev buffer count relativeTimeNs interrupted =
        some r ∧
      AptUsbtrx.read func copyToUser rbmsgAddr t.dev buffer count relativeTimeNs interrupted =
        some r' ∧ ¬ Agree (s.finish r) (t.finish r') := by
  obtain ⟨b, tail, hqueue⟩ := List.exists_cons_of_ne_nil hne
  have hlenpos := List.length_pos_of_ne_nil hne
  obtain ⟨n, hn⟩ : ∃ n, n = min count t.dev.rxData.queue.length := ⟨_, rfl⟩
  obtain ⟨-, hfits⟩ := length_take_queue h.ready (n := n) (by omega)
  have hrbmsg : overwrite t.dev.rxRbmsg 0 (t.dev.rxData.queue.take n) ≠ [] := by
    rw [← List.length_pos_iff, length_overwrite]
    omega
  -- a time whose first byte is not the data byte that is there
  obtain ⟨time, htime⟩ := exists_hostTimestamp_first (b + 1)
  have hfirst := parseRbmsg_first func hrbmsg (show 0 < n by omega) time
  obtain ⟨⟨result, rbmsg⟩, hparse⟩ : ∃ p, parseRbmsg func .host
      (overwrite t.dev.rxRbmsg 0 (t.dev.rxData.queue.take n)) n time = p := ⟨_, rfl⟩
  rw [htime, hparse] at hfirst
  obtain ⟨ring, -, hread⟩ := read_device func rbmsgAddr h.ready_device
    (h.onopening.trans hopening) (h.onclosing.trans hclosing) hcopy buffer hbuffer hcount
    time interrupted h.device (h.rxData ▸ hne)
  have hroom := h.ready.room
  obtain ⟨ring', -, hread'⟩ := read_host_eq func rbmsgAddr hopening hclosing buffer time
    interrupted h.ready.wf haddr h.host hne hn (by omega) (by omega) hparse
  refine ⟨time, _, _, hread, hread', fun hagree => ?_⟩
  by_cases hsuccess : result = .success
  · rw [if_pos ⟨hsuccess, hcopy _ _⟩] at hagree
    have hbyte := hagree.bytes s.returned.length hdata
    rw [returned_finish, returned_finish, List.getElem?_append_right (Nat.le_refl _),
      List.getElem?_append_right (Nat.le_of_eq h.agree.length), h.agree.length, Nat.sub_self,
      List.getElem?_take, if_pos (by omega), List.getElem?_take, if_pos hpos, hfirst, h.rxData,
      hqueue] at hbyte
    have hnat := congrArg UInt8.toNat (Option.some.inj hbyte)
    rw [UInt8.toNat_add, show (1 : UInt8).toNat = 1 from rfl] at hnat
    have := b.toNat_lt
    omega
  · rw [if_neg fun h => hsuccess h.1] at hagree
    have hrets := hagree.rets
    simp only [finish, List.map_append, h.agree.rets, List.append_cancel_left_eq, List.map_cons,
      List.map_nil, List.cons.injEq, and_true] at hrets
    rw [eio] at hrets
    omega

/-- An EP1-CH02A that an application has opened. -/
def ep1Ch02a : Dev Unit :=
  { Dev.probed 0x10000000 apCt2aRxdataBufferSize 0x20000000 ⟨0, 0⟩ () with onopening := false }

/-- A record of 21 bytes. -/
def canRecord : List UInt8 := List.replicate 21 0x11

theorem readReady_ep1Ch02a : ReadReady ep1Ch02a where
  wf := wf_ringbufferInit (by decide) (by decide)
  room := by decide
  length_rbmsg := List.length_replicate

theorem host_agrees_with_device_cut :
    Option.Rel Agree
      (exec (step uniqueCan (fun _ _ => true) 0x40000000)
        (init { ep1Ch02a with timestampMode := .device })
        [.deliver canRecord, .read 0x1000 10 1500000000 false])
      (exec (step uniqueCan (fun _ _ => true) 0x40000000)
        (init { ep1Ch02a with timestampMode := .host })
        [.deliver canRecord, .read 0x1000 10 1500000000 false]) := by
  refine host_agrees_with_device uniqueCan (fun _ _ => rfl) (by decide) readReady_ep1Ch02a
    (queue_ringbufferInit _ _) ⟨trivial, ?_⟩
  intro t ht
  rw [step, if_pos (show uniqueCan.IsRecord canRecord by decide)] at ht
  have hreturned : t.returned = [] := by
    rw [← Option.some.inj ht, returned_deliver]
    rfl
  refine ⟨⟨[], t.records, rfl, by rw [hreturned]; rfl, ?_⟩, fun _ _ => trivial⟩
  exact cutSized_of_nonneg (fun _ => show (0 : ℤ) ≤ 21 by decide) _ _ _ _

/-- Seven records and two reads into a buffer of 128 bytes: the second read starts with the
third byte of the last record. -/
def partialReads : List ReadLabel :=
  List.replicate 7 (.deliver canRecord) ++ [.read 0x1000 128 0 false, .read 0x1000 128 0 false]

set_option maxRecDepth 4096 in
/-- The first byte behind the timestamp of the last record is overwritten in host mode. -/
theorem host_differs_from_device_partialReads :
    ∃ s t, exec (step uniqueCan (fun _ _ => true) 0x40000000)
        (init { ep1Ch02a with timestampMode := .device }) partialReads = some s ∧
      exec (step uniqueCan (fun _ _ => true) 0x40000000)
        (init { ep1Ch02a with timestampMode := .host }) partialReads = some t ∧ ¬ Agree s t := by
  have hdevice : (exec (step uniqueCan (fun _ _ => true) 0x40000000)
      (init { ep1Ch02a with timestampMode := .device }) partialReads).map
        (fun s => (timestampAt s.records 134, s.returned[134]?)) = some (false, some 0x11) := by
    decide +kernel
  have hhost : (exec (step uniqueCan (fun _ _ => true) 0x40000000)
      (init { ep1Ch02a with timestampMode := .host }) partialReads).map
        (fun t => t.returned[134]?) = some (some 0) := by
    decide +kernel
  obtain ⟨s, hexec, hs⟩ := Option.map_eq_some_iff.mp hdevice
  obtain ⟨t, hexec', ht⟩ := Option.map_eq_some_iff.mp hhost
  obtain ⟨hat, hbyte⟩ := Prod.mk.inj hs
  refine ⟨s, t, hexec, hexec', fun h => ?_⟩
  have hagree := h.bytes 134 hat
  rw [hbyte, ht] at hagree
  exact absurd hagree (by decide)

end ReadSystem

end AptUsbtrx
