import AptUsbtrx.Verification.Ringbuffer.Progress
import Mathlib.Data.List.Induction
import Mathlib.Data.List.Perm.Basic

/-! # A call that nothing overlaps

Taken one access after the other and in any order of its bytes, a call of the writer or the
reader does what the sequential operation does. -/

namespace AptUsbtrx

open Memory RingIndex Execution

/-- The ring after the stores of a copy. -/
def Ringbuffer.storeAll (ring : Ringbuffer) (stores : List (ℕ × UInt8)) : Ringbuffer :=
  { ring with
    buffer := stores.foldl (fun cells e => overwrite cells (e.1 - ring.beginPtr) [e.2])
      ring.buffer }

section

variable {ring : Ringbuffer}

theorem storeAll_append (ring : Ringbuffer) (stores stores' : List (ℕ × UInt8)) :
    ring.storeAll (stores ++ stores') = (ring.storeAll stores).storeAll stores' := by
  simp only [Ringbuffer.storeAll, List.foldl_append]

/-- Byte by byte as in one block. -/
theorem storeAll_memcpyStores {p : ℕ} {src : List UInt8} (hp : ring.beginPtr ≤ p)
    (hlt : p + src.length < 2 ^ 64) : ring.storeAll (memcpyStores p src) = ring.store p src := by
  induction src using List.reverseRecOn with
  | nil => simp [memcpyStores, Ringbuffer.storeAll, Ringbuffer.store, overwrite]
  | append_singleton src byte ih =>
      rw [List.length_append, List.length_singleton] at hlt
      have hstores : memcpyStores p (src ++ [byte]) =
          memcpyStores p src ++ [(p + src.length, byte)] := by
        rw [memcpyStores, List.mapIdx_concat, ptrAdd_of_lt (by omega), memcpyStores]
      rw [hstores, storeAll_append, ih (by omega)]
      simp only [Ringbuffer.storeAll, List.foldl_cons, List.foldl_nil, Ringbuffer.store,
        Nat.sub_add_comm hp, overwrite_append]

/-- The order of the bytes of a copy does not matter. -/
theorem storeAll_eraseIdx {stores : List (ℕ × UInt8)} {k dst : ℕ} {byte : UInt8}
    (hk : stores[k]? = some (dst, byte))
    (hinj : ∀ e ∈ stores, ∀ e' ∈ stores, e.1 - ring.beginPtr = e'.1 - ring.beginPtr → e = e') :
    (ring.store dst [byte]).storeAll (stores.eraseIdx k) = ring.storeAll stores := by
  obtain ⟨hlt, hget⟩ := List.getElem?_eq_some_iff.mp hk
  have hperm : ((dst, byte) :: stores.eraseIdx k).Perm stores := by
    rw [← hget]
    exact List.getElem_cons_eraseIdx_perm hlt
  have hfold := hperm.symm.foldl_eq'
    (f := fun cells e => overwrite cells (e.1 - ring.beginPtr) [e.2]) (fun x hx y hy cells => by
      by_cases heq : x.1 - ring.beginPtr = y.1 - ring.beginPtr
      · rw [hinj x hx y hy heq]
      · exact overwrite_comm cells heq x.2 y.2) ring.buffer
  simp only [Ringbuffer.storeAll, Ringbuffer.store, hfold, List.foldl_cons]

/-- What a write has to do. -/
def Ringbuffer.writePlan (ring : Ringbuffer) (data : List UInt8) : WritePlan :=
  AptUsbtrx.writePlan ring.beginPtr ring.endPtr ring.readPtr ring.writePtr data

/-- What a read has to do. -/
def Ringbuffer.readPlan (ring : Ringbuffer) (n : ℕ) : ReadPlan :=
  AptUsbtrx.readPlan ring.beginPtr ring.endPtr ring.readPtr ring.writePtr n

/-- A write follows its plan. -/
theorem ringbufferWrite_eq_writePlan (hw : ring.Wf) {buffer : List UInt8} (hne : buffer ≠ [])
    (hlt : ring.endPtr + buffer.length < 2 ^ 64) :
    ringbufferWrite ring buffer buffer.length =
      if (ring.writePlan buffer).skipCount > 0 then (-1, skipped ring (ring.writePlan buffer).skipCount)
      else ((buffer.length : ℤ), { ring.storeAll (ring.writePlan buffer).stores with
        writePtr := (ring.writePlan buffer).pwrite }) := by
  have hpos := List.length_pos_iff.mpr hne
  have hwrite := hw.begin_le_write
  have hwrite' := hw.write_le_end
  have hfirst : sizeSub ring.endPtr ring.writePtr = ring.endPtr - ring.writePtr :=
    sizeSub_of_le hwrite' hw.end_lt
  have hblock : ring.storeAll (memcpyStores ring.writePtr buffer) =
      ring.store ring.writePtr buffer := storeAll_memcpyStores hwrite (by omega)
  rw [ringbufferWrite, if_neg (by omega), Ringbuffer.writePlan, writePlan]
  dsimp only
  by_cases hle : ring.readPtr ≤ ring.writePtr
  · rw [if_pos hle, if_pos hle]
    by_cases hend : ptrAdd ring.writePtr buffer.length ≤ ring.endPtr
    · rw [if_pos hend, if_pos hend, if_neg (Nat.lt_irrefl 0), hblock, List.take_length]
    · rw [if_neg hend, if_neg hend, hfirst]
      by_cases hroom : ptrAdd ring.beginPtr
          (sizeSub buffer.length (ring.endPtr - ring.writePtr)) < ring.readPtr
      · have hfront : ring.storeAll (memcpyStores ring.writePtr
            (buffer.take (ring.endPtr - ring.writePtr))) =
            ring.store ring.writePtr (buffer.take (ring.endPtr - ring.writePtr)) :=
          storeAll_memcpyStores hwrite (by rw [List.length_take]; omega)
        have hback (ring' : Ringbuffer) (heq : ring'.beginPtr = ring.beginPtr) :
            ring'.storeAll (memcpyStores ring.beginPtr (slice buffer (ring.endPtr - ring.writePtr)
              (sizeSub buffer.length (ring.endPtr - ring.writePtr)))) =
            ring'.store ring.beginPtr (slice buffer (ring.endPtr - ring.writePtr)
              (sizeSub buffer.length (ring.endPtr - ring.writePtr))) :=
          storeAll_memcpyStores (Nat.le_of_eq heq) (by rw [length_slice]; omega)
        rw [if_pos hroom, if_pos hroom, if_neg (Nat.lt_irrefl 0), storeAll_append, hfront,
          hback (ring.store _ _) rfl]
      · rw [if_neg hroom, if_neg hroom, if_pos hpos]
        rfl
  · rw [if_neg hle, if_neg hle]
    by_cases hroom : ptrAdd ring.writePtr buffer.length < ring.readPtr
    · rw [if_pos hroom, if_pos hroom, if_neg (Nat.lt_irrefl 0), hblock, List.take_length]
    · rw [if_neg hroom, if_neg hroom, if_pos hpos]
      rfl

/-- A read that is not refused a copy follows its plan. -/
theorem ringbufferRead_eq_readPlan (ring : Ringbuffer) {buffer n : ℕ} (hbuffer : buffer ≠ 0)
    (hn : n ≠ 0) :
    (ringbufferRead (fun _ _ => true) ring buffer n).ring =
      if (ring.readPlan n).readSize > 0 then { ring with readPtr := (ring.readPlan n).pread }
      else ring := by
  rw [ringbufferRead, ringbufferReadWith, if_neg hbuffer, if_neg hn, Ringbuffer.readPlan, readPlan]
  dsimp only
  by_cases hlt : ring.readPtr < ring.writePtr
  · rw [if_pos hlt, if_pos hlt, if_pos rfl]
  · rw [if_neg hlt, if_neg hlt]
    by_cases hgt : ring.readPtr > ring.writePtr
    · rw [if_pos hgt, if_pos hgt]
      by_cases hend : ptrAdd ring.readPtr n ≤ ring.endPtr
      · rw [if_pos hend, if_pos hend, if_pos rfl, if_pos (by dsimp only; omega)]
      · rw [if_neg hend, if_neg hend, if_neg (by simp), if_neg (by simp)]
    · rw [if_neg hgt, if_neg hgt, if_neg (Nat.lt_irrefl 0)]

end

section

variable {beginPtr size : ℕ} {s t : RingCalls}

theorem RingInv.wf (h : RingInv beginPtr size s) (hsize : 1 ≤ size)
    (hlt : beginPtr + size < 2 ^ 64) : s.ring.Wf where
  length_buffer := h.length_buffer.trans h.bufferSize_eq.symm
  bufferSize_pos := by rw [h.bufferSize_eq]; exact hsize
  end_eq := by rw [h.endPtr_eq, h.beginPtr_eq, h.bufferSize_eq]
  end_lt := by rw [h.endPtr_eq]; exact hlt
  begin_le_read := h.beginPtr_eq ▸ h.stand.begin_le_read
  read_le_end := h.endPtr_eq ▸ h.stand.read_le
  begin_le_write := h.beginPtr_eq ▸ h.stand.begin_le_write
  write_le_end := h.endPtr_eq ▸ h.stand.write_le
  begin_lt_write hgt := by
    have hread := h.stand.begin_le_read
    have hwrite := h.stand.begin_le_write
    obtain ⟨-, -, base, -, -, hb | ⟨hb, -, -⟩⟩ := h.stand.between <;>
      rw [h.beginPtr_eq] <;> omega

/-- The states of a run from `s` on in which `data` is written and nothing else moves. -/
inductive WritesAlone (s : RingCalls) (data : List UInt8) : RingCalls → Prop where
  | entered : WritesAlone s data
      { s with writer := .entered data (ringbufferGetUsedSize s.ring) }
  | loaded : WritesAlone s data
      { s with writer := .loaded data (ringbufferGetUsedSize s.ring) s.ring.readPtr }
  | copying {ring : Ringbuffer} {stores : List (ℕ × UInt8)}
      (hbegin : ring.beginPtr = s.ring.beginPtr) (hmem : ∀ e ∈ stores, e ∈ (s.ring.writePlan data).stores)
      (hall : ring.storeAll stores = s.ring.storeAll (s.ring.writePlan data).stores) :
      WritesAlone s data { s with
        ring
        writer := .copying data (ringbufferGetUsedSize s.ring)
          ⟨stores, (s.ring.writePlan data).pwrite, (s.ring.writePlan data).skipCount⟩ }
  | skipping (hpos : (s.ring.writePlan data).skipCount > 0) : WritesAlone s data
      { s with
        ring := { s.ring.storeAll (s.ring.writePlan data).stores with
          writePtr := (s.ring.writePlan data).pwrite }
        writer := .skipping data (ringbufferGetUsedSize s.ring) (s.ring.writePlan data).skipCount }
  | returned : WritesAlone s data
      { s with
        ring := (ringbufferWrite s.ring data data.length).2
        writer := .idle
        log := s.log ++ [if (ringbufferWrite s.ring data data.length).1 < 0 then
          .rejected data (ringbufferGetUsedSize s.ring)
          else .accepted data (ringbufferGetUsedSize s.ring)] }

/-- The plan of a write, accepted or rejected. -/
theorem RingInv.writePlan_spec (h : RingInv beginPtr size s) {data : List UInt8} (hne : data ≠ [])
    (hlt : beginPtr + size + data.length < 2 ^ 64) :
    Accepting beginPtr size s.ring.readPtr (deliveredBytes s.log).length
        (acceptedBytes s.log).length data (s.ring.writePlan data) ∨
      Rejecting size s.ring.writePtr (deliveredBytes s.log).length (acceptedBytes s.log).length
        data (s.ring.writePlan data) := by
  rw [Ringbuffer.writePlan, h.beginPtr_eq, h.endPtr_eq]
  exact AptUsbtrx.writePlan_spec h.stand hne hlt

/-- Two stores of a plan to one cell are the same. -/
theorem RingInv.stores_injective (h : RingInv beginPtr size s) {data : List UInt8}
    (hne : data ≠ []) (hlt : beginPtr + size + data.length < 2 ^ 64) :
    ∀ e ∈ (s.ring.writePlan data).stores, ∀ e' ∈ (s.ring.writePlan data).stores,
      e.1 - s.ring.beginPtr = e'.1 - s.ring.beginPtr → e = e' := by
  intro e he e' he' heq
  rcases h.writePlan_spec hne hlt with hacc | hrej
  · obtain ⟨i, byte, hbyte, rfl⟩ := (hacc.stores e).mp he
    obtain ⟨j, byte', hbyte', rfl⟩ := (hacc.stores e').mp he'
    have hi := (List.getElem?_eq_some_iff.mp hbyte).1
    have hj := (List.getElem?_eq_some_iff.mp hbyte').1
    have hroom := hacc.stand.between.le_add
    have hle := h.stand.between.le
    simp only [h.beginPtr_eq, Nat.add_sub_cancel_left] at heq
    have hij := eq_of_mod_eq (acceptedBytes s.log).length heq (by omega) (by omega) (by omega)
      (by omega)
    obtain rfl : i = j := by omega
    obtain rfl := Option.some.inj (hbyte.symm.trans hbyte')
    rfl
  · rw [hrej.plan_eq] at he
    cases he

theorem WritesAlone.step {u : RingCalls} {data : List UInt8} (hs : RingInv beginPtr size s)
    (hsize : 1 ≤ size) (hne : data ≠ []) (hlt : beginPtr + size + data.length < 2 ^ 64)
    (h : WritesAlone s data t) (hstep : WriterAccess t u) : WritesAlone s data u := by
  have hwrite := ringbufferWrite_eq_writePlan (hs.wf hsize (by omega)) hne
    (by rw [hs.endPtr_eq]; exact hlt)
  cases h with
  | entered =>
      cases hstep with
      | loadRead h =>
          cases h
          exact .loaded
      | loadWrite h | copy h | store h | storeSkipping h | skip h => cases h
  | loaded =>
      cases hstep with
      | loadWrite h =>
          cases h
          exact .copying rfl (fun e he => he) rfl
      | loadRead h | copy h | store h | storeSkipping h | skip h => cases h
  | copying hbegin hmem hall =>
      cases hstep with
      | copy h hk =>
          cases h
          refine .copying hbegin (fun e he => hmem e (List.mem_of_mem_eraseIdx he)) ?_
          rw [← hall]
          refine storeAll_eraseIdx hk ?_
          intro e he e' he' heq
          rw [hbegin] at heq
          exact hs.stores_injective hne hlt e (hmem e he) e' (hmem e' he') heq
      | store h =>
          simp only [WriteCall.copying.injEq, WritePlan.mk.injEq] at h
          obtain ⟨rfl, rfl, rfl, rfl, hskip⟩ := h
          rw [if_neg (by omega)] at hwrite
          have hreturned := @WritesAlone.returned s data
          rw [hwrite, if_neg (by simp), ← hall] at hreturned
          exact hreturned
      | storeSkipping h hpos =>
          simp only [WriteCall.copying.injEq, WritePlan.mk.injEq] at h
          obtain ⟨rfl, rfl, rfl, rfl, rfl⟩ := h
          have hskipping := @WritesAlone.skipping s data hpos
          rw [← hall] at hskipping
          exact hskipping
      | loadRead h | loadWrite h | skip h => cases h
  | skipping hpos =>
      cases hstep with
      | skip h =>
          cases h
          rw [if_pos hpos] at hwrite
          have hreturned := @WritesAlone.returned s data
          rw [hwrite, if_pos (by simp)] at hreturned
          rcases hs.writePlan_spec hne hlt with hacc | hrej
          · exact absurd hacc.skipCount (Nat.ne_of_gt hpos)
          · -- nothing has been stored and the write pointer is the old one
            rw [hrej.plan_eq] at hreturned ⊢
            exact hreturned
      | loadRead h | loadWrite h | copy h | store h | storeSkipping h => cases h
  | returned =>
      cases hstep with
      | loadRead h | loadWrite h | copy h | store h | storeSkipping h | skip h => cases h

/-- The states of a run from `s` on in which a read into `buffer`, at the address `dst`, is the
only thing that moves. -/
inductive ReadsAlone (s : RingCalls) (dst : ℕ) (buffer : List UInt8) : RingCalls → Prop where
  | entered : ReadsAlone s dst buffer
      { s with reader := .entered buffer (ringbufferGetUsedSize s.ring) }
  | loaded : ReadsAlone s dst buffer
      { s with reader := .loaded buffer (ringbufferGetUsedSize s.ring) s.ring.readPtr }
  | copying {buffer' : List UInt8} {loads : List (ℕ × ℕ)} (hlen : buffer'.length = buffer.length) :
      ReadsAlone s dst buffer { s with
        reader := .copying buffer' (ringbufferGetUsedSize s.ring)
          ⟨loads, (s.ring.readPlan buffer.length).pread,
            (s.ring.readPlan buffer.length).readSize⟩ }
  | returned : ReadsAlone s dst buffer
      { s with
        ring := (ringbufferRead (fun _ _ => true) s.ring dst buffer.length).ring
        reader := .idle
        log := s.log ++ [.read buffer.length (ringbufferGetUsedSize s.ring)
          (ringbufferRead (fun _ _ => true) s.ring dst buffer.length).out] }

theorem ReadsAlone.step {u : RingCalls} {dst : ℕ} {buffer : List UInt8}
    (hs : RingInv beginPtr size s) (ht : RingInv beginPtr size t) (hsize : 1 ≤ size)
    (hdst : dst ≠ 0) (hne : buffer ≠ []) (hlt : beginPtr + size + buffer.length < 2 ^ 64)
    (h : ReadsAlone s dst buffer t) (hstep : ReaderAccess t u) : ReadsAlone s dst buffer u := by
  cases h with
  | entered =>
      cases hstep with
      | loadRead h =>
          cases h
          exact .loaded
      | loadWrite h | copy h | store h => cases h
  | loaded =>
      cases hstep with
      | loadWrite h =>
          cases h
          exact .copying rfl
      | loadRead h | copy h | store h => cases h
  | copying hlen =>
      cases hstep with
      | copy h hk =>
          cases h
          exact .copying (by rw [length_overwrite, hlen])
      | store h =>
          have hout := ht.take_eq h
          simp only [ReadCall.copying.injEq, ReadPlan.mk.injEq] at h
          obtain ⟨rfl, rfl, rfl, rfl, rfl⟩ := h
          have hpos := List.length_pos_iff.mpr hne
          have hwf := hs.wf hsize (by omega)
          have hring := ringbufferRead_eq_readPlan s.ring hdst (Nat.ne_of_gt hpos)
          have hspec : ReadSpec s.ring buffer.length
              (ringbufferRead (fun _ _ => true) s.ring dst buffer.length) :=
            ringbufferReadWith_spec hwf hdst (by rw [hs.endPtr_eq]; exact hlt) fun _ _ _ => rfl
          have hplan : (s.ring.readPlan buffer.length).readSize =
              min buffer.length s.ring.queue.length := by
            rw [Ringbuffer.readPlan, hs.beginPtr_eq, hs.endPtr_eq, hs.queue_eq, List.length_drop]
            exact (readPlan_spec hs.stand hpos hlt).readSize
          have htake : slice (acceptedBytes s.log) (deliveredBytes s.log).length
              (s.ring.readPlan buffer.length).readSize = s.ring.queue.take buffer.length := by
            rw [slice, ← hs.queue_eq, hplan, ← List.take_eq_take_min]
          have hreturned := @ReadsAlone.returned s dst buffer
          rw [hring, hspec.out, ← htake, ← hout] at hreturned
          rw [hlen]
          exact hreturned
      | loadRead h | loadWrite h => cases h
  | returned =>
      cases hstep with
      | loadRead h | loadWrite h | copy h | store h => cases h

/-- The state behind a call that nothing overlaps is the one the sequential operation leaves. -/
structure AloneSpec (beginPtr size : ℕ) (s : RingCalls) : Prop where
  write_returns : ∀ data : List UInt8, s.writer = .idle →
    ∃ (ks : List ℕ) (t : RingCalls),
      exec ringCallsStep s (.write data :: ks.map .writer) = some t ∧ t.writer = .idle
  read_returns : ∀ buffer : List UInt8, s.reader = .idle →
    beginPtr + size + buffer.length < 2 ^ 64 →
    ∃ (ks : List ℕ) (t : RingCalls),
      exec ringCallsStep s (.read buffer :: ks.map .reader) = some t ∧ t.reader = .idle
  write : ∀ (data : List UInt8) (ks : List ℕ) (t : RingCalls), data ≠ [] →
    beginPtr + size + data.length < 2 ^ 64 →
    exec ringCallsStep s (.write data :: ks.map .writer) = some t → t.writer = .idle →
    t = { s with
      ring := (ringbufferWrite s.ring data data.length).2
      log := s.log ++ [if (ringbufferWrite s.ring data data.length).1 < 0 then
        .rejected data s.ring.queue.length else .accepted data s.ring.queue.length] }
  read : ∀ (dst : ℕ) (buffer : List UInt8) (ks : List ℕ) (t : RingCalls), dst ≠ 0 → buffer ≠ [] →
    beginPtr + size + buffer.length < 2 ^ 64 →
    exec ringCallsStep s (.read buffer :: ks.map .reader) = some t → t.reader = .idle →
    t = { s with
      ring := (ringbufferRead (fun _ _ => true) s.ring dst buffer.length).ring
      log := s.log ++ [.read buffer.length s.ring.queue.length
        (ringbufferRead (fun _ _ => true) s.ring dst buffer.length).out] }

theorem WritesAlone.exec {data : List UInt8} (hs : RingInv beginPtr size s) (hsize : 1 ≤ size)
    (hne : data ≠ []) (hlt : beginPtr + size + data.length < 2 ^ 64) {u : RingCalls}
    (h : WritesAlone s data t) {ks : List ℕ}
    (hexec : exec ringCallsStep t (ks.map .writer) = some u) : WritesAlone s data u := by
  induction ks generalizing t with
  | nil =>
      cases hexec
      exact h
  | cons k ks ih =>
      obtain ⟨v, hv, hexec⟩ := Option.bind_eq_some_iff.mp hexec
      exact ih (h.step hs hsize hne hlt (writerAccess_of_writerStep hv)) hexec

theorem ReadsAlone.exec {dst : ℕ} {buffer : List UInt8} (hs : RingInv beginPtr size s)
    (ht : RingInv beginPtr size t) (hsize : 1 ≤ size) (hdst : dst ≠ 0) (hne : buffer ≠ [])
    (hlt : beginPtr + size + buffer.length < 2 ^ 64) {u : RingCalls}
    (h : ReadsAlone s dst buffer t) {ks : List ℕ}
    (hexec : exec ringCallsStep t (ks.map .reader) = some u) : ReadsAlone s dst buffer u := by
  induction ks generalizing t with
  | nil =>
      cases hexec
      exact h
  | cons k ks ih =>
      obtain ⟨v, hv, hexec⟩ := Option.bind_eq_some_iff.mp hexec
      have haccess := readerAccess_of_readerStep hv
      exact ih (ht.readerAccess haccess) (h.step hs ht hsize hdst hne hlt haccess) hexec

theorem RingInv.usedSize_eq (h : RingInv beginPtr size s) (hsize : 1 ≤ size)
    (hlt : beginPtr + size < 2 ^ 64) : ringbufferGetUsedSize s.ring = s.ring.queue.length :=
  ringbufferGetUsedSize_eq (h.wf hsize hlt)

theorem RingInv.aloneSpec (hs : RingInv beginPtr size s) (hsize : 1 ≤ size)
    (hlt : beginPtr + size < 2 ^ 64) : AloneSpec beginPtr size s where
  write_returns data hidle := by
    have hcall : ∃ u, ringCallsStep s (.write data) = some u := by
      rw [ringCallsStep, if_pos hidle]
      split <;> exact ⟨_, rfl⟩
    obtain ⟨u, hu⟩ := hcall
    obtain ⟨ks, t, hexec, ht⟩ := exists_writer_returns u
    exact ⟨ks, t, by rw [exec_cons, hu]; exact hexec, ht⟩
  read_returns buffer hidle hlegal := by
    have hcall : ∃ u, ringCallsStep s (.read buffer) = some u := by
      rw [ringCallsStep, if_pos hidle]
      split <;> exact ⟨_, rfl⟩
    obtain ⟨u, hu⟩ := hcall
    obtain ⟨ks, t, hexec, ht⟩ :=
      exists_reader_returns (hs.step hsize hlt (l := .read buffer) hlegal hu)
    exact ⟨ks, t, by rw [exec_cons, hu]; exact hexec, ht⟩
  write data ks t hne hlegal hexec hidle := by
    obtain ⟨u, hu, hexec⟩ := Option.bind_eq_some_iff.mp hexec
    have hstart : s.writer = .idle ∧ WritesAlone s data u := by
      simp only [ringCallsStep, Option.ite_none_right_eq_some, if_neg hne] at hu
      obtain ⟨hstart, hu⟩ := hu
      cases hu
      exact ⟨hstart, .entered⟩
    have halone := hstart.2.exec hs hsize hne hlegal hexec
    cases halone with
    | returned => rw [← hstart.1, hs.usedSize_eq hsize hlt]
    | entered | loaded | copying _ _ _ | skipping _ => cases hidle
  read dst buffer ks t hdst hne hlegal hexec hidle := by
    obtain ⟨u, hu, hexec⟩ := Option.bind_eq_some_iff.mp hexec
    have hinv := hs.step hsize hlt (l := .read buffer) hlegal hu
    have hstart : s.reader = .idle ∧ ReadsAlone s dst buffer u := by
      simp only [ringCallsStep, Option.ite_none_right_eq_some, if_neg hne] at hu
      obtain ⟨hstart, hu⟩ := hu
      cases hu
      exact ⟨hstart, .entered⟩
    have halone := hstart.2.exec hs hinv hsize hdst hne hlegal hexec
    cases halone with
    | returned => rw [← hstart.1, hs.usedSize_eq hsize hlt]
    | entered | loaded | copying _ => cases hidle

/-- In every state that overlapping calls lead to, a call that nothing overlaps is the sequential
operation. -/
theorem ringCalls_alone {buffer size : ℕ} (hsize : 1 ≤ size) (hlt : buffer + size < 2 ^ 64)
    {ls : List RingLabel} (hlegal : ∀ l ∈ ls, l.Legal (buffer + size)) {s : RingCalls}
    (h : exec ringCallsStep (RingCalls.start buffer size) ls = some s) :
    AloneSpec buffer size s :=
  (ringInv_of_exec hsize hlt hlegal (ringInv_start hlt) h).aloneSpec hsize hlt

/-- Behind a write that has gone around the end while a read was going on. -/
theorem ringCalls_alone_wrap :
    ∃ s, exec ringCallsStep (RingCalls.start 4096 4)
        [.write [1, 2, 3], .writer 0, .writer 0, .writer 2, .read [0, 0], .writer 0, .writer 0,
          .writer 0] = some s ∧ s.writer = .idle ∧ s.reader ≠ .idle ∧ AloneSpec 4096 4 s := by
  refine ⟨_, rfl, rfl, by decide, ?_⟩
  have hlegal : ∀ l ∈ ([.write [1, 2, 3], .writer 0, .writer 0, .writer 2, .read [0, 0],
      .writer 0, .writer 0, .writer 0] : List RingLabel), l.Legal (4096 + 4) := by
    simp [RingLabel.Legal]
  exact ringCalls_alone (by decide) (by decide) hlegal rfl

end

end AptUsbtrx
