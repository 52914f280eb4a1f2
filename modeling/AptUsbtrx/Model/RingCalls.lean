import AptUsbtrx.Model.Ringbuffer
import AptUsbtrx.Shared.Execution

/-! # Calls on the ring buffer that overlap

`apt_usbtrx_ringbuffer.c` takes no lock: the URB callback or an application writes while an
application or the transmission thread reads. Here a call of one writer and a call of one reader
go on in any order, one access to the shared structure at a time: the load of a pointer, a byte
that is copied, the store of a pointer. The bytes of a call are copied in any order. -/

namespace AptUsbtrx

open Memory

/-- What `apt_usbtrx_ringbuffer_write` does once it has both pointers: the bytes it stores, the
write pointer it stores behind them and the bytes it skips. -/
structure WritePlan where
  stores : List (ℕ × UInt8)
  pwrite : ℕ
  skipCount : ℕ
  deriving DecidableEq

/-- `memcpy(dst, src, n)`, with `src` the `n` bytes. -/
def memcpyStores (dst : ℕ) (src : List UInt8) : List (ℕ × UInt8) :=
  src.mapIdx fun i byte => (ptrAdd dst i, byte)

/-- `apt_usbtrx_ringbuffer_write` from the comparison of the two pointers on. -/
def writePlan (beginPtr endPtr pread pwrite : ℕ) (buffer : List UInt8) : WritePlan :=
  let size := buffer.length
  if pread ≤ pwrite then
    if ptrAdd pwrite size ≤ endPtr then ⟨memcpyStores pwrite buffer, ptrAdd pwrite size, 0⟩
    else
      let first := sizeSub endPtr pwrite
      let second := sizeSub size first
      if ptrAdd beginPtr second < pread then
        ⟨memcpyStores pwrite (buffer.take first) ++
          memcpyStores beginPtr (slice buffer first second), ptrAdd beginPtr second, 0⟩
      else ⟨[], pwrite, size⟩
  else if ptrAdd pwrite size < pread then ⟨memcpyStores pwrite buffer, ptrAdd pwrite size, 0⟩
  else ⟨[], pwrite, size⟩

/-- What `apt_usbtrx_ringbuffer_read` does once it has both pointers: the bytes it copies, by
their offset in the caller's buffer and their address, the read pointer it stores behind them and
the size it returns. -/
structure ReadPlan where
  loads : List (ℕ × ℕ)
  pread : ℕ
  readSize : ℕ
  deriving DecidableEq

/-- `copy_to_user` or `memcpy` of `n` bytes at `src` to the offset `dst` of the caller's buffer. -/
def memcpyLoads (dst src n : ℕ) : List (ℕ × ℕ) :=
  (List.range n).map fun i => (dst + i, ptrAdd src i)

/-- `apt_usbtrx_ringbuffer_read` and `apt_usbtrx_ringbuffer_rawread` from the comparison of the
two pointers on. -/
def readPlan (beginPtr endPtr pread pwrite size : ℕ) : ReadPlan :=
  if pread < pwrite then
    let todo := if ptrAdd pread size ≤ pwrite then size else sizeSub pwrite pread
    ⟨memcpyLoads 0 pread todo, ptrAdd pread todo, todo⟩
  else if pread > pwrite then
    if ptrAdd pread size ≤ endPtr then ⟨memcpyLoads 0 pread size, ptrAdd pread size, size⟩
    else
      let first := sizeSub endPtr pread
      let second := sizeSub size first
      let second :=
        if ptrAdd beginPtr second > pwrite then sizeSub pwrite beginPtr else second
      ⟨memcpyLoads 0 pread first ++ memcpyLoads first beginPtr second,
        ptrAdd beginPtr second, ptrAdd first second⟩
  else ⟨[], pread, 0⟩

/-- How far a call of `apt_usbtrx_ringbuffer_write` has come. The plan of a call that is copying
is what is left of it. `held` is the number of bytes in the ring when the call began. -/
inductive WriteCall where
  | idle
  | entered (buffer : List UInt8) (held : ℕ)
  | loaded (buffer : List UInt8) (held pread : ℕ)
  | copying (buffer : List UInt8) (held : ℕ) (plan : WritePlan)
  | skipping (buffer : List UInt8) (held : ℕ) (skipCount : ℕ)
  deriving DecidableEq

/-- How far a call of `apt_usbtrx_ringbuffer_read` or `apt_usbtrx_ringbuffer_rawread` has come,
with the caller's buffer. -/
inductive ReadCall where
  | idle
  | entered (buffer : List UInt8) (held : ℕ)
  | loaded (buffer : List UInt8) (held pread : ℕ)
  | copying (buffer : List UInt8) (held : ℕ) (plan : ReadPlan)
  deriving DecidableEq

/-- A call that has returned: a write with the bytes it was given, a read with the size asked for
and the bytes it returned, each with the number of bytes held when it began. -/
inductive RingEvent where
  | accepted (buffer : List UInt8) (held : ℕ)
  | rejected (buffer : List UInt8) (held : ℕ)
  | read (size held : ℕ) (out : List UInt8)
  deriving DecidableEq

/-- The ring, the two calls and the calls that have returned, in the order of their last access. -/
structure RingCalls where
  ring : Ringbuffer
  writer : WriteCall
  reader : ReadCall
  log : List RingEvent
  deriving DecidableEq

inductive RingLabel where
  /-- `apt_usbtrx_ringbuffer_write(ring, buffer, size)` is called. -/
  | write (buffer : List UInt8)
  /-- The next access of the writer; `k` chooses among the bytes that are left to copy. -/
  | writer (k : ℕ)
  /-- A read is called with a buffer of that size. -/
  | read (buffer : List UInt8)
  /-- The next access of the reader. -/
  | reader (k : ℕ)
  /-- `copy_to_user` fails in `apt_usbtrx_ringbuffer_read`. -/
  | fault
  deriving DecidableEq

/-- The next access of the writer. -/
def writerStep (s : RingCalls) (k : ℕ) : Option RingCalls :=
  match s.writer with
  | .idle => none
  | .entered buffer held => some { s with writer := .loaded buffer held s.ring.readPtr }
  | .loaded buffer held pread =>
      some { s with
        writer := .copying buffer held
          (writePlan s.ring.beginPtr s.ring.endPtr pread s.ring.writePtr buffer) }
  | .copying buffer held ⟨[], pwrite, skipCount⟩ =>
      let ring := { s.ring with writePtr := pwrite }
      if skipCount > 0 then some { s with ring, writer := .skipping buffer held skipCount }
      else some { s with ring, writer := .idle, log := s.log ++ [.accepted buffer held] }
  | .copying buffer held ⟨stores, pwrite, skipCount⟩ =>
      stores[k]?.map fun (dst, byte) =>
        { s with
          ring := s.ring.store dst [byte]
          writer := .copying buffer held ⟨stores.eraseIdx k, pwrite, skipCount⟩ }
  | .skipping buffer held skipCount =>
      some { s with
        ring := { s.ring with
          skipCount := (s.ring.skipCount + skipCount) % 2 ^ 64
          logWriteBufferIsFull := false }
        writer := .idle
        log := s.log ++ [.rejected buffer held] }

/-- The next access of the reader. -/
def readerStep (s : RingCalls) (k : ℕ) : Option RingCalls :=
  match s.reader with
  | .idle => none
  | .entered buffer held => some { s with reader := .loaded buffer held s.ring.readPtr }
  | .loaded buffer held pread =>
      some { s with
        reader := .copying buffer held
          (readPlan s.ring.beginPtr s.ring.endPtr pread s.ring.writePtr buffer.length) }
  | .copying buffer held ⟨[], pread, readSize⟩ =>
      some { s with
        ring := if readSize > 0 then { s.ring with readPtr := pread } else s.ring
        reader := .idle
        log := s.log ++ [.read buffer.length held (buffer.take readSize)] }
  | .copying buffer held ⟨loads, pread, readSize⟩ =>
      loads[k]?.map fun (dst, src) =>
        { s with
          reader := .copying (overwrite buffer dst (s.ring.load src 1)) held
            ⟨loads.eraseIdx k, pread, readSize⟩ }

/-- One access, or the beginning of a call. A call with the size 0 returns at once. -/
def ringCallsStep (s : RingCalls) : RingLabel → Option RingCalls
  | .write buffer =>
      if s.writer = .idle then
        if buffer = [] then some s
        else some { s with writer := .entered buffer (ringbufferGetUsedSize s.ring) }
      else none
  | .writer k => writerStep s k
  | .read buffer =>
      if s.reader = .idle then
        if buffer = [] then some s
        else some { s with reader := .entered buffer (ringbufferGetUsedSize s.ring) }
      else none
  | .reader k => readerStep s k
  | .fault =>
      match s.reader with
      | .copying _ _ ⟨_ :: _, _, _⟩ => some { s with reader := .idle }
      | _ => none

/-- An initialised ring on which no call has begun. -/
def RingCalls.start (buffer size : ℕ) : RingCalls :=
  ⟨ringbufferInit buffer size, .idle, .idle, []⟩

/-- The bytes of the writes that returned their size. -/
def acceptedBytes (log : List RingEvent) : List UInt8 :=
  log.flatMap fun
    | .accepted buffer _ => buffer
    | _ => []

/-- The bytes that the reads returned. -/
def deliveredBytes (log : List RingEvent) : List UInt8 :=
  log.flatMap fun
    | .read _ _ out => out
    | _ => []

/-- The number of bytes of the writes that returned -1. -/
def rejectedBytes (log : List RingEvent) : ℕ :=
  (log.map fun
    | .rejected buffer _ => buffer.length
    | _ => 0).sum

end AptUsbtrx
