import AptUsbtrx.Shared.Memory
import Mathlib.Tactic.NormNum

/-! # The ring buffer

`apt_usbtrx_ringbuffer.c` with the pointers as 64-bit addresses: `buffer` is the
content of the allocation that starts at `beginPtr`. -/

namespace AptUsbtrx

open Memory

/-- The sum of a pointer and a `size_t`. -/
def ptrAdd (p n : ℕ) : ℕ := (p + n) % 2 ^ 64

/-- The difference of two pointers or two sizes, as a `size_t`. -/
def sizeSub (a b : ℕ) : ℕ := (2 ^ 64 + a - b) % 2 ^ 64

theorem ptrAdd_of_lt {p n : ℕ} (h : p + n < 2 ^ 64) : ptrAdd p n = p + n :=
  Nat.mod_eq_of_lt h

theorem sizeSub_of_le {a b : ℕ} (h : b ≤ a) (ha : a < 2 ^ 64) : sizeSub a b = a - b := by
  rw [sizeSub, Nat.add_sub_assoc h, Nat.add_mod_left, Nat.mod_eq_of_lt (by omega)]

/-- `apt_usbtrx_ringbuffer_t`, without the wait queue head. -/
structure Ringbuffer where
  buffer : List UInt8
  bufferSize : ℕ
  beginPtr : ℕ
  endPtr : ℕ
  readPtr : ℕ
  writePtr : ℕ
  skipCount : ℕ
  logWriteBufferIsFull : Bool
  deriving DecidableEq

/-- `apt_usbtrx_ringbuffer_init` when `vmalloc(size)` returns the address `buffer`. -/
def ringbufferInit (buffer size : ℕ) : Ringbuffer where
  buffer := List.replicate size 0
  bufferSize := size
  beginPtr := buffer
  endPtr := ptrAdd buffer size
  readPtr := buffer
  writePtr := buffer
  skipCount := 0
  logWriteBufferIsFull := true

/-- The `n` bytes at the address `p` of the allocation. -/
def Ringbuffer.load (ring : Ringbuffer) (p n : ℕ) : List UInt8 :=
  slice ring.buffer (p - ring.beginPtr) n

/-- `memcpy(p, src, n)` into the allocation, with `src` the `n` bytes given. -/
def Ringbuffer.store (ring : Ringbuffer) (p : ℕ) (src : List UInt8) : Ringbuffer :=
  { ring with buffer := overwrite ring.buffer (p - ring.beginPtr) src }

/-- The value a read returns, the ring after it and the bytes it stored from the start of
the caller's buffer on. -/
structure ReadResult where
  ret : ℤ
  ring : Ringbuffer
  out : List UInt8
  deriving DecidableEq

/-- `apt_usbtrx_ringbuffer_read` and `apt_usbtrx_ringbuffer_rawread` differ in the copy
only: `copy dst n` tells whether copying `n` bytes to the address `dst` succeeds. -/
def ringbufferReadWith (copy : ℕ → ℕ → Bool) (ring : Ringbuffer) (buffer size : ℕ) :
    ReadResult :=
  if buffer = 0 then ⟨-1, ring, []⟩ else
  if size = 0 then ⟨0, ring, []⟩ else
  let pread := ring.readPtr
  let pwrite := ring.writePtr
  if pread < pwrite then
    let todo := if ptrAdd pread size ≤ pwrite then size else sizeSub pwrite pread
    if copy buffer todo then
      ⟨todo, if todo > 0 then { ring with readPtr := ptrAdd pread todo } else ring,
        ring.load pread todo⟩
    else ⟨-1, ring, []⟩
  else if pread > pwrite then
    if ptrAdd pread size ≤ ring.endPtr then
      if copy buffer size then
        ⟨size, { ring with readPtr := ptrAdd pread size }, ring.load pread size⟩
      else ⟨-1, ring, []⟩
    else
      let first := sizeSub ring.endPtr pread
      let second := sizeSub size first
      let second :=
        if ptrAdd ring.beginPtr second > pwrite then sizeSub pwrite ring.beginPtr else second
      if first > 0 ∧ ¬ copy buffer first then ⟨-1, ring, []⟩
      else if second > 0 ∧ ¬ copy (ptrAdd buffer first) second then
        ⟨-1, ring, ring.load pread first⟩
      else
        ⟨ptrAdd first second,
          if ptrAdd first second > 0 then { ring with readPtr := ptrAdd ring.beginPtr second }
          else ring,
          ring.load pread first ++ ring.load ring.beginPtr second⟩
  else ⟨0, ring, []⟩

/-- A call of `copy_to_user` or `memcpy`, for `size` bytes at the address `src`. -/
structure Copy where
  dst : ℕ
  src : ℕ
  size : ℕ
  deriving DecidableEq

/-- The copies that a read asks for in turn. None is asked for behind one that fails. -/
def ringbufferReadCopies (copy : ℕ → ℕ → Bool) (ring : Ringbuffer) (buffer size : ℕ) :
    List Copy :=
  if buffer = 0 then [] else
  if size = 0 then [] else
  let pread := ring.readPtr
  let pwrite := ring.writePtr
  if pread < pwrite then
    [⟨buffer, pread, if ptrAdd pread size ≤ pwrite then size else sizeSub pwrite pread⟩]
  else if pread > pwrite then
    if ptrAdd pread size ≤ ring.endPtr then [⟨buffer, pread, size⟩]
    else
      let first := sizeSub ring.endPtr pread
      let second := sizeSub size first
      let second :=
        if ptrAdd ring.beginPtr second > pwrite then sizeSub pwrite ring.beginPtr else second
      if first > 0 ∧ ¬ copy buffer first then [⟨buffer, pread, first⟩]
      else
        (if first > 0 then [⟨buffer, pread, first⟩] else []) ++
          (if second > 0 then [⟨ptrAdd buffer first, ring.beginPtr, second⟩] else [])
  else []

/-- `apt_usbtrx_ringbuffer_read`, the copy is `copy_to_user`. -/
def ringbufferRead (copyToUser : ℕ → ℕ → Bool) (ring : Ringbuffer) (buffer size : ℕ) :
    ReadResult :=
  ringbufferReadWith copyToUser ring buffer size

/-- `apt_usbtrx_ringbuffer_rawread`, the copy is `memcpy`. -/
def ringbufferRawread (ring : Ringbuffer) (buffer size : ℕ) : ReadResult :=
  ringbufferReadWith (fun _ _ => true) ring buffer size

/-- `apt_usbtrx_ringbuffer_write`, with `buffer` the bytes the source pointer points to. -/
def ringbufferWrite (ring : Ringbuffer) (buffer : List UInt8) (size : ℕ) : ℤ × Ringbuffer :=
  if size = 0 then (0, ring) else
  let pread := ring.readPtr
  let pwrite := ring.writePtr
  let skip : ℤ × Ringbuffer :=
    (-1, { ring with
      skipCount := (ring.skipCount + size) % 2 ^ 64
      logWriteBufferIsFull := false })
  if pread ≤ pwrite then
    if ptrAdd pwrite size ≤ ring.endPtr then
      (size, { ring.store pwrite (buffer.take size) with writePtr := ptrAdd pwrite size })
    else
      let first := sizeSub ring.endPtr pwrite
      let second := sizeSub size first
      if ptrAdd ring.beginPtr second < pread then
        (size, { (ring.store pwrite (buffer.take first)).store ring.beginPtr
            (slice buffer first second) with
          writePtr := ptrAdd ring.beginPtr second })
      else skip
  else if ptrAdd pwrite size < pread then
    (size, { ring.store pwrite (buffer.take size) with writePtr := ptrAdd pwrite size })
  else skip

/-- `apt_usbtrx_ringbuffer_is_empty` -/
def ringbufferIsEmpty (ring : Ringbuffer) : Bool :=
  ring.readPtr == ring.writePtr

/-- `apt_usbtrx_ringbuffer_clear` -/
def ringbufferClear (ring : Ringbuffer) : Ringbuffer :=
  { ring with
    readPtr := ring.beginPtr
    writePtr := ring.beginPtr
    logWriteBufferIsFull := true }

/-- `apt_usbtrx_ringbuffer_get_used_size` -/
def ringbufferGetUsedSize (ring : Ringbuffer) : ℕ :=
  if ring.writePtr ≥ ring.readPtr then sizeSub ring.writePtr ring.readPtr
  else ptrAdd (sizeSub ring.writePtr ring.beginPtr) (sizeSub ring.endPtr ring.readPtr)

/-- `apt_usbtrx_ringbuffer_get_free_size` -/
def ringbufferGetFreeSize (ring : Ringbuffer) : ℕ :=
  sizeSub ring.bufferSize (ringbufferGetUsedSize ring)

end AptUsbtrx
