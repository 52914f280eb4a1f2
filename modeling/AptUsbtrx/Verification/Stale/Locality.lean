import AptUsbtrx.Verification.Msg.Grammar

/-! # What a function of the message structure reads

A structure that holds a message has arbitrary bytes behind it in its payload array. A
function of the structure is determined by the message when these bytes do not matter. -/

namespace AptUsbtrx

open Memory

/-- The structure holds the message. -/
structure Msg.Holds (msg : Msg) (m : Message) : Prop where
  id : msg.id = m.id
  size : msg.payloadSize = UInt8.ofNat m.payload.length
  take : msg.payload.take m.payload.length = m.payload

namespace Message

/-- The first `k` payload bytes are those of the message. -/
def Covers (m : Message) (k : ℕ) : Prop := k ≤ m.payload.length

instance (m : Message) (k : ℕ) : Decidable (m.Covers k) := inferInstanceAs (Decidable (_ ≤ _))

theorem covers_iff {m : Message} {k : ℕ} : m.Covers k ↔ k ≤ m.payload.length := Iff.rfl

theorem Covers.mono {m : Message} {j k : ℕ} (h : m.Covers k) (hjk : j ≤ k) : m.Covers j :=
  hjk.trans h

/-- The message with the bytes `stale` behind it. -/
def padded (m : Message) (stale : ℕ → UInt8) : Msg where
  id := m.id
  payload := m.payload ++ (List.range (maxPayload - m.payload.length)).map
    fun i => stale (m.payload.length + i)
  payloadSize := UInt8.ofNat m.payload.length
  payload_length := by
    have := m.size_le
    simp only [List.length_append, List.length_map, List.length_range]
    omega

theorem holds_padded (m : Message) (stale : ℕ → UInt8) : (m.padded stale).Holds m where
  id := rfl
  size := rfl
  take := List.take_left

/-- The bytes of the array are those of the message and then the stale ones. -/
theorem byteAt_padded (m : Message) (stale : ℕ → UInt8) {i : ℕ} (hi : i < maxPayload) :
    byteAt (m.padded stale).payload i =
      if m.Covers (i + 1) then byteAt m.payload i else stale i := by
  by_cases h : i < m.payload.length
  · rw [padded, byteAt_append_left _ h, if_pos (covers_iff.mpr h)]
  · have hle : m.payload.length ≤ i := by omega
    have hnot : ¬ m.Covers (i + 1) := by
      rw [covers_iff]
      omega
    rw [if_neg hnot, padded, byteAt, List.getD_eq_getElem?_getD,
      List.getElem?_append_right hle, List.getElem?_map, List.getElem?_range (by omega)]
    simp [Nat.add_sub_cancel' hle]

/-- The structure with `b` at the offset `i` and `0` elsewhere behind the message. -/
def paddedAt (m : Message) (i : ℕ) (b : UInt8) : Msg := m.padded (Function.update (fun _ => 0) i b)

theorem holds_paddedAt (m : Message) (i : ℕ) (b : UInt8) : (m.paddedAt i b).Holds m := m.holds_padded _

theorem byteAt_paddedAt_self {m : Message} {i : ℕ} (b : UInt8) (hi : i < maxPayload)
    (h : ¬ m.Covers (i + 1)) : byteAt (m.paddedAt i b).payload i = b := by
  rw [paddedAt, byteAt_padded _ _ hi, if_neg h, Function.update_self]

theorem byteAt_paddedAt_of_ne (m : Message) {i j : ℕ} (b : UInt8) (hj : j < maxPayload)
    (hne : j ≠ i) : byteAt (m.paddedAt i b).payload j = byteAt m.payload j := by
  rw [paddedAt, byteAt_padded _ _ hj, Function.update_of_ne hne]
  split
  case isTrue => rfl
  case isFalse h =>
      rw [covers_iff] at h
      exact (byteAt_of_length_le (by omega)).symm

/-! ### Functions determined by the message -/

variable {β γ : Type}

/-- `f` takes one value on all structures that hold the message. -/
def Determines (m : Message) (f : Msg → β) : Prop :=
  ∀ msg msg', msg.Holds m → msg'.Holds m → f msg = f msg'

/-- `f` is determined by the message exactly when it has `k` payload bytes. -/
def Reads (m : Message) (f : Msg → β) (k : ℕ) : Prop := m.Determines f ↔ m.Covers k

/-- Structures that differ behind the first `k` payload bytes only. -/
structure AgreeOn (k : ℕ) (msg msg' : Msg) : Prop where
  id : msg.id = msg'.id
  size : msg.payloadSize = msg'.payloadSize
  take : msg.payload.take k = msg'.payload.take k

theorem AgreeOn.byteAt {k i : ℕ} {msg msg' : Msg} (h : AgreeOn k msg msg') (hi : i < k) :
    byteAt msg.payload i = byteAt msg'.payload i := by
  rw [← byteAt_take hi, h.take, byteAt_take hi]

theorem AgreeOn.slice {k off len : ℕ} {msg msg' : Msg} (h : AgreeOn k msg msg')
    (hlen : off + len ≤ k) : slice msg.payload off len = slice msg'.payload off len := by
  rw [← slice_take hlen, h.take, slice_take hlen]

/-- A function of the payload that looks at its first `k` bytes. -/
theorem AgreeOn.congr {k : ℕ} {msg msg' : Msg} (h : AgreeOn k msg msg') {g : List UInt8 → β}
    (htake : ∀ data, g (data.take k) = g data) : g msg.payload = g msg'.payload := by
  rw [← htake msg.payload, h.take, htake]

theorem agreeOn_of_holds {m : Message} {k : ℕ} (hk : m.Covers k) {msg msg' : Msg}
    (h : msg.Holds m) (h' : msg'.Holds m) : AgreeOn k msg msg' where
  id := h.id.trans h'.id.symm
  size := h.size.trans h'.size.symm
  take := by
    have hmin : min k m.payload.length = k := Nat.min_eq_left hk
    calc msg.payload.take k = (msg.payload.take m.payload.length).take k := by
          rw [List.take_take, hmin]
      _ = (msg'.payload.take m.payload.length).take k := by rw [h.take, h'.take]
      _ = msg'.payload.take k := by rw [List.take_take, hmin]

/-- A function that is determined once the first `k` payload bytes are there, and for which the
last of them matters once it is stale. -/
theorem reads_intro {m : Message} {f : Msg → β} {k : ℕ}
    (hdet : m.Covers k → m.Determines f)
    (hlast : ¬ m.Covers k → ∃ msg msg', msg.Holds m ∧ msg'.Holds m ∧ f msg ≠ f msg') :
    m.Reads f k := by
  refine ⟨?_, hdet⟩
  intro h
  by_contra hcovers
  obtain ⟨msg, msg', hmsg, hmsg', hne⟩ := hlast hcovers
  exact hne (h msg msg' hmsg hmsg')

/-- The same for a function of the id, the size and the first `k` payload bytes. -/
theorem reads_of_last {m : Message} {f : Msg → β} {k : ℕ}
    (hreads : ∀ {msg msg'}, AgreeOn k msg msg' → f msg = f msg')
    (hlast : ¬ m.Covers k → ∃ msg msg', msg.Holds m ∧ msg'.Holds m ∧ f msg ≠ f msg') :
    m.Reads f k :=
  reads_intro (fun hk _ _ hmsg hmsg' => hreads (agreeOn_of_holds hk hmsg hmsg')) hlast

/-- A function of the first `i + 1` payload bytes that tells `0` from `1` in the last one. -/
theorem reads_of_lastByte {m : Message} {f : Msg → β} {i : ℕ} (hi : i < maxPayload)
    (hreads : ∀ {msg msg'}, AgreeOn (i + 1) msg msg' → f msg = f msg')
    (hlast : ∀ {msg msg'}, AptUsbtrx.byteAt msg.payload i = 0 →
      AptUsbtrx.byteAt msg'.payload i = 1 → f msg ≠ f msg') : m.Reads f (i + 1) :=
  reads_of_last hreads fun hcovers =>
    ⟨m.paddedAt i 0, m.paddedAt i 1, m.holds_paddedAt i 0, m.holds_paddedAt i 1,
      hlast (byteAt_paddedAt_self 0 hi hcovers) (byteAt_paddedAt_self 1 hi hcovers)⟩

/-- A function that every message determines. -/
theorem Determines.reads {m : Message} {f : Msg → β} (h : m.Determines f) : m.Reads f 0 :=
  ⟨fun _ => Nat.zero_le _, fun _ => h⟩

theorem covers_self (m : Message) : m.Covers m.payload.length := le_rfl

theorem Determines.comp {m : Message} {f : Msg → β} (h : m.Determines f) (g : β → γ) :
    m.Determines fun msg => g (f msg) :=
  fun msg msg' hmsg hmsg' => congrArg g (h msg msg' hmsg hmsg')

/-- An injective view of a function is determined by the same messages. -/
theorem reads_comp_iff {m : Message} {f : Msg → β} {g : β → γ} {k : ℕ}
    (hg : Function.Injective g) : m.Reads (fun msg => g (f msg)) k ↔ m.Reads f k := by
  have hiff : m.Determines (fun msg => g (f msg)) ↔ m.Determines f :=
    ⟨fun h msg msg' hmsg hmsg' => hg (h msg msg' hmsg hmsg'), fun h => h.comp g⟩
  rw [Reads, Reads, hiff]

/-- Two functions that agree on the structures that hold the message. -/
theorem Reads.congr {m : Message} {f g : Msg → β} {k : ℕ} (h : m.Reads f k)
    (hfg : ∀ msg, msg.Holds m → f msg = g msg) : m.Reads g k := by
  have hiff : m.Determines g ↔ m.Determines f := by
    refine ⟨?_, ?_⟩
    · intro hg msg msg' hmsg hmsg'
      rw [hfg msg hmsg, hfg msg' hmsg', hg msg msg' hmsg hmsg']
    · intro hf msg msg' hmsg hmsg'
      rw [← hfg msg hmsg, ← hfg msg' hmsg', hf msg msg' hmsg hmsg']
  exact hiff.trans h

end Message

/-- The bytes of the message stand at the start of the payload array. -/
theorem Msg.Holds.byteAt {msg : Msg} {m : Message} (h : msg.Holds m) {i : ℕ}
    (hi : m.Covers (i + 1)) : byteAt msg.payload i = byteAt m.payload i := by
  rw [← h.take, byteAt_take hi]

/-! ### Structures filled by the parser -/

theorem Msg.Holds.payload_eq {msg : Msg} {m : Message} (h : msg.Holds m) :
    overwrite msg.payload 0 m.payload = msg.payload := by
  rw [overwrite, List.take_zero, List.nil_append, Nat.zero_add]
  conv_lhs => rw [← h.take, List.length_take, msg.payload_length]
  rw [Nat.min_eq_left m.size_le, List.take_append_drop, List.take_of_length_le msg.payload_length.le]

section

variable (m : Message) (tail : List UInt8) {n : ℕ}

/-- What the parser makes of a frame, whatever the structure held before, holds its message. -/
theorem holds_msgParse (hn : m.length ≤ n) (stale : Msg) :
    (msgParse (m.encode ++ tail) n stale).2.Holds m := by
  have hmessage := msgParse_encode m tail stale hn
  have hsuccess := msgParse_encode_fst m tail stale hn
  have hsize : (msgParse (m.encode ++ tail) n stale).2.payloadSize =
      UInt8.ofNat m.payload.length := by
    rw [msgParse_snd_of_success hsuccess, parsedMsg, frameLength_encode,
      m.msgLengthToPayload_length]
  refine ⟨congrArg Message.id hmessage, hsize, ?_⟩
  have hbytes := congrArg Message.payload hmessage
  rwa [Msg.message_payload, Msg.bytes, hsize, m.toNat_payloadSize] at hbytes

/-- The parser leaves a structure alone that holds the message. -/
theorem Msg.Holds.msgParse {msg : Msg} (h : msg.Holds m) (hn : m.length ≤ n) :
    (msgParse (m.encode ++ tail) n msg).2 = msg := by
  have hafter := holds_msgParse m tail hn msg
  apply Msg.ext
  · exact hafter.id.trans h.id.symm
  · rw [msgParse_snd_of_success (msgParse_encode_fst m tail msg hn)]
    simp only [parsedMsg, Msg.copyPayload, frameLength_encode, m.msgLengthToPayload_length,
      slice_encode_payload, h.payload_eq]
  · exact hafter.size.trans h.size.symm

/-- The structures that hold the message are the ones the parser fills. -/
theorem determines_iff_parse {β : Type} (hn : m.length ≤ n) (f : Msg → β) :
    m.Determines f ↔ ∀ stale stale' : Msg,
      f (AptUsbtrx.msgParse (m.encode ++ tail) n stale).2 =
        f (AptUsbtrx.msgParse (m.encode ++ tail) n stale').2 := by
  refine ⟨?_, ?_⟩
  · intro h stale stale'
    exact h _ _ (holds_msgParse m tail hn stale) (holds_msgParse m tail hn stale')
  · intro h msg msg' hmsg hmsg'
    have heq := h msg msg'
    rwa [hmsg.msgParse m tail hn, hmsg'.msgParse m tail hn] at heq

end

end AptUsbtrx
