import AptUsbtrx.Model.Flight
import AptUsbtrx.Verification.Transmit.Thread

/-! # The numbers of the frames

The numbers that the URBs in flight go by are those of their frames. -/

namespace AptUsbtrx

open Memory Execution

namespace TxSystem

variable {υ : Type} {s t : TxSystem υ} {bufferAddr : ℕ}

/-- The bytes of the URBs so far. -/
def urbData (s : TxSystem υ) : List (List UInt8) := s.log.filterMap TxEvent.urbData

/-- What a step of the thread does to the frames. -/
structure FrameSpec (s : TxSystem υ) (event : FrameEvent) (t : TxSystem υ) : Prop where
  accepted : t.accepted = s.accepted
  urbs : t.urbs = s.urbs + if event = .submit then 1 else 0
  inHand : t.pc.inHand = true → event = .keep ∧ s.pc.inHand = true ∨ event = .take
  submit : event = .submit → t.pc.inHand = false ∧ ∃ buffer msgLength,
    s.pc = .submit buffer msgLength ∧ t.urbData = s.urbData ++ [buffer.take msgLength]
  keep : event ≠ .submit → t.urbData = s.urbData

theorem frameSpec_of_idle {event : FrameEvent} (haccepted : t.accepted = s.accepted)
    (hurbs : t.urbs = s.urbs) (hdata : t.urbData = s.urbData) (hpc : t.pc.inHand = false)
    (hevent : event ≠ .submit) : FrameSpec s event t where
  accepted := haccepted
  urbs := by rw [hurbs, if_neg hevent, Nat.add_zero]
  inHand h := absurd (hpc.symm.trans h) Bool.false_ne_true
  submit h := absurd h hevent
  keep _ := hdata

theorem frameSpec_of_inHand (haccepted : t.accepted = s.accepted) (hurbs : t.urbs = s.urbs)
    (hdata : t.urbData = s.urbData) (hpc : s.pc.inHand = true) : FrameSpec s .keep t where
  accepted := haccepted
  urbs := by rw [hurbs, if_neg (by decide), Nat.add_zero]
  inHand _ := .inl ⟨rfl, hpc⟩
  submit := nofun
  keep _ := hdata

theorem frameSpec_header (hpc : s.pc = .header) (choice : Bool) :
    FrameSpec s (s.frameEvent bufferAddr choice) (s.header bufferAddr) := by
  rw [frameEvent, hpc, header]
  dsimp only
  cases hread : (readHeader bufferAddr s.dev.txData).1 with
  | ok buffer msgLength => exact ⟨rfl, rfl, fun _ => .inr rfl, by simp, fun _ => rfl⟩
  | empty | short | noLength | invalidLength =>
      exact frameSpec_of_idle rfl rfl rfl rfl (by simp)

theorem frameSpec_body {buffer : List UInt8} {msgLength pos remain : ℕ}
    (hpc : s.pc = .body buffer msgLength pos remain) (choice : Bool) :
    FrameSpec s (s.frameEvent bufferAddr choice)
      (s.body bufferAddr buffer msgLength pos remain) := by
  have hhand : s.pc.inHand = true := by rw [hpc]; rfl
  rw [frameEvent, hpc, body]
  dsimp only
  repeat' split
  all_goals exact frameSpec_of_inHand rfl rfl rfl hhand

theorem urbData_concat (event : TxEvent) (h : t.log = s.log ++ [event]) :
    t.urbData = s.urbData ++ event.urbData.toList := by
  rw [urbData, h, List.filterMap_append]
  cases event <;> rfl

theorem frameSpec_submit {buffer : List UInt8} {msgLength : ℕ}
    (hpc : s.pc = .submit buffer msgLength) (choice : Bool) :
    FrameSpec s (s.frameEvent bufferAddr choice) (s.submit (buffer.take msgLength) choice) := by
  rw [frameEvent, hpc]
  cases choice with
  | true =>
      exact ⟨rfl, rfl, fun h => absurd h Bool.false_ne_true, fun _ => ⟨rfl, buffer, msgLength, hpc,
        urbData_concat (.urb (buffer.take msgLength)) rfl⟩, fun h => absurd rfl h⟩
  | false =>
      have hdata := urbData_concat (s := s) (t := s.submit (buffer.take msgLength) false) _ rfl
      exact frameSpec_of_idle rfl rfl (hdata.trans (List.append_nil _)) rfl (by simp)

theorem frameSpec_thread {choice : Bool} (h : s.thread bufferAddr choice = some t) :
    FrameSpec s (s.frameEvent bufferAddr choice) t := by
  cases threadStep_of h with
  | stop hpc | toClear hpc | toWait hpc | cleared hpc | enabled hpc | timeout hpc
  | interrupted hpc | down hpc =>
      exact frameSpec_of_idle rfl rfl rfl rfl (by simp [frameEvent, hpc])
  | noToken hpc htokens | hasToken hpc htokens =>
      rw [htokens]
      cases choice
      all_goals exact frameSpec_of_idle rfl rfl rfl rfl (by simp [frameEvent, hpc])
  | clear hpc =>
      rw [frameEvent, hpc]
      exact frameSpec_of_idle rfl rfl ((urbData_concat .cleared rfl).trans (List.append_nil _)) rfl
        (by simp)
  | header hpc => exact frameSpec_header hpc choice
  | body hpc => exact frameSpec_body hpc choice
  | submit hpc => exact frameSpec_submit hpc choice

end TxSystem

namespace FlightSystem

variable {υ : Type} {s t : FlightSystem υ} {p : Pipeline (List UInt8)} {writeCmdId : UInt8}
  {bufferAddr : ℕ}

/-- The numbers are those of the frames of the queue that the ring represents. -/
structure Numbered (s : FlightSystem υ) (p : Pipeline (List UInt8)) : Prop where
  refines : s.tx.Refines p
  left : p.left = s.left
  data : s.tx.urbData.map some = s.submitted.map (s.tx.accepted[·]?)
  urbs : s.tx.urbs = s.flight.length
  nodup : s.flight.Nodup
  lt_left : ∀ k ∈ s.flight, k < s.left
  ne_hand : ∀ k ∈ s.flight, s.hand ≠ some k

/-- Every state of a run from an empty ring is numbered. -/
def Served (s : FlightSystem υ) : Prop := ∃ p : Pipeline (List UInt8), p.Reachable ∧ Numbered s p

theorem Numbered.inHand (h : Numbered s p) (hpc : s.tx.pc.inHand = true) :
    ∃ f, p.inHand = some f := by
  obtain ⟨rest, hholds, -⟩ := h.refines.queue
  cases hs : s.tx.pc with
  | body buffer msgLength pos remain =>
      rw [hs] at hholds
      obtain ⟨m, hhand, -⟩ := hholds
      exact ⟨_, hhand⟩
  | submit buffer msgLength =>
      rw [hs] at hholds
      exact ⟨_, hholds.1⟩
  | _ =>
      rw [hs] at hpc
      cases hpc

/-- The ring holds the frames that have not left it behind the rest of the one in the thread's
hands. -/
theorem Numbered.queue (h : Numbered s p) (hp : p.Reachable) :
    ∃ rest, TxSystem.Holds s.tx.pc p.inHand rest ∧
      s.tx.dev.txData.queue = rest ++ (s.tx.accepted.drop s.left).flatten := by
  obtain ⟨rest, hholds, hqueue⟩ := h.refines.queue
  refine ⟨rest, hholds, hqueue.trans ?_⟩
  rw [(Pipeline.conserved_of_reachable hp).queued_eq, h.left, h.refines.accepted]

theorem served_start {dev : Dev υ} (hw : dev.txData.Wf) (hempty : dev.txData.queue = [])
    (hroom : dev.txData.endPtr + cmdMaxLength < 2 ^ 64) (maxToken : ℤ) :
    Served (start dev maxToken) :=
  ⟨.empty, .refl, TxSystem.refines_start hw hempty hroom maxToken, rfl, rfl, rfl, List.nodup_nil,
    nofun, nofun⟩

/-- Frames that are accepted do not change those submitted before. -/
theorem map_getElem?_append {accepted : List (List UInt8)} {numbers : List ℕ}
    {data : List (List UInt8)} (h : data.map some = numbers.map (accepted[·]?))
    (more : List (List UInt8)) : data.map some = numbers.map ((accepted ++ more)[·]?) := by
  rw [h]
  apply List.map_congr_left
  intro k hk
  have hmem : accepted[k]? ∈ data.map some := h ▸ List.mem_map_of_mem hk
  obtain ⟨f, -, hf⟩ := List.mem_map.mp hmem
  have hlt : k < accepted.length := (List.getElem?_eq_some_iff.mp hf.symm).1
  exact (List.getElem?_append_left hlt).symm

theorem hand_of_not_inHand (h : s.tx.pc.inHand = false) : s.hand = none := by
  rw [hand, h, if_neg Bool.false_ne_true]

theorem hand_of_inHand (h : s.tx.pc.inHand = true) : s.hand = some (s.left - 1) := by
  rw [hand, h, if_pos rfl]

/-- A step in which no URB is submitted. -/
theorem Numbered.observe (h : Numbered s p) (hp : p.Reachable) {q : Pipeline (List UInt8)}
    {tx : TxSystem υ} {event : FrameEvent} (hrefines : tx.Refines q)
    (hleft : q.left = event.left s.tx.accepted.length p.left)
    (hspec : s.tx.FrameSpec event tx) (hevent : event ≠ .submit) :
    Numbered (s.observe tx event) q := by
  have hflight : (s.observe tx event).flight = s.flight := by
    simp only [FlightSystem.observe, if_neg hevent, List.append_nil]
  have hle : s.left ≤ event.left s.tx.accepted.length s.left := by
    have hadd := (Pipeline.conserved_of_reachable hp).left_add
    rw [h.left, ← h.refines.accepted] at hadd
    cases event with
    | clear => exact hadd ▸ Nat.le_add_right _ _
    | take => exact Nat.le_succ _
    | submit | keep => exact Nat.le_refl _
  refine ⟨hrefines, by rw [hleft, h.left]; rfl, ?_, ?_, by rw [hflight]; exact h.nodup, ?_, ?_⟩
  · simp only [FlightSystem.observe, if_neg hevent, List.append_nil, hspec.keep hevent,
      hspec.accepted]
    exact h.data
  · rw [hflight]
    simp only [FlightSystem.observe, hspec.urbs, if_neg hevent, Nat.add_zero, h.urbs]
  · rw [hflight]
    exact fun k hk => (h.lt_left k hk).trans_le hle
  · rw [hflight]
    intro k hk
    by_cases hpc : tx.pc.inHand = true
    · rw [hand_of_inHand hpc]
      rcases hspec.inHand hpc with ⟨rfl, hs⟩ | rfl
      · have hne := h.ne_hand k hk
        rwa [hand_of_inHand hs] at hne
      · have hlt := h.lt_left k hk
        intro heq
        exact Nat.ne_of_gt hlt (Option.some.inj heq)
    · rw [hand_of_not_inHand (Bool.not_eq_true _ ▸ hpc)]
      exact nofun

/-- The frame in the thread's hands leaves as a URB. -/
theorem Numbered.submit (h : Numbered s p) (hp : p.Reachable) {q : Pipeline (List UInt8)}
    {tx : TxSystem υ} (hrefines : tx.Refines q) (hleft : q.left = p.left)
    (hspec : s.tx.FrameSpec .submit tx) : Numbered (s.observe tx .submit) q := by
  obtain ⟨hpc, buffer, msgLength, hs, hdata⟩ := hspec.submit rfl
  have hhand : s.hand = some (s.left - 1) := hand_of_inHand (by rw [hs]; rfl)
  obtain ⟨hpos, hframe⟩ :
      0 < s.left ∧ s.tx.accepted[s.left - 1]? = some (buffer.take msgLength) := by
    obtain ⟨rest, hholds, -⟩ := h.refines.queue
    rw [hs] at hholds
    have := (Pipeline.conserved_of_reachable hp).getElem?_inHand hholds.1
    rwa [h.left, ← h.refines.accepted] at this
  refine ⟨hrefines, hleft.trans h.left, ?_, ?_, ?_, ?_, ?_⟩
  · simp only [FlightSystem.observe, if_pos, hdata, hspec.accepted, List.map_append,
      List.map_singleton, h.data, hframe]
  · simp only [FlightSystem.observe, hspec.urbs, if_pos, h.urbs, List.length_append,
      List.length_singleton]
  · simp only [FlightSystem.observe, if_pos]
    refine List.nodup_append.mpr ⟨h.nodup, List.pairwise_singleton _ _, ?_⟩
    rintro k hk _ hlast rfl
    rw [List.mem_singleton.mp hlast] at hk
    exact h.ne_hand _ hk hhand
  · intro k hk
    simp only [FlightSystem.observe, if_pos, List.mem_append, List.mem_singleton] at hk
    rcases hk with hk | rfl
    · exact h.lt_left k hk
    · exact Nat.sub_lt hpos Nat.one_pos
  · intro k _
    rw [hand_of_not_inHand hpc]
    exact nofun

theorem Served.left_le (h : Served s) : s.left ≤ s.tx.accepted.length := by
  obtain ⟨p, hp, h⟩ := h
  have hadd := (Pipeline.conserved_of_reachable hp).left_add
  rw [h.left, ← h.refines.accepted] at hadd
  omega

theorem Served.lt_left_of_mem (h : Served s) {k : ℕ} (hk : k ∈ s.flight) : k < s.left := by
  obtain ⟨p, -, h⟩ := h
  exact h.lt_left k hk

theorem Served.thread (h : Served s) (haddr : bufferAddr ≠ 0)
    (hstack : bufferAddr + cmdMaxLength < 2 ^ 64) {choice : Bool} {tx : TxSystem υ}
    (hstep : s.tx.thread bufferAddr choice = some tx) :
    Served (s.observe tx (s.tx.frameEvent bufferAddr choice)) := by
  obtain ⟨p, hp, h⟩ := h
  obtain ⟨q, hq, hrefines, hleft⟩ := h.refines.thread hp haddr hstack hstep
  have hspec := TxSystem.frameSpec_thread hstep
  refine ⟨q, hq, ?_⟩
  by_cases hevent : s.tx.frameEvent bufferAddr choice = .submit
  · rw [hevent] at hleft hspec ⊢
    exact h.submit hp hrefines hleft hspec
  · exact h.observe hp hrefines hleft hspec hevent

/-- Steps that touch neither the ring nor the thread. -/
theorem Served.of_eq (h : Served s) {tx : TxSystem υ} (hring : tx.dev.txData = s.tx.dev.txData)
    (haccepted : tx.accepted = s.tx.accepted) (hlog : tx.log = s.tx.log) (hpc : tx.pc = s.tx.pc)
    (hurbs : tx.urbs = s.tx.urbs) : Served { s with tx := tx } := by
  obtain ⟨p, hp, h⟩ := h
  have hhand : hand { s with tx := tx } = s.hand := by
    simp only [hand, hpc]
  refine ⟨p, hp, h.refines.of_eq hring haccepted hlog fun rest hholds => hpc ▸ hholds, h.left, ?_,
    hurbs.trans h.urbs, h.nodup, h.lt_left, ?_⟩
  · simp only [TxSystem.urbData, hlog, haccepted]
    exact h.data
  · rw [hhand]
    exact h.ne_hand

theorem Served.write (h : Served s) (writeCmdId : UInt8) (payload : List UInt8)
    (payloadSize : UInt8) (msg : Msg) :
    Served { s with tx := s.tx.write writeCmdId payload payloadSize msg } := by
  obtain ⟨p, hp, h⟩ := h
  obtain ⟨q, hq, hrefines, hleft⟩ := h.refines.write hp writeCmdId payload payloadSize msg
  refine ⟨q, hq, hrefines, hleft.trans h.left, ?_, h.urbs, h.nodup, h.lt_left, h.ne_hand⟩
  have hdata := h.data
  simp only [TxSystem.urbData, TxSystem.write]
  split
  · exact map_getElem?_append hdata _
  · exact hdata

theorem Served.complete (h : Served s) {k : ℕ} (hk : k ∈ s.flight) {tx : TxSystem υ}
    (hstep : s.tx.step writeCmdId bufferAddr .writeBulkCallback = some tx) :
    Served { s with tx := tx, flight := s.flight.erase k } := by
  obtain ⟨p, hp, h⟩ := h
  rw [TxSystem.step] at hstep
  split at hstep
  case isFalse => cases hstep
  case isTrue =>
    cases hstep
    refine ⟨p, hp, h.refines.of_eq rfl rfl rfl fun rest hholds => hholds, h.left, h.data, ?_,
      h.nodup.erase k, fun j hj => h.lt_left j (List.mem_of_mem_erase hj),
      fun j hj => h.ne_hand j (List.mem_of_mem_erase hj)⟩
    simp only [List.length_erase_of_mem hk, h.urbs]

theorem Served.step (h : Served s) (haddr : bufferAddr ≠ 0)
    (hstack : bufferAddr + cmdMaxLength < 2 ^ 64) {l : FlightLabel}
    (hstep : s.step writeCmdId bufferAddr l = some t) : Served t := by
  cases l with
  | complete k =>
      simp only [FlightSystem.step] at hstep
      split at hstep
      case isFalse => cases hstep
      case isTrue hk =>
        obtain ⟨tx, htx, rfl⟩ := Option.map_eq_some_iff.mp hstep
        exact h.complete hk htx
  | tx label =>
      cases label with
      | writeBulkCallback => cases hstep
      | thread choice =>
          obtain ⟨tx, htx, rfl⟩ := Option.map_eq_some_iff.mp hstep
          exact h.thread haddr hstack htx
      | write payload payloadSize msg =>
          cases hstep
          exact h.write writeCmdId payload payloadSize msg
      | requestClear | atomicSet =>
          cases hstep
          exact h.of_eq rfl rfl rfl rfl rfl

end FlightSystem

end AptUsbtrx
