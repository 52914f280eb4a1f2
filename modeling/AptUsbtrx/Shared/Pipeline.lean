import Mathlib.Data.List.Basic
import Mathlib.Logic.Relation

/-! # A queue with one server

Items are accepted at the tail of a queue. The server takes the head in its hand and gets
rid of it one way or the other before it takes the next or clears the queue. -/

/-- How items leave. -/
inductive Outcome (α : Type*) where
  | submitted (x : α)
  | failed (x : α)
  | cleared (xs : List α)

/-- The items that left. -/
def Outcome.items {α : Type*} : Outcome α → List α
  | submitted x | failed x => [x]
  | cleared xs => xs

structure Pipeline (α : Type*) where
  accepted : List α
  queued : List α
  inHand : Option α
  log : List (Outcome α)

namespace Pipeline

variable {α : Type*}

def empty : Pipeline α := ⟨[], [], none, []⟩

inductive Step : Pipeline α → Pipeline α → Prop where
  | accept {p : Pipeline α} (x : α) :
      Step p { p with accepted := p.accepted ++ [x], queued := p.queued ++ [x] }
  | take {p : Pipeline α} {x : α} {xs : List α} : p.queued = x :: xs → p.inHand = none →
      Step p { p with queued := xs, inHand := some x }
  | submit {p : Pipeline α} {x : α} : p.inHand = some x →
      Step p { p with inHand := none, log := p.log ++ [.submitted x] }
  | fail {p : Pipeline α} {x : α} : p.inHand = some x →
      Step p { p with inHand := none, log := p.log ++ [.failed x] }
  | clear {p : Pipeline α} : p.inHand = none →
      Step p { p with queued := [], log := p.log ++ [.cleared p.queued] }

def Reachable (p : Pipeline α) : Prop := Relation.ReflTransGen Step empty p

/-- Every accepted item has left once, is in hand or is queued, in the order of acceptance. -/
def Conserved (p : Pipeline α) : Prop :=
  p.accepted = p.log.flatMap Outcome.items ++ p.inHand.toList ++ p.queued

theorem Conserved.step {p q : Pipeline α} (h : Conserved p) (hstep : Step p q) : Conserved q := by
  rw [Conserved] at h ⊢
  cases hstep with
  | accept x => simp only [h, List.append_assoc]
  | take hqueued hnone => simp [h, hqueued, hnone]
  | submit hsome | fail hsome => simp [h, hsome, Outcome.items]
  | clear hnone => simp [h, hnone, Outcome.items]

theorem conserved_of_reachable {p : Pipeline α} (h : Reachable p) : Conserved p := by
  induction h with
  | refl => rfl
  | tail _ hstep ih => exact ih.step hstep

/-- The number of items that are no longer queued, which is that of the next one to be taken. -/
def left (p : Pipeline α) : ℕ := p.accepted.length - p.queued.length

theorem Conserved.left_eq {p : Pipeline α} (h : Conserved p) :
    p.left = (p.log.flatMap Outcome.items).length + p.inHand.toList.length := by
  have hlength := congrArg List.length h
  simp only [List.length_append] at hlength
  rw [left]
  omega

theorem Conserved.left_add {p : Pipeline α} (h : Conserved p) :
    p.left + p.queued.length = p.accepted.length := by
  have hlength := congrArg List.length h
  simp only [List.length_append] at hlength
  rw [h.left_eq]
  omega

/-- The items that are queued are the last ones accepted. -/
theorem Conserved.queued_eq {p : Pipeline α} (h : Conserved p) :
    p.queued = p.accepted.drop p.left := by
  have hleft := h.left_eq
  rw [Conserved] at h
  rw [h, List.drop_left' (by rw [List.length_append, hleft])]

/-- The item in hand is the last one that was taken. -/
theorem Conserved.getElem?_inHand {p : Pipeline α} (h : Conserved p) {x : α}
    (hsome : p.inHand = some x) : 0 < p.left ∧ p.accepted[p.left - 1]? = some x := by
  have hleft := h.left_eq
  rw [hsome, Option.toList_some, List.length_singleton] at hleft
  refine ⟨by omega, ?_⟩
  rw [Conserved, hsome, Option.toList_some] at h
  rw [h, hleft, Nat.add_sub_cancel, List.append_assoc, List.getElem?_append_right (Nat.le_refl _),
    Nat.sub_self]
  rfl

/-- The items in hand and in the queue, oldest first. -/
def pending (p : Pipeline α) : List α := p.inHand.toList ++ p.queued

/-- What is pending is what the log has not accounted for. -/
theorem Conserved.pending_eq {p : Pipeline α} (h : Conserved p) :
    p.pending = p.accepted.drop (p.left - p.inHand.toList.length) := by
  have hleft := h.left_eq
  rw [Conserved, List.append_assoc] at h
  rw [h, List.drop_left' (by omega), pending]

end Pipeline

/-! ### What became of the items -/

/-- An item that has left, and whether it was submitted. -/
structure Departure (α : Type*) where
  item : α
  sent : Bool

/-- The item that was submitted. -/
def Outcome.submittedItem {α : Type*} : Outcome α → Option α
  | .submitted x => some x
  | .failed _ | .cleared _ => none

/-- When the items that a log accounts for are made of others, the log tells what became of
these. -/
theorem exists_departures {α β : Type*} {f : β → α} {log : List (Outcome α)} {ys : List β}
    (h : ys.map f = log.flatMap Outcome.items) :
    ∃ gone : List (Departure β), gone.map Departure.item = ys ∧
      (gone.filter fun d => d.sent).map (fun d => f d.item) =
        log.filterMap Outcome.submittedItem := by
  induction log generalizing ys with
  | nil =>
      obtain rfl := List.map_eq_nil_iff.mp h
      exact ⟨[], rfl, rfl⟩
  | cons outcome log ih =>
      rw [List.flatMap_cons] at h
      obtain ⟨front, rest, rfl, hfront, hrest⟩ := List.map_eq_append_iff.mp h
      obtain ⟨gone, hgone, hsent⟩ := ih hrest
      refine ⟨front.map (⟨·, outcome.submittedItem.isSome⟩) ++ gone, ?_, ?_⟩
      · rw [List.map_append, List.map_map, hgone]
        congr 1
        exact List.map_id front
      · rw [List.filter_append, List.map_append, hsent, List.filterMap_cons]
        cases outcome with
        | submitted x =>
            obtain ⟨y, rfl, hy⟩ := List.map_eq_singleton_iff.mp hfront
            simp [Outcome.submittedItem, hy]
        | failed x | cleared xs => simp [Outcome.submittedItem]
