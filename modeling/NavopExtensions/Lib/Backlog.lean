import Mathlib

/-!
# A bounded queue that misses its oldest elements

Seen from outside, everything that was sent to a queue is one list, and the queue is what is left of it after
what was read and what was missed. Something is missed only if the queue is full. A queue that drops its first
element when it is full does this (`Ledger.unread_send`, `Ledger.unread_read`).
-/

namespace Backlog

variable {α : Type*}

/-- What was sent to a queue, and how much of it was read, and missed. -/
structure Ledger (α : Type*) where
  sent : List α
  read : ℕ
  missed : ℕ

/-- Nothing has been sent. -/
def Ledger.empty : Ledger α := ⟨[], 0, 0⟩

/-- What can still be read. -/
def Ledger.unread (ledger : Ledger α) : List α := ledger.sent.drop (ledger.read + ledger.missed)

/-- An element is sent; if the queue is full, one more is missed. -/
def Ledger.send (capacity : ℕ) (ledger : Ledger α) (x : α) : Ledger α :=
  ⟨ledger.sent ++ [x], ledger.read,
    if ledger.unread.length < capacity then ledger.missed else ledger.missed + 1⟩

/-- Some elements are read. -/
def Ledger.advance (ledger : Ledger α) (n : ℕ) : Ledger α := { ledger with read := ledger.read + n }

/-- No more was read and missed than was sent, and no more is left than fits. -/
structure Ledger.Fits (capacity : ℕ) (ledger : Ledger α) : Prop where
  le_sent : ledger.read + ledger.missed ≤ ledger.sent.length
  unread_le : ledger.unread.length ≤ capacity

variable {capacity : ℕ} {ledger : Ledger α} {x : α} {n : ℕ}

@[simp] theorem Ledger.unread_empty : (Ledger.empty : Ledger α).unread = [] := rfl

@[simp] theorem Ledger.missed_advance : (ledger.advance n).missed = ledger.missed := rfl

theorem Ledger.unread_advance : (ledger.advance n).unread = ledger.unread.drop n := by
  rw [unread, unread, List.drop_drop, advance]
  congr 1
  exact Nat.add_right_comm _ _ _

theorem Ledger.unread_send (h : ledger.read + ledger.missed ≤ ledger.sent.length)
    (hpos : 0 < capacity) :
    (ledger.send capacity x).unread =
      if ledger.unread.length < capacity then ledger.unread ++ [x] else ledger.unread.tail ++ [x] := by
  unfold send unread
  split
  · rw [List.drop_append_of_le_length h]
  · next hfull =>
    -- The queue is full, so that there is something to miss.
    have hlt : ledger.read + ledger.missed < ledger.sent.length := by
      rw [List.length_drop] at hfull
      omega
    change (ledger.sent ++ [x]).drop (ledger.read + ledger.missed + 1) = _
    rw [List.drop_append_of_le_length hlt, List.tail_drop]

theorem Ledger.fits_empty : (Ledger.empty : Ledger α).Fits capacity := ⟨le_rfl, Nat.zero_le _⟩

theorem Ledger.Fits.send (h : ledger.Fits capacity) (hpos : 0 < capacity) :
    (ledger.send capacity x).Fits capacity := by
  have hlength : ledger.unread.length = ledger.sent.length - (ledger.read + ledger.missed) :=
    List.length_drop
  constructor
  · have hsent := h.le_sent
    unfold Ledger.send
    rw [List.length_append, List.length_singleton]
    split
    · exact Nat.le_succ_of_le hsent
    · next hfull =>
      dsimp only
      omega
  -- a message is added, and the oldest unread one goes if there was no room
  · rw [unread_send h.le_sent hpos]
    have hunread := h.unread_le
    split
    · rw [List.length_append, List.length_singleton]
      omega
    · rw [List.length_append, List.length_singleton, List.length_tail]
      omega

theorem Ledger.Fits.advance (h : ledger.Fits capacity) (hn : n ≤ ledger.unread.length) :
    (ledger.advance n).Fits capacity := by
  have hlength : ledger.unread.length = ledger.sent.length - (ledger.read + ledger.missed) :=
    List.length_drop
  have hsent := h.le_sent
  constructor
  · change ledger.read + n + ledger.missed ≤ ledger.sent.length
    omega
  · rw [unread_advance, List.length_drop]
    exact (Nat.sub_le _ _).trans h.unread_le

end Backlog
