import Mathlib

/-!
# Broadcast channels

A bounded broadcast channel, as one of its receivers sees it. The library that the channel comes from is
a parameter (`Library`); what it documents is said by an abstract channel (`Channel`): the values that
were sent since the receiver subscribed, and how many of them the receiver has passed. A library is as
documented if its channels have such a view, and its operations do to the view what the documentation
says (`Documented`).

The channel keeps the last values up to its capacity. A receiver that falls behind by more than that is
told how many values it has missed, and goes on with the oldest value that is still there. It is told
only when it asks: until then the values that were overwritten (`Channel.overwritten`) are in nobody's
count, neither among those that it can still receive (`Channel.unread`) nor among those that it has
passed (`Channel.Valid.sent_eq`).
-/

namespace Broadcast

variable {α : Type*}

/-- The answer of a receiver that does not wait. -/
inductive Received (α : Type*)
  | message (value : α)
  | lagged (missed : ℕ)
  | empty
  | closed

/-! ### What is documented -/

/-- A channel and one of its receivers. -/
structure Channel (α : Type*) where
  /-- The values sent since the receiver subscribed. -/
  sent : List α
  /-- How many of them the receiver has passed. -/
  next : ℕ
  /-- There are senders. -/
  live : Bool

/-- A new receiver. -/
def Channel.subscribe : Channel α := ⟨[], 0, true⟩

/-- A value is sent; without senders there is none. -/
def Channel.send (channel : Channel α) (value : α) : Channel α :=
  if channel.live then { channel with sent := channel.sent ++ [value] } else channel

/-- The senders are gone. -/
def Channel.hangUp (channel : Channel α) : Channel α := { channel with live := false }

/-- The position of the oldest value that is still there. -/
def Channel.oldest (capacity : ℕ) (channel : Channel α) : ℕ := channel.sent.length - capacity

/-- The receiver asks for a value. -/
@[irreducible] def Channel.tryRecv (capacity : ℕ) (channel : Channel α) : Channel α × Received α :=
  if channel.next < channel.oldest capacity then
    ({ channel with next := channel.oldest capacity },
      .lagged (channel.oldest capacity - channel.next))
  else
    match channel.sent[channel.next]? with
    | some value => ({ channel with next := channel.next + 1 }, .message value)
    | none => (channel, if channel.live then .empty else .closed)

/-- How many values the receiver has yet to receive that are still in the channel. -/
def Channel.unread (capacity : ℕ) (channel : Channel α) : ℕ :=
  channel.sent.length - max channel.next (channel.oldest capacity)

/-- How many values were overwritten before the receiver has passed them, since it last asked. -/
def Channel.overwritten (capacity : ℕ) (channel : Channel α) : ℕ :=
  channel.oldest capacity - channel.next

/-- The values that the receiver has passed. -/
def Channel.passed (channel : Channel α) : List α := channel.sent.take channel.next

/-- The receiver has not passed more than was sent. -/
def Channel.Valid (channel : Channel α) : Prop := channel.next ≤ channel.sent.length

/-! ### Libraries -/

/-- The operations of a library on a channel and one of its receivers. -/
structure Library (α : Type*) where
  /-- A channel with a receiver. -/
  Channel : Type
  /-- A new receiver. -/
  subscribe : Channel
  /-- A value is sent. -/
  send : Channel → α → Channel
  /-- The senders are gone. -/
  hangUp : Channel → Channel
  /-- The receiver asks for a value. -/
  tryRecv : Channel → Channel × Received α

/-- A library that does what is documented for channels of a capacity: its channels are seen as abstract
ones, and every operation does to them what it does to these. -/
structure Documented (capacity : ℕ) (lib : Library α) where
  view : lib.Channel → Channel α
  subscribe : view lib.subscribe = .subscribe
  send : ∀ channel value, view (lib.send channel value) = (view channel).send value
  hangUp : ∀ channel, view (lib.hangUp channel) = (view channel).hangUp
  tryRecv : ∀ channel, (view (lib.tryRecv channel).1, (lib.tryRecv channel).2)
    = (view channel).tryRecv capacity

/-- The documentation taken as an implementation, in which a channel is its own view. -/
@[reducible] def reference {α : Type} (capacity : ℕ) : Library α :=
  ⟨Channel α, .subscribe, .send, .hangUp, Channel.tryRecv capacity⟩

/-- The documentation is a library that does what is documented. -/
def documentedReference {α : Type} (capacity : ℕ) :
    Documented capacity (reference capacity : Library α) where
  view channel := channel
  subscribe := rfl
  send _ _ := rfl
  hangUp _ := rfl
  tryRecv _ := rfl

theorem Documented.of_tryRecv {capacity : ℕ} {lib : Library α} (h : Documented capacity lib)
    {channel channel' : lib.Channel} {received : Received α}
    (hrecv : lib.tryRecv channel = (channel', received)) :
    (h.view channel).tryRecv capacity = (h.view channel', received) := by
  rw [← h.tryRecv, hrecv]

/-! ### What the operations do -/

variable {capacity : ℕ} {channel : Channel α}

theorem Channel.valid_subscribe : (Channel.subscribe : Channel α).Valid := Nat.le_refl 0

theorem Channel.Valid.send (h : channel.Valid) (value : α) : (channel.send value).Valid := by
  unfold Channel.send
  split
  · exact h.trans (by simp)
  · exact h

theorem Channel.Valid.passed_send (h : channel.Valid) (value : α) :
    (channel.send value).passed = channel.passed := by
  unfold Channel.send
  split
  · exact List.take_append_of_le_length h
  · rfl

@[simp] theorem Channel.next_send (value : α) : (channel.send value).next = channel.next := by
  unfold Channel.send
  split <;> rfl

theorem Channel.length_send_le (channel : Channel α) (value : α) :
    (channel.send value).sent.length ≤ channel.sent.length + 1 := by
  unfold Channel.send
  split
  · exact List.length_append.le
  · exact Nat.le_succ _

/-- Asking sends nothing. -/
theorem Channel.sent_tryRecv (capacity : ℕ) (channel : Channel α) :
    (channel.tryRecv capacity).1.sent = channel.sent := by
  unfold Channel.tryRecv
  split
  · rfl
  · split <;> rfl

/-- **Where the values are that were sent**: the receiver has passed them, or can still receive them, or
they were overwritten. -/
theorem Channel.Valid.sent_eq (h : channel.Valid) (capacity : ℕ) :
    channel.sent.length
      = channel.next + channel.overwritten capacity + channel.unread capacity := by
  have hnext : channel.next ≤ channel.sent.length := h
  unfold Channel.overwritten Channel.unread Channel.oldest
  omega

/-- A receiver that asks is told first of all values that were overwritten. -/
theorem Channel.tryRecv_of_overwritten (h : 0 < channel.overwritten capacity) :
    (channel.tryRecv capacity).2 = .lagged (channel.overwritten capacity) := by
  unfold Channel.overwritten at h
  unfold Channel.tryRecv
  rw [if_pos (by omega)]
  rfl

theorem Documented.sent_of_tryRecv {lib : Library α} (h : Documented capacity lib)
    {channel channel' : lib.Channel} {received : Received α}
    (hrecv : lib.tryRecv channel = (channel', received)) :
    (h.view channel').sent = (h.view channel).sent := by
  rw [← (h.view channel).sent_tryRecv capacity, h.of_tryRecv hrecv]

/-- **What asking does**: the receiver passes a value that it gets, or the values that it has missed,
or nothing. -/
theorem Channel.Valid.tryRecv (h : channel.Valid) {channel' : Channel α} {received : Received α}
    (hrecv : channel.tryRecv capacity = (channel', received)) :
    channel'.Valid ∧
      ((∃ value, received = .message value ∧ channel'.next = channel.next + 1 ∧
          channel'.passed = channel.passed ++ [value]) ∨
        (∃ missed, received = .lagged missed ∧ channel'.next = channel.next + missed ∧
          channel.passed <+: channel'.passed) ∨
        ((received = .empty ∨ received = .closed) ∧ channel' = channel)) := by
  unfold Channel.tryRecv at hrecv
  split at hrecv
  · next hbehind =>
    obtain ⟨rfl, rfl⟩ := Prod.mk.inj hrecv
    refine ⟨Nat.sub_le _ _, .inr (.inl ⟨_, rfl, (Nat.add_sub_cancel' hbehind.le).symm, ?_⟩)⟩
    exact List.take_prefix_take_left hbehind.le
  · cases hnext : channel.sent[channel.next]? with
    | some value =>
      rw [hnext] at hrecv
      obtain ⟨rfl, rfl⟩ := Prod.mk.inj hrecv
      obtain ⟨hlt, hvalue⟩ := List.getElem?_eq_some_iff.mp hnext
      refine ⟨hlt, .inl ⟨value, rfl, rfl, ?_⟩⟩
      change channel.sent.take (channel.next + 1) = channel.sent.take channel.next ++ [value]
      rw [List.take_add_one, hnext, Option.toList_some]
    | none =>
      rw [hnext] at hrecv
      obtain ⟨rfl, rfl⟩ := Prod.mk.inj hrecv
      refine ⟨h, .inr (.inr ⟨?_, rfl⟩)⟩
      -- a channel that has nothing left is closed if there are no senders
      cases channel.live
      · exact .inr rfl
      · exact .inl rfl

end Broadcast
