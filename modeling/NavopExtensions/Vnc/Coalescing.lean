import NavopExtensions.Lib.Skipping
import NavopExtensions.Vnc.Input

/-!
# Coalescing inputs

`coalesce_remote_inputs` holds a move back until the next input that is not a move, and drops it when
another move comes first. The list it makes is the original one without moves that are followed by a
move, so that the pointer is where it was at every other input (`coalesce_invisible`). Handling an
input moves the pointer as `replayed` says (`pointer_handleVncInput`).
-/

namespace Navop
namespace Vnc

open Skipping

/-- The input is a move. -/
def RemoteDesktopInput.IsMove : RemoteDesktopInput → Prop
  | .mouseMove .. => True
  | _ => False

instance : DecidablePred RemoteDesktopInput.IsMove := fun input => by
  cases input <;> unfold RemoteDesktopInput.IsMove <;> infer_instance

/-- What an input does to the pointer. -/
def VncPointerState.replayed (pointer : VncPointerState) : RemoteDesktopInput → VncPointerState
  | .mouseMove x y => pointer.moveTo x y
  | .mouseButton button pressed => pointer.setButton button pressed
  | _ => pointer

/-- Of two moves in a row, only the second one matters. -/
theorem replayed_replayed (pointer : VncPointerState) (first second : RemoteDesktopInput)
    (hfirst : first.IsMove) (hsecond : second.IsMove) :
    (pointer.replayed first).replayed second = pointer.replayed second := by
  cases first with
  | mouseMove x y =>
    cases second with
    | mouseMove x' y' => rfl
    | _ => exact absurd hsecond id
  | _ => exact absurd hfirst id

/-! ### What is dropped -/

theorem coalesceInputs_move {pending : Option RemoteDesktopInput} {input : RemoteDesktopInput}
    (h : input.IsMove) (inputs : List RemoteDesktopInput) :
    coalesceInputs pending (input :: inputs) = coalesceInputs (some input) inputs := by
  cases input with
  | mouseMove x y => rfl
  | _ => exact absurd h id

theorem coalesceInputs_action {pending : Option RemoteDesktopInput} {input : RemoteDesktopInput}
    (h : ¬ input.IsMove) (inputs : List RemoteDesktopInput) :
    coalesceInputs pending (input :: inputs)
      = pending.toList ++ input :: coalesceInputs none inputs := by
  cases input with
  | mouseMove x y => exact absurd trivial h
  | _ => rfl

/-- From a move that is held back on. -/
theorem skips_coalesceInputs {pending : Option RemoteDesktopInput}
    (hpending : ∀ input ∈ pending, input.IsMove) (inputs : List RemoteDesktopInput) :
    Skips RemoteDesktopInput.IsMove (pending.toList ++ inputs) (coalesceInputs pending inputs) := by
  induction inputs generalizing pending with
  | nil =>
    rw [List.append_nil]
    exact .refl _
  | cons input inputs ih =>
    by_cases hinput : input.IsMove
    · have hrest := @ih (some input) fun _ heq => (Option.some.inj heq) ▸ hinput
      rw [coalesceInputs_move hinput]
      cases pending with
      | none => exact hrest
      | some first => exact .skip (hpending first rfl) hinput hrest
    · rw [coalesceInputs_action hinput]
      have hrest := @ih none fun _ hnone => absurd hnone (by simp)
      exact (Skips.refl pending.toList).append (.keep hrest)

/-- Coalescing only drops moves that are followed by a move. -/
theorem skips_coalesce (inputs : List RemoteDesktopInput) :
    Skips RemoteDesktopInput.IsMove inputs (coalesceRemoteInputs inputs) :=
  @skips_coalesceInputs none (fun _ hnone => absurd hnone (by simp)) inputs

/-- Such moves make no difference to what coalescing leaves. -/
theorem coalesceInputs_of_skips {inputs inputs' : List RemoteDesktopInput}
    (h : Skips RemoteDesktopInput.IsMove inputs inputs') (pending : Option RemoteDesktopInput) :
    coalesceInputs pending inputs' = coalesceInputs pending inputs := by
  induction h generalizing pending with
  | nil => rfl
  | @keep input _ _ _ ih =>
    by_cases hinput : input.IsMove
    · rw [coalesceInputs_move hinput, coalesceInputs_move hinput, ih]
    · rw [coalesceInputs_action hinput, coalesceInputs_action hinput, ih]
  | skip hfirst hsecond _ ih =>
    rw [ih, coalesceInputs_move hsecond, coalesceInputs_move hfirst, coalesceInputs_move hsecond]

/-- Coalescing all inputs drops moves of what coalescing batch by batch leaves. -/
theorem skips_batches (batches : List (List RemoteDesktopInput)) :
    Skips RemoteDesktopInput.IsMove (batches.flatMap coalesceRemoteInputs)
      (coalesceRemoteInputs batches.flatten) := by
  have hbatches := Skips.flatMap skips_coalesce batches
  have hsame : coalesceRemoteInputs (batches.flatMap coalesceRemoteInputs)
      = coalesceRemoteInputs batches.flatten := coalesceInputs_of_skips hbatches none
  rw [← hsame]
  exact skips_coalesce _

/-! ### What is seen -/

/-- The inputs that are not moves. -/
def actions (inputs : List RemoteDesktopInput) : List RemoteDesktopInput :=
  inputs.filter fun input => !decide input.IsMove

/-- Two lists of inputs that differ in moves only: the same other inputs find the pointer in the same
states, and it ends in the same. -/
structure SeenAlike (inputs inputs' : List RemoteDesktopInput) : Prop where
  sublist : inputs'.Sublist inputs
  actions : actions inputs' = actions inputs
  observed : ∀ pointer, observed VncPointerState.replayed RemoteDesktopInput.IsMove pointer inputs'
    = observed VncPointerState.replayed RemoteDesktopInput.IsMove pointer inputs
  pointer : ∀ pointer, replay VncPointerState.replayed pointer inputs'
    = replay VncPointerState.replayed pointer inputs

theorem seenAlike_of_skips {inputs inputs' : List RemoteDesktopInput}
    (h : Skips RemoteDesktopInput.IsMove inputs inputs') : SeenAlike inputs inputs' where
  sublist := h.sublist
  actions := h.filter_eq
  observed := h.observed_eq replayed_replayed
  pointer := h.replay_eq replayed_replayed

/-- **Coalescing is invisible** but for moves: in one list of inputs, and between coalescing batch by
batch and all at once. -/
theorem coalesce_invisible (inputs : List RemoteDesktopInput)
    (batches : List (List RemoteDesktopInput)) :
    SeenAlike inputs (coalesceRemoteInputs inputs) ∧
      SeenAlike (batches.flatMap coalesceRemoteInputs) (coalesceRemoteInputs batches.flatten) :=
  ⟨seenAlike_of_skips (skips_coalesce inputs), seenAlike_of_skips (skips_batches batches)⟩

/-! ### Handling an input -/

variable {state state' : InputState} {action : VncInputAction}

theorem pointer_sendPointer {next : VncPointerState}
    (h : state.sendPointer next = (.ok action, state')) : state'.pointer = next := by
  unfold InputState.sendPointer at h
  split at h
  · obtain ⟨-, rfl⟩ := Prod.mk.inj h
    rfl
  · cases h

theorem pointer_sendWheelEvents {masks : List UInt8}
    (h : state.sendWheelEvents masks = (.ok action, state')) : state'.pointer = state.pointer := by
  induction masks generalizing state with
  | nil =>
    obtain ⟨-, rfl⟩ := Prod.mk.inj h
    rfl
  | cons mask masks ih =>
    unfold InputState.sendWheelEvents at h
    split at h
    · exact (ih h).trans rfl
    · cases h

theorem pointer_sendKey {keysym : UInt32} {pressed : Bool}
    (h : state.sendKey keysym pressed = (.ok action, state')) : state'.pointer = state.pointer := by
  unfold InputState.sendKey at h
  split at h <;> obtain ⟨-, rfl⟩ := Prod.mk.inj h <;> rfl

theorem pointer_sendClipboardText {text : String}
    (h : state.sendClipboardText text = (.ok action, state')) : state'.pointer = state.pointer := by
  unfold InputState.sendClipboardText at h
  split at h
  · obtain ⟨-, rfl⟩ := Prod.mk.inj h
    rfl
  · split at h <;> obtain ⟨-, rfl⟩ := Prod.mk.inj h <;> rfl

/-- An input that is handled moves the pointer as replaying it does. -/
theorem pointer_handleVncInput {input : RemoteDesktopInput}
    (h : state.handleVncInput input = (.continues, state')) :
    state'.pointer = state.pointer.replayed input := by
  -- the session goes on, so that sending did not fail
  have hsent : state.sendVncInput input = (.ok .continues, state') := by
    unfold InputState.handleVncInput at h
    split at h
    · next action after hsent =>
      obtain ⟨rfl, rfl⟩ := Prod.mk.inj h
      exact hsent
    · cases (Prod.mk.inj h).1
  cases input with
  | mouseMove x y => exact pointer_sendPointer hsent
  | mouseButton button pressed => exact pointer_sendPointer hsent
  | wheel vertical units => exact pointer_sendWheelEvents hsent
  | key key pressed =>
    unfold InputState.sendVncInput at hsent
    dsimp only at hsent
    split at hsent
    · exact pointer_sendKey hsent
    · obtain ⟨-, rfl⟩ := Prod.mk.inj hsent
      rfl
  | text text => exact pointer_sendClipboardText hsent
  | clipboardText text => exact pointer_sendClipboardText hsent
  | reconnect => cases (Prod.mk.inj hsent).1
  | close => cases (Prod.mk.inj hsent).1
  | clipboardFiles paths =>
    obtain ⟨-, rfl⟩ := Prod.mk.inj hsent
    rfl
  | resize width height =>
    obtain ⟨-, rfl⟩ := Prod.mk.inj hsent
    rfl

/-- Inputs that are all handled leave the pointer where replaying them does. -/
theorem pointer_handleInputs {inputs : List RemoteDesktopInput}
    (h : state.handleInputs inputs = (.continues, state')) :
    state'.pointer = replay VncPointerState.replayed state.pointer inputs := by
  induction inputs generalizing state with
  | nil =>
    obtain ⟨-, rfl⟩ := Prod.mk.inj h
    rfl
  | cons input inputs ih =>
    unfold InputState.handleInputs at h
    split at h
    · next after hafter =>
      rw [ih h, pointer_handleVncInput hafter]
      rfl
    · next action after hcontinues hafter =>
      obtain ⟨rfl, rfl⟩ := Prod.mk.inj h
      exact absurd rfl hcontinues

end Vnc
end Navop
