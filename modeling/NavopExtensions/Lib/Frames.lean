import Mathlib.Data.List.Basic

/-!
# Items one after another

A reader takes one item from the front of its input, or fails. `parse` reads items until the reader fails,
and keeps the error that it has stopped at. Where an item that was written is read back, whatever comes after
it, so is a list of them (`parse_flatMap`). A loop that reads an item, deals with it and goes on sees just
the items that `parse` finds, so that it can be understood by recursion on these.
-/

namespace Frames

variable {α β ε : Type*}

/-- What reads an item, of at least one element. -/
structure Reader (β ε α : Type*) where
  read : List β → Except ε (α × List β)
  shorter : ∀ input item rest, read input = .ok (item, rest) → rest.length < input.length

variable (reader : Reader β ε α)

/-- The items of an input, and the error at its end. -/
def Reader.parse (input : List β) : List α × ε :=
  match _h : reader.read input with
  | .error error => ([], error)
  | .ok (item, rest) => (item :: (parse rest).1, (parse rest).2)
termination_by input.length
decreasing_by all_goals exact reader.shorter _ _ _ _h

variable {reader}

theorem Reader.parse_of_error {input : List β} {error : ε} (h : reader.read input = .error error) :
    reader.parse input = ([], error) := by
  rw [parse]
  split
  · next h' => cases h.symm.trans h'; rfl
  · next h' => cases h.symm.trans h'

theorem Reader.parse_of_ok {input rest : List β} {item : α} (h : reader.read input = .ok (item, rest)) :
    reader.parse input = (item :: (reader.parse rest).1, (reader.parse rest).2) := by
  rw [parse]
  split
  · next h' => cases h.symm.trans h'
  · next h' => cases h.symm.trans h'; rfl

/-- Items that were written are read back, up to what reading makes of them. -/
theorem Reader.parse_flatMap {γ : Type*} {write : γ → List β} {received : γ → α} {items : List γ}
    (h : ∀ item ∈ items, ∀ rest, reader.read (write item ++ rest) = .ok (received item, rest))
    (rest : List β) : reader.parse (items.flatMap write ++ rest)
      = (items.map received ++ (reader.parse rest).1, (reader.parse rest).2) := by
  induction items with
  | nil => rfl
  | cons item items ih =>
    have hfirst := h item List.mem_cons_self (items.flatMap write ++ rest)
    have hrest := ih fun other hother => h other (List.mem_cons_of_mem _ hother)
    rw [List.flatMap_cons, List.append_assoc, parse_of_ok hfirst, hrest]
    rfl

/-- **Reading by items.** Two functions of an input agree if they do the same with an error and with an
item, where they agree on the rest. -/
theorem Reader.parse_induction {motive : List β → Prop}
    (error : ∀ input error, reader.read input = .error error → motive input)
    (ok : ∀ input item rest, reader.read input = .ok (item, rest) → motive rest → motive input)
    (input : List β) : motive input := by
  induction hn : input.length using Nat.strongRecOn generalizing input with
  | _ n ih =>
    cases h : reader.read input with
    | error e => exact error input e h
    | ok result =>
      obtain ⟨item, rest⟩ := result
      exact ok input item rest h (ih _ (hn ▸ reader.shorter _ _ _ h) rest rfl)

end Frames
