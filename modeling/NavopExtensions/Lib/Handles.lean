import Mathlib

/-!
# Handles that are read piece by piece

A table keeps contents under keys, and of each of them how much has been read. What happens to it is
written to a log of events. A log is `Delivered` if no reading in it fails, the pieces under a key make up
a beginning of the content that the key was last opened with, and a reading says that it was the last one
exactly if nothing is left.

The table and its log agree by `Books`, which every event keeps (`Books.opened`, `Books.advanced`,
`Books.failed`, `Books.mono`); that a reading is a good one follows from it (`Books.good`).
-/

namespace Handles

variable {κ α : Type*}

/-- A content, and how much of it has been read. -/
structure Reader (α : Type*) where
  content : List α
  offset : ℕ

/-- The content between two places. -/
def Reader.piece (reader : Reader α) (stop : ℕ) : List α :=
  (reader.content.take stop).drop reader.offset

/-- What happens to the handles of a table. -/
inductive Event (κ α : Type*)
  | opened (key : κ) (content : List α)
  | read (key : κ) (piece : List α) (done : Bool)
  | failed (key : κ)
  deriving DecidableEq

variable [DecidableEq κ]

/-- What is known of a key after an event: its content, and what has been read of it. -/
def Event.next (key : κ) (known : Option (List α) × List α) :
    Event κ α → Option (List α) × List α
  | .opened k content => if k = key then (some content, []) else known
  | .read k piece _ => if k = key then (known.1, known.2 ++ piece) else known
  | .failed _ => known

/-- What is known of a key after a log. -/
def known (key : κ) (log : List (Event κ α)) : Option (List α) × List α :=
  log.foldl (Event.next key) (none, [])

/-- An event is as it should be, after a log: a reading goes on where the last one has ended, and says
that it is done if nothing is left. -/
def Event.Good (log : List (Event κ α)) : Event κ α → Prop
  | .opened _ _ => True
  | .read key piece done => ∃ content, (known key log).1 = some content ∧
      (known key log).2 ++ piece <+: content ∧ (done = true ↔ (known key log).2 ++ piece = content)
  | .failed _ => False

/-- All events of a log are as they should be. -/
def Delivered (log : List (Event κ α)) : Prop :=
  ∀ before event after, log = before ++ event :: after → event.Good before

/-- A table agrees with a log. -/
def Books (table : κ → Option (Reader α)) (log : List (Event κ α)) : Prop :=
  ∀ key reader, table key = some reader →
    known key log = (some reader.content, reader.content.take reader.offset)

variable {table table' : κ → Option (Reader α)} {log : List (Event κ α)} {key : κ}
  {reader : Reader α}

theorem known_concat (key : κ) (log : List (Event κ α)) (event : Event κ α) :
    known key (log ++ [event]) = event.next key (known key log) := by
  rw [known, List.foldl_concat, known]

theorem delivered_nil : Delivered ([] : List (Event κ α)) := by
  intro before event after h
  exact absurd h (by simp)

/-- A property of everything in a list, which depends on what comes before it. -/
theorem forall_split_concat {β : Type*} {P : List β → β → Prop} {l : List β} {x : β} :
    (∀ before y after, l ++ [x] = before ++ y :: after → P before y) ↔
      (∀ before y after, l = before ++ y :: after → P before y) ∧ P l x := by
  constructor
  · intro h
    refine ⟨fun before y after hl => ?_, h l x [] rfl⟩
    exact h before y (after ++ [x]) (by rw [hl, List.append_assoc, List.cons_append])
  · rintro ⟨hl, hx⟩ before y after heq
    rcases List.eq_nil_or_concat' after with rfl | ⟨after, last, rfl⟩
    · obtain ⟨rfl, hlast⟩ := List.append_inj' heq rfl
      obtain rfl := (List.cons.inj hlast).1
      exact hx
    · rw [← List.cons_append, ← List.append_assoc] at heq
      exact hl before y after (List.append_inj' heq rfl).1

theorem delivered_concat {event : Event κ α} :
    Delivered (log ++ [event]) ↔ Delivered log ∧ event.Good log := forall_split_concat

/-- What is read between two places is what lies between the beginnings up to them. -/
theorem Reader.take_append_piece {stop : ℕ} (hstop : reader.offset ≤ stop) :
    reader.content.take reader.offset ++ reader.piece stop = reader.content.take stop := by
  have htake : (reader.content.take stop).take reader.offset = reader.content.take reader.offset := by
    rw [List.take_take, min_eq_left hstop]
  rw [← htake, piece, List.take_append_drop]

/-! ### Books -/

/-- Handles that are taken away do not matter. -/
theorem Books.mono (h : Books table log)
    (hsub : ∀ key reader, table' key = some reader → table key = some reader) : Books table' log :=
  fun key reader hkey => h key reader (hsub key reader hkey)

theorem Books.opened (h : Books table log) {content : List α}
    (hkey : table' key = some ⟨content, 0⟩) (hother : ∀ k ≠ key, table' k = table k) :
    Books table' (log ++ [.opened key content]) := by
  intro k reader hk
  rw [known_concat]
  by_cases heq : key = k
  · subst heq
    obtain rfl := Option.some.inj (hk.symm.trans hkey)
    rw [Event.next, if_pos rfl, List.take_zero]
  · rw [Event.next, if_neg heq]
    exact h k reader ((hother k (Ne.symm heq)).symm.trans hk)

/-- A reading goes on. -/
theorem Books.advanced (h : Books table log) (hbefore : table key = some reader) {stop : ℕ}
    (hstop : reader.offset ≤ stop) (done : Bool)
    (hafter : ∀ reader', table' key = some reader' → reader' = ⟨reader.content, stop⟩)
    (hother : ∀ k ≠ key, table' k = table k) :
    Books table' (log ++ [.read key (reader.piece stop) done]) := by
  intro k reader' hk
  rw [known_concat]
  by_cases heq : key = k
  · subst heq
    rw [Event.next, if_pos rfl, h key reader hbefore, hafter reader' hk,
      Reader.take_append_piece hstop]
  · rw [Event.next, if_neg heq]
    exact h k reader' ((hother k (Ne.symm heq)).symm.trans hk)

theorem Books.failed (h : Books table log) (key : κ) : Books table (log ++ [.failed key]) := by
  intro k reader hk
  rw [known_concat]
  exact h k reader hk

/-- **Good readings**: where the books are right, a reading is as it should be. -/
theorem Books.good (h : Books table log) (hkey : table key = some reader) {stop : ℕ}
    (hstop : reader.offset ≤ stop) (hend : stop ≤ reader.content.length) {done : Bool}
    (hdone : done = true ↔ stop = reader.content.length) :
    (Event.read key (reader.piece stop) done).Good log := by
  refine ⟨reader.content, by rw [h key reader hkey], ?_, ?_⟩
  · rw [h key reader hkey, Reader.take_append_piece hstop]
    exact List.take_prefix _ _
  · rw [h key reader hkey, Reader.take_append_piece hstop, hdone, List.take_eq_self_iff]
    omega

end Handles
