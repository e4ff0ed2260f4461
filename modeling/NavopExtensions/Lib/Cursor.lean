import Mathlib

/-!
# Readers of binary layouts

A reader takes bytes from a cursor, or fails. `Reads` says that it reads one value from one chunk,
wherever the chunk stands: with the chunk before it, it returns the value and stops behind the chunk,
and with only a beginning of the chunk it fails. Chunks follow each other as readers do
(`Reads.bind`), so that the law of a layout is put together from those of its fields.

`Safe` says what a reader does on all bytes: it stays inside them, and fails only in some ways.
-/

namespace Binary

variable {β ε α γ : Type}

/-- Bytes, and the position of the next one. -/
structure Cursor (β : Type) where
  bytes : List β
  pos : ℕ

/-- What reads from a cursor. -/
abbrev Reader (β ε α : Type) := StateT (Cursor β) (Except ε) α

/-- The value is read from the chunk, and from nothing less; `err` are the ways to fail. -/
structure Reads (err : ε → Prop) (read : Reader β ε α) (chunk : List β) (a : α) : Prop where
  complete : ∀ before rest, read ⟨before ++ (chunk ++ rest), before.length⟩
    = .ok (a, ⟨before ++ (chunk ++ rest), before.length + chunk.length⟩)
  truncated : ∀ before cut, cut <+: chunk → cut ≠ chunk →
    ∃ e, err e ∧ read ⟨before ++ cut, before.length⟩ = .error e

/-- The reader stays inside the bytes and leaves them as they are; what it reads has a property, and
`err` are the ways to fail. -/
def Safe (err : ε → Prop) (read : Reader β ε α) (post : α → Prop) : Prop :=
  ∀ cursor : Cursor β, cursor.pos ≤ cursor.bytes.length →
    (∃ a cursor', read cursor = .ok (a, cursor') ∧ post a ∧ cursor'.bytes = cursor.bytes
      ∧ cursor'.pos ≤ cursor'.bytes.length) ∨ ∃ e, err e ∧ read cursor = .error e

section Reads

variable {err : ε → Prop} {read : Reader β ε α} {next : α → Reader β ε γ} {chunk more : List β}
  {a : α} {b : γ}

theorem Reads.pure (a : α) : Reads err (pure a : Reader β ε α) [] a where
  complete _ _ := rfl
  truncated _ _ hcut hne := absurd (List.prefix_nil.1 hcut) hne

/-- A computation that reads nothing. -/
theorem Reads.lift {x : Except ε α} (h : x = .ok a) :
    Reads err (liftM x : Reader β ε α) [] a := by
  subst h
  exact .pure a

/-- **One chunk after another.** -/
theorem Reads.bind (h : Reads err read chunk a) (h' : Reads err (next a) more b) :
    Reads err (read >>= next) (chunk ++ more) b where
  complete before rest := by
    have hfirst := h.complete before (more ++ rest)
    have hsecond := h'.complete (before ++ chunk) rest
    simp only [List.append_assoc, List.length_append] at hfirst hsecond ⊢
    change (read _ >>= fun p => next p.1 p.2) = _
    rw [hfirst]
    exact hsecond.trans (by rw [Nat.add_assoc])
  truncated before cut hcut hne := by
    change ∃ e, err e ∧ (read _ >>= fun p => next p.1 p.2) = _
    by_cases hwhole : chunk <+: cut
    · -- The first chunk is there.
      obtain ⟨cut, rfl⟩ := hwhole
      have hcut' : cut <+: more := (List.prefix_append_right_inj chunk).1 hcut
      obtain ⟨e, he, herror⟩ := h'.truncated (before ++ chunk) cut hcut' fun heq => hne (by rw [heq])
      refine ⟨e, he, ?_⟩
      rw [h.complete before cut]
      rw [List.append_assoc, List.length_append] at herror
      exact herror
    · have hshort : cut <+: chunk := by
        rcases List.prefix_or_prefix_of_prefix hcut (List.prefix_append chunk more) with h | h
        · exact h
        · exact absurd h hwhole
      obtain ⟨e, he, herror⟩ := h.truncated before cut hshort fun heq => hwhole (heq ▸ List.prefix_refl _)
      exact ⟨e, he, by rw [herror]; rfl⟩

/-- What is computed from a chunk. -/
theorem Reads.bind_lift {f : α → Except ε γ} (h : Reads err read chunk a) (hf : f a = .ok b) :
    Reads err (read >>= fun a => (liftM (f a) : Reader β ε γ)) chunk b := by
  have hlift : Reads err (read >>= fun a => (liftM (f a) : Reader β ε γ)) (chunk ++ []) b :=
    h.bind (Reads.lift hf)
  rwa [List.append_nil] at hlift

end Reads

section Safe

variable {err : ε → Prop} {read : Reader β ε α} {next : α → Reader β ε γ} {post : α → Prop}
  {post' : γ → Prop}

theorem Safe.pure {a : α} (h : post a) : Safe err (pure a : Reader β ε α) post :=
  fun cursor hpos => .inl ⟨a, cursor, rfl, h, rfl, hpos⟩

theorem Safe.bind (h : Safe err read post) (h' : ∀ a, post a → Safe err (next a) post') :
    Safe err (read >>= next) post' := by
  intro cursor hpos
  change (∃ b cursor', (read cursor >>= fun p => next p.1 p.2) = .ok (b, cursor') ∧ _) ∨
    ∃ e, err e ∧ (read cursor >>= fun p => next p.1 p.2) = .error e
  rcases h cursor hpos with ⟨a, cursor', hread, hpost, hbytes, hpos'⟩ | ⟨e, he, hread⟩
  · rw [hread]
    rcases h' a hpost cursor' hpos' with ⟨b, cursor'', hnext, hpost', hbytes', hpos''⟩ | herror
    · exact .inl ⟨b, cursor'', hnext, hpost', hbytes'.trans hbytes, hpos''⟩
    · exact .inr herror
  · exact .inr ⟨e, he, by rw [hread]; rfl⟩

theorem Safe.lift {x : Except ε α} (h : (∃ a, x = .ok a ∧ post a) ∨ ∃ e, err e ∧ x = .error e) :
    Safe err (liftM x : Reader β ε α) post := by
  intro cursor hpos
  rcases h with ⟨a, rfl, hpost⟩ | ⟨e, he, rfl⟩
  · exact .inl ⟨a, cursor, rfl, hpost, rfl, hpos⟩
  · exact .inr ⟨e, he, rfl⟩

theorem Safe.mono {post'' : α → Prop} (h : Safe err read post) (himp : ∀ a, post a → post'' a) :
    Safe err read post'' := by
  intro cursor hpos
  rcases h cursor hpos with ⟨a, cursor', hread, hpost, hrest⟩ | herror
  · exact .inl ⟨a, cursor', hread, himp a hpost, hrest⟩
  · exact .inr herror

end Safe

end Binary
