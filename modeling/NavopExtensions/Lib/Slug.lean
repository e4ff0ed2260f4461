import Mathlib

/-!
# Slugs

A slug keeps the letters and the digits of a text and puts one hyphen for what stands between them. It
says which words a text consists of, and nothing else: two texts have the same slug if and only if they
have the same words (`slug_eq_iff`).

What a letter or a digit is is a parameter; a hyphen is none.
-/

namespace Slug

variable (isKept : Char → Bool)

/-- Characters are added to a slug, of which the last one may be a hyphen. -/
def extend (out : List Char) (lastDash : Bool) : List Char → List Char
  | [] => out
  | c :: cs =>
    if isKept c then extend (out ++ [c]) false cs
    else if !lastDash && !out.isEmpty then extend (out ++ ['-']) true cs
    else extend out lastDash cs

/-- The slug of a text, or a word for texts that have no slug. -/
def slug (fallback text : List Char) : List Char :=
  let out := (extend isKept [] false text).rdropWhile (· = '-')
  if out.isEmpty then fallback else out

/-- The longest pieces of a text that are kept. -/
def words (text : List Char) : List (List Char) :=
  (text.splitOnP fun c => !isKept c).filter (!·.isEmpty)

/-- The words of a text, or the one word for texts without words. -/
def wordsOr (fallback text : List Char) : List (List Char) :=
  if words isKept text = [] then [fallback] else words isKept text

/-- Words with hyphens between them. -/
def joined (ws : List (List Char)) : List Char := ['-'].intercalate ws

/-! ### Words -/

/-- The words of a text behind a piece of the first one. -/
def wordsFrom (word text : List Char) : List (List Char) :=
  ((text.splitOnP fun c => !isKept c).modifyHead (word ++ ·)).filter (!·.isEmpty)

variable {isKept}

theorem wordsFrom_nil_left (text : List Char) : wordsFrom isKept [] text = words isKept text := by
  unfold wordsFrom words
  have hid : (([] : List Char) ++ ·) = (id : List Char → List Char) := rfl
  rw [hid, List.modifyHead_id]
  rfl

theorem wordsFrom_nil (word : List Char) :
    wordsFrom isKept word [] = if word.isEmpty then [] else [word] := by
  unfold wordsFrom
  rw [List.splitOnP_nil]
  change [word ++ []].filter _ = _
  rw [List.append_nil]
  cases word <;> rfl

theorem wordsFrom_cons_kept (word : List Char) {c : Char} (hc : isKept c = true) (cs : List Char) :
    wordsFrom isKept word (c :: cs) = wordsFrom isKept (word ++ [c]) cs := by
  unfold wordsFrom
  rw [List.splitOnP_cons_eq_if_modifyHead, hc]
  change ((((cs.splitOnP fun c => !isKept c).modifyHead (List.cons c)).modifyHead (word ++ ·)).filter
    _) = _
  rw [List.modifyHead_modifyHead]
  congr 2
  funext piece
  exact List.append_cons word c piece

theorem wordsFrom_cons_skipped (word : List Char) {c : Char} (hc : isKept c = false)
    (cs : List Char) :
    wordsFrom isKept word (c :: cs) = (if word.isEmpty then [] else [word]) ++ words isKept cs := by
  unfold wordsFrom words
  rw [List.splitOnP_cons_eq_if_modifyHead, hc]
  change ((word ++ []) :: cs.splitOnP fun c => !isKept c).filter _ = _
  rw [List.append_nil]
  cases word <;> rfl

theorem words_cons_kept {c : Char} (hc : isKept c = true) (cs : List Char) :
    words isKept (c :: cs) = wordsFrom isKept [c] cs := by
  rw [← wordsFrom_nil_left, wordsFrom_cons_kept [] hc, List.nil_append]

theorem words_cons_skipped {c : Char} (hc : isKept c = false) (cs : List Char) :
    words isKept (c :: cs) = words isKept cs := by
  rw [← wordsFrom_nil_left, wordsFrom_cons_skipped [] hc]
  rfl

/-- A kept piece belongs to the word that is read. -/
theorem wordsFrom_append (word : List Char) {piece : List Char}
    (hpiece : ∀ c ∈ piece, isKept c = true) (rest : List Char) :
    wordsFrom isKept word (piece ++ rest) = wordsFrom isKept (word ++ piece) rest := by
  induction piece generalizing word with
  | nil => rw [List.nil_append, List.append_nil]
  | cons c cs ih =>
    obtain ⟨hc, hcs⟩ := List.forall_mem_cons.mp hpiece
    rw [List.cons_append, wordsFrom_cons_kept word hc, ih (word ++ [c]) hcs, List.append_assoc]
    rfl

/-- Between words anything that is skipped stands. -/
theorem words_append {gap : List Char} (hgap : ∀ c ∈ gap, isKept c = false) (rest : List Char) :
    words isKept (gap ++ rest) = words isKept rest := by
  induction gap with
  | nil => rfl
  | cons c cs ih =>
    obtain ⟨hc, hcs⟩ := List.forall_mem_cons.mp hgap
    rw [List.cons_append, words_cons_skipped hc, ih hcs]

/-- A word ends before something that is skipped. -/
theorem wordsFrom_gap {word gap : List Char} (hword : word ≠ []) (hne : gap ≠ [])
    (hgap : ∀ c ∈ gap, isKept c = false) (rest : List Char) :
    wordsFrom isKept word (gap ++ rest) = word :: words isKept rest := by
  obtain ⟨c, cs, rfl⟩ := List.exists_cons_of_ne_nil hne
  obtain ⟨hc, hcs⟩ := List.forall_mem_cons.mp hgap
  rw [List.cons_append, wordsFrom_cons_skipped word hc, words_append hcs,
    if_neg (by rwa [List.isEmpty_iff])]
  rfl

/-- A word: it is not empty, and has kept characters only. -/
def IsWord (isKept : Char → Bool) (word : List Char) : Prop :=
  word ≠ [] ∧ ∀ c ∈ word, isKept c = true

theorem isWord_of_mem_wordsFrom {word text : List Char} (hword : ∀ c ∈ word, isKept c = true) :
    ∀ w ∈ wordsFrom isKept word text, IsWord isKept w := by
  induction text generalizing word with
  | nil =>
    intro w hw
    rw [wordsFrom_nil] at hw
    cases word with
    | nil => exact absurd hw List.not_mem_nil
    | cons c cs =>
      rw [List.mem_singleton.mp hw]
      exact ⟨List.cons_ne_nil c cs, hword⟩
  | cons c cs ih =>
    intro w hw
    cases hc : isKept c with
    | true =>
      rw [wordsFrom_cons_kept word hc] at hw
      refine @ih (word ++ [c]) (fun d hd => ?_) w hw
      rcases List.mem_append.mp hd with hd | hd
      · exact hword d hd
      · rw [List.mem_singleton.mp hd]
        exact hc
    | false =>
      -- the word that ends here, and those found behind it
      rw [wordsFrom_cons_skipped word hc, ← wordsFrom_nil_left] at hw
      rcases List.mem_append.mp hw with hw | hw
      · cases word with
        | nil => exact absurd hw List.not_mem_nil
        | cons d ds =>
          rw [List.mem_singleton.mp hw]
          exact ⟨List.cons_ne_nil d ds, hword⟩
      · exact @ih [] (fun d hd => absurd hd List.not_mem_nil) w hw

theorem isWord_of_mem_words {text : List Char} : ∀ w ∈ words isKept text, IsWord isKept w := by
  rw [← wordsFrom_nil_left]
  exact isWord_of_mem_wordsFrom fun c hc => absurd hc List.not_mem_nil

/-! ### Hyphens -/

theorem joined_concat {ws : List (List Char)} (hws : ws ≠ []) (w : List Char) :
    joined (ws ++ [w]) = joined ws ++ '-' :: w := by
  induction ws with
  | nil => exact absurd rfl hws
  | cons v vs ih =>
    cases vs with
    | nil =>
      unfold joined
      rw [List.singleton_append, List.intercalate_cons_cons, List.intercalate_singleton,
        List.intercalate_singleton, List.append_assoc, List.singleton_append]
    | cons u us =>
      unfold joined at ih ⊢
      rw [List.cons_append, List.cons_append, List.intercalate_cons_cons,
        List.intercalate_cons_cons, ← List.cons_append, ih (List.cons_ne_nil u us),
        List.append_assoc, List.append_assoc, List.append_assoc]

/-- The last word of a slug grows. -/
theorem joined_concat_append (ws : List (List Char)) (w tail : List Char) :
    joined (ws ++ [w]) ++ tail = joined (ws ++ [w ++ tail]) := by
  by_cases hws : ws = []
  · subst hws
    unfold joined
    rw [List.nil_append, List.nil_append, List.intercalate_singleton, List.intercalate_singleton]
  · rw [joined_concat hws, joined_concat hws, List.append_assoc]
    rfl

theorem joined_eq_nil_iff {ws : List (List Char)} (hws : ∀ w ∈ ws, IsWord isKept w) :
    joined ws = [] ↔ ws = [] := by
  constructor
  · intro h
    obtain rfl | ⟨init, last, rfl⟩ := List.eq_nil_or_concat ws
    · rfl
    · rw [List.concat_eq_append] at hws h
      obtain ⟨hne, -⟩ := hws last (List.mem_append_right _ List.mem_cons_self)
      have hlast := joined_concat_append init [] last
      rw [List.nil_append, h] at hlast
      exact absurd (List.append_eq_nil_iff.mp hlast).2 hne
  · rintro rfl
    rfl

section Joined

variable (hdash : isKept '-' = false)
include hdash

/-- The last character of words is no hyphen. -/
theorem rdropWhile_joined {ws : List (List Char)} (hws : ∀ w ∈ ws, IsWord isKept w) :
    (joined ws).rdropWhile (· = '-') = joined ws := by
  obtain rfl | ⟨init, last, rfl⟩ := List.eq_nil_or_concat ws
  · rfl
  · rw [List.concat_eq_append] at hws ⊢
    obtain ⟨hne, hkept⟩ := hws last (List.mem_append_right _ List.mem_cons_self)
    obtain rfl | ⟨cs, c, rfl⟩ := List.eq_nil_or_concat last
    · exact absurd rfl hne
    · rw [List.concat_eq_append] at hkept ⊢
      have hc : c ≠ '-' := by
        rintro rfl
        have hkeptDash := hkept '-' (List.mem_append_right _ List.mem_cons_self)
        rw [hdash] at hkeptDash
        cases hkeptDash
      rw [← joined_concat_append]
      exact List.rdropWhile_concat_neg _ _ _ (by simpa using hc)

/-- Behind words, a slug goes on with the words of the text that is left. -/
theorem extend_words (cs : List Char) :
    (∀ ws word, (∀ w ∈ ws ++ [word], IsWord isKept w) →
      (extend isKept (joined (ws ++ [word])) false cs).rdropWhile (· = '-')
        = joined (ws ++ wordsFrom isKept word cs)) ∧
    (∀ ws, ws ≠ [] → (∀ w ∈ ws, IsWord isKept w) →
      (extend isKept (joined ws ++ ['-']) true cs).rdropWhile (· = '-')
        = joined (ws ++ words isKept cs)) := by
  induction cs with
  | nil =>
    constructor
    · intro ws word hws
      obtain ⟨hne, -⟩ := hws word (List.mem_append_right _ List.mem_cons_self)
      rw [wordsFrom_nil, if_neg (by rwa [List.isEmpty_iff])]
      exact rdropWhile_joined hdash hws
    · intro ws _ hws
      change (joined ws ++ ['-']).rdropWhile _ = joined (ws ++ [])
      rw [List.rdropWhile_concat_pos _ _ _ (by decide), List.append_nil]
      exact rdropWhile_joined hdash hws
  | cons c cs ih =>
    obtain ⟨hword, hgap⟩ := ih
    -- inside a word a skipped character ends it, and between two words it adds nothing
    constructor
    · intro ws word hws
      unfold extend
      cases hc : isKept c with
      | true =>
        rw [if_pos rfl, joined_concat_append, wordsFrom_cons_kept word hc]
        refine hword ws (word ++ [c]) fun w hw => ?_
        rcases List.mem_append.mp hw with hw | hw
        · exact hws w (List.mem_append_left _ hw)
        · obtain ⟨-, hkept⟩ := hws word (List.mem_append_right _ List.mem_cons_self)
          rw [List.mem_singleton.mp hw]
          refine ⟨List.append_ne_nil_of_right_ne_nil _ (List.cons_ne_nil c []), fun d hd => ?_⟩
          rcases List.mem_append.mp hd with hd | hd
          · exact hkept d hd
          · rw [List.mem_singleton.mp hd]
            exact hc
      | false =>
        obtain ⟨hne, -⟩ := hws word (List.mem_append_right _ List.mem_cons_self)
        -- a dash is written only behind something
        have hout : (joined (ws ++ [word])).isEmpty = false := by
          have hlast : joined (ws ++ [[] ++ word]) = joined (ws ++ [[]]) ++ word :=
            (joined_concat_append ws [] word).symm
          rw [List.nil_append] at hlast
          rw [hlast]
          exact List.isEmpty_eq_false_iff.mpr (List.append_ne_nil_of_right_ne_nil _ hne)
        rw [if_neg Bool.false_ne_true, hout, if_pos (by decide), wordsFrom_cons_skipped word hc,
          if_neg (by rwa [List.isEmpty_iff]), ← List.append_assoc]
        exact hgap (ws ++ [word]) (List.append_ne_nil_of_right_ne_nil _ (List.cons_ne_nil word [])) hws
    · intro ws hne hws
      unfold extend
      cases hc : isKept c with
      | true =>
        rw [if_pos rfl, words_cons_kept hc, List.append_assoc]
        have hjoined : joined ws ++ (['-'] ++ [c]) = joined (ws ++ [[c]]) := (joined_concat hne [c]).symm
        rw [hjoined]
        refine hword ws [c] fun w hw => ?_
        rcases List.mem_append.mp hw with hw | hw
        · exact hws w hw
        · rw [List.mem_singleton.mp hw]
          refine ⟨List.cons_ne_nil c [], fun d hd => ?_⟩
          rw [List.mem_singleton.mp hd]
          exact hc
      | false =>
        rw [if_neg Bool.false_ne_true, words_cons_skipped hc]
        exact hgap ws hne hws

/-- A slug is the words of its text with hyphens between them. -/
theorem rdropWhile_extend (text : List Char) :
    (extend isKept [] false text).rdropWhile (· = '-') = joined (words isKept text) := by
  induction text with
  | nil => rfl
  | cons c cs ih =>
    unfold extend
    cases hc : isKept c with
    | true =>
      rw [if_pos rfl, words_cons_kept hc]
      refine (extend_words hdash cs).1 [] [c] fun w hw => ?_
      rw [List.nil_append, List.mem_singleton] at hw
      rw [hw]
      refine ⟨List.cons_ne_nil c [], fun d hd => ?_⟩
      rw [List.mem_singleton.mp hd]
      exact hc
    | false =>
      rw [if_neg Bool.false_ne_true, words_cons_skipped hc]
      exact ih

theorem slug_eq_joined (fallback text : List Char) :
    slug isKept fallback text = joined (wordsOr isKept fallback text) := by
  unfold slug wordsOr
  dsimp only
  rw [rdropWhile_extend hdash]
  by_cases hwords : words isKept text = []
  · rw [hwords]
    exact (List.append_nil fallback).symm
  · have hne : joined (words isKept text) ≠ [] :=
      fun h => hwords ((joined_eq_nil_iff isWord_of_mem_words).mp h)
    rw [if_neg hwords, if_neg (by rwa [List.isEmpty_iff])]

/-- **Slugs.** Two texts have the same slug if and only if they have the same words. -/
theorem slug_eq_iff {fallback : List Char} (hfallback : '-' ∉ fallback) (text other : List Char) :
    slug isKept fallback text = slug isKept fallback other
      ↔ wordsOr isKept fallback text = wordsOr isKept fallback other := by
  -- no word has a dash in it, so that the words are found again at the dashes
  have hwords : ∀ text, ∀ w ∈ wordsOr isKept fallback text, '-' ∉ w := by
    intro text w hw
    unfold wordsOr at hw
    split at hw
    · rwa [List.mem_singleton.mp hw]
    · intro hmem
      have hkept := (isWord_of_mem_words w hw).2 '-' hmem
      rw [hdash] at hkept
      cases hkept
  have hne : ∀ text, wordsOr isKept fallback text ≠ [] := by
    intro text
    unfold wordsOr
    split
    · exact List.cons_ne_nil fallback []
    · next h => exact h
  rw [slug_eq_joined hdash, slug_eq_joined hdash]
  constructor
  · intro h
    have hsplit := congrArg (List.splitOn '-') h
    unfold joined at hsplit
    rwa [List.splitOn_intercalate '-' (hwords text) (hne text),
      List.splitOn_intercalate '-' (hwords other) (hne other)] at hsplit
  · exact fun h => congrArg joined h

end Joined

end Slug
