import NavopExtensions.Lib.Quoting

/-!
# Quoting with doubled marks and backslashes

A language with names and literals in marks, as in `Quoting`, where a backslash in a quoted text of some
kinds takes the next character as part of the text, and stands for one character together with it, except
in front of some characters that it is kept with.

There are several ways to write a text here, so that reading is not undone by writing. `lex_doubled` is the
rule for what is read back: marks are doubled, and no backslash is `bare`. `length_eq_costs` is the rule for
what is not: a token `costs` a number of characters at least, so that a text which is too short for the
tokens that it should have does not have them.
-/

namespace Escaping

open Quoting

/-- A language: the marks around names, the kinds of texts in which a backslash escapes, what it makes of
the character after it, and in front of which characters it stays. -/
structure Language where
  quotes : Quotes
  escapes : Kind → Bool
  unescape : Char → Char
  keeps : Char → Bool
  closing_ne : ∀ kind, quotes.closing kind ≠ '\\'
  keeps_ne : ∀ c kind, keeps c = true → c ≠ quotes.closing kind ∧ c ≠ '\\'

/-- What the reader is in the middle of. -/
inductive State
  | plain
  | inside (kind : Kind) (text : List Char)
  | escaped (kind : Kind) (text : List Char)
  | closed (kind : Kind) (text : List Char)
  deriving DecidableEq

variable (l : Language)

/-- A character outside of everything. -/
def begin (c : Char) : State × List Token :=
  if c = l.quotes.left then (.inside .name [], [])
  else if c = '\'' then (.inside .literal [], [])
  else (.plain, [.symbol c])

/-- A character, with the tokens that it ends. -/
def step : State → Char → State × List Token
  | .plain, c => begin l c
  | .inside kind text, c =>
    if c = l.quotes.closing kind then (.closed kind text, [])
    else if l.escapes kind ∧ c = '\\' then (.escaped kind text, [])
    else (.inside kind (text ++ [c]), [])
  | .escaped kind text, c =>
    if l.keeps c then (.inside kind (text ++ ['\\', c]), [])
    else (.inside kind (text ++ [l.unescape c]), [])
  -- After a closing mark, a second one stands for the mark itself.
  | .closed kind text, c =>
    if c = l.quotes.closing kind then (.inside kind (text ++ [c]), [])
    else ((begin l c).1, .quoted kind text :: (begin l c).2)

/-- What the end of the text ends. A quoted text that is still open is an error. -/
def State.finish : State → Option (List Token)
  | .plain => some []
  | .inside _ _ | .escaped _ _ => none
  | .closed kind text => some [.quoted kind text]

/-- The tokens of a text, from a state of the reader on. -/
def lexFrom : State → List Char → Option (List Token)
  | state, [] => state.finish
  | state, c :: cs => (lexFrom (step l state c).1 cs).map ((step l state c).2 ++ ·)

/-- The tokens of a text. -/
def lex (text : List Char) : Option (List Token) := lexFrom l .plain text

/-! ### What is read back -/

/-- In a quoted text, some characters are read as one. -/
def Reads (kind : Kind) (c : Char) (written : List Char) : Prop :=
  ∀ before rest, lexFrom l (.inside kind before) (written ++ rest)
    = lexFrom l (.inside kind (before ++ [c])) rest

variable {l} {kind : Kind} {text rest : List Char}

theorem reads_self {c : Char} (hmark : c ≠ l.quotes.closing kind)
    (hescape : ¬ (l.escapes kind ∧ c = '\\')) : Reads l kind c [c] := by
  intro before rest
  rw [List.singleton_append, lexFrom, step, if_neg hmark, if_neg hescape]
  exact congrFun Option.map_id _

theorem reads_doubled : Reads l kind (l.quotes.closing kind)
    [l.quotes.closing kind, l.quotes.closing kind] := by
  intro before rest
  simp only [List.cons_append, List.nil_append, lexFrom, step, if_true, Option.map_id']

/-- The number of backslashes in a text that are not kept. -/
def bare (l : Language) : List Char → ℕ
  | [] => 0
  | c :: text => (if c = '\\' ∧ ¬ text.head?.any l.keeps then 1 else 0) + bare l text

/-- A backslash that is kept is read together with the character behind it. -/
theorem lexFrom_kept {c : Char} (hescapes : l.escapes kind = true) (hkeeps : l.keeps c = true)
    (before : List Char) : lexFrom l (.inside kind before) ('\\' :: c :: rest)
      = lexFrom l (.inside kind (before ++ ['\\', c])) rest := by
  simp only [lexFrom, step, if_neg (l.closing_ne kind).symm, hescapes, hkeeps, and_self, if_true,
    List.nil_append, Option.map_id']

/-- A text whose marks are doubled is read as it is, from its first character on, or from the first two. -/
theorem lexFrom_doubled (hslash : l.escapes kind = true → bare l text = 0) (before : List Char) :
    lexFrom l (.inside kind before) (double (l.quotes.closing kind) text ++ rest)
      = lexFrom l (.inside kind (before ++ text)) rest := by
  induction hlength : text.length using Nat.strong_induction_on generalizing text before with
  | _ n ih =>
    cases text with
    | nil => rw [double, List.flatMap_nil, List.nil_append, List.append_nil]
    | cons c text =>
      have htail : l.escapes kind = true → bare l text = 0 := fun hescapes => by
        have hall := hslash hescapes
        rw [bare] at hall
        omega
      have hnext : ∀ written, Reads l kind c written →
          lexFrom l (.inside kind before) (written ++ (double (l.quotes.closing kind) text ++ rest))
            = lexFrom l (.inside kind (before ++ c :: text)) rest := by
        intro written hreads
        rw [hreads, ih text.length (by rw [← hlength]; exact Nat.lt_succ_self _) htail _ rfl,
          List.append_assoc, List.singleton_append]
      rw [double, List.flatMap_cons, List.append_assoc, ← double]
      by_cases hmark : c = l.quotes.closing kind
      · rw [if_pos hmark]
        refine hnext _ ?_
        rw [hmark]
        exact reads_doubled
      rw [if_neg hmark]
      by_cases hescape : l.escapes kind ∧ c = '\\'
      · obtain ⟨hescapes, rfl⟩ := hescape
        -- The backslash is kept, so there is a character behind it, which is not a mark.
        have hkept : text.head?.any l.keeps = true := by
          have hall := hslash hescapes
          rw [bare] at hall
          by_contra hnot
          rw [if_pos ⟨rfl, hnot⟩] at hall
          omega
        cases text with
        | nil => exact absurd hkept (by simp)
        | cons d text =>
          have hd : l.keeps d = true := by simpa using hkept
          have hrest : l.escapes kind = true → bare l text = 0 := fun hescapes => by
            have hall := htail hescapes
            rw [bare] at hall
            omega
          rw [double, List.flatMap_cons, if_neg (l.keeps_ne d kind hd).1, List.append_assoc, ← double,
            List.singleton_append, List.singleton_append, lexFrom_kept hescapes hd,
            ih text.length (by rw [← hlength]; simp only [List.length_cons]; omega) hrest _ rfl,
            List.append_assoc]
          rfl
      · exact hnext _ (reads_self hmark hescape)

theorem begin_opening (hkind : l.quotes.Unmarked (.quoted kind text)) :
    begin l (l.quotes.opening kind) = (.inside kind [], []) := by
  cases kind with
  | name => exact if_pos rfl
  | literal =>
    have hleft : '\'' ≠ l.quotes.left := (hkind rfl).symm
    rw [Quotes.opening, begin, if_neg hleft, if_pos rfl]

/-- **A quoted text whose marks are doubled**, without a backslash that would escape, in front of something
that does not begin with its closing mark. -/
theorem lex_doubled (hkind : l.quotes.Unmarked (.quoted kind text))
    (hslash : l.escapes kind = true → bare l text = 0)
    (hrest : rest.head? ≠ some (l.quotes.closing kind)) :
    lex l (l.quotes.opening kind ::
        (double (l.quotes.closing kind) text ++ l.quotes.closing kind :: rest))
      = (lex l rest).map (.quoted kind text :: ·) := by
  have hclosed : lexFrom l (.closed kind text) rest = (lex l rest).map (.quoted kind text :: ·) := by
    cases rest with
    | nil => rfl
    | cons c rest =>
      have hc : c ≠ l.quotes.closing kind := by simpa using hrest
      rw [lexFrom, step, if_neg hc, lex, lexFrom, step, Option.map_map]
      rfl
  rw [lex, lexFrom, step, begin_opening hkind]
  simp only [List.nil_append, Option.map_id', lexFrom_doubled hslash, lexFrom, step, if_true, hclosed]

/-- Text without quotes. -/
theorem lex_symbols {cs : List Char} (hcs : ∀ c ∈ cs, c ≠ l.quotes.left ∧ c ≠ '\'') :
    lex l (cs ++ rest) = (lex l rest).map (cs.map Token.symbol ++ ·) := by
  induction cs with
  | nil => exact (congrFun Option.map_id _).symm
  | cons c cs ih =>
    obtain ⟨hleft, hquote⟩ := hcs c List.mem_cons_self
    have hrest : lexFrom l .plain (cs ++ rest) = _ := ih fun d hd => hcs d (List.mem_cons_of_mem c hd)
    rw [List.cons_append, lex, lexFrom, step, begin, if_neg hleft, if_neg hquote, hrest, Option.map_map]
    rfl

/-! ### What tokens cost -/

/-- The least number of characters that a character at the end of a quoted text is read from. -/
def weight (l : Language) (kind : Kind) (c : Char) : ℕ :=
  if c = l.quotes.closing kind ∨ l.escapes kind ∧ c = '\\' then 2 else 1

/-- The least number of characters that a quoted text is read from: a mark is doubled, and so is a
backslash, unless it is kept. -/
def textCost (l : Language) (kind : Kind) : List Char → ℕ
  | [] => 0
  | c :: text =>
    (if c = l.quotes.closing kind ∨ l.escapes kind ∧ c = '\\' ∧ ¬ text.head?.any l.keeps then 2 else 1)
      + textCost l kind text

/-- The least number of characters that a token is read from. -/
def cost (l : Language) : Token → ℕ
  | .quoted kind text => 2 + textCost l kind text
  | .symbol _ => 1

/-- The least number of characters that some tokens are read from. -/
def costs (l : Language) (tokens : List Token) : ℕ := (tokens.map (cost l)).sum

/-- What was paid for the token that the reader is in. -/
def State.paid (l : Language) : State → ℕ
  | .plain => 0
  | .inside kind text => 1 + textCost l kind text
  | .escaped kind text => 2 + textCost l kind text
  | .closed kind text => 2 + textCost l kind text

theorem weight_le (l : Language) (kind : Kind) (c : Char) : weight l kind c ≤ 2 := by
  unfold weight
  split <;> omega

/-- What comes behind a text does not make it dearer. -/
theorem textCost_append_le {more : List Char} {n : ℕ} (h : textCost l kind more ≤ n)
    (text : List Char) : textCost l kind (text ++ more) ≤ textCost l kind text + n := by
  induction text with
  | nil => exact h.trans (Nat.le_add_left _ _)
  | cons c text ih =>
    rw [List.cons_append, textCost, textCost]
    have hc : (if c = l.quotes.closing kind ∨
          l.escapes kind ∧ c = '\\' ∧ ¬ (text ++ more).head?.any l.keeps then 2 else 1)
        ≤ if c = l.quotes.closing kind ∨ l.escapes kind ∧ c = '\\' ∧ ¬ text.head?.any l.keeps then 2
          else 1 := by
      cases text with
      | nil =>
        -- At the end of a text nothing keeps a backslash.
        split
        · next hdear => rw [if_pos (hdear.imp_right fun h => ⟨h.1, h.2.1, by simp⟩)]
        · split <;> omega
      | cons d text => exact Nat.le_refl _
    omega

theorem textCost_concat_le (kind : Kind) (text : List Char) (c : Char) :
    textCost l kind (text ++ [c]) ≤ textCost l kind text + weight l kind c :=
  textCost_append_le (by simp [textCost, weight]) text

/-- A backslash that is kept counts once. -/
theorem textCost_kept_le (kind : Kind) (text : List Char) {c : Char} (hkeeps : l.keeps c = true) :
    textCost l kind (text ++ ['\\', c]) ≤ textCost l kind text + 2 := by
  refine textCost_append_le ?_ text
  obtain ⟨hmark, hslash⟩ := l.keeps_ne c kind hkeeps
  simp [textCost, (l.closing_ne kind).symm, hkeeps, hmark, hslash]

theorem costs_cons (token : Token) (tokens : List Token) :
    costs l (token :: tokens) = cost l token + costs l tokens := List.sum_cons

theorem costs_append (tokens more : List Token) :
    costs l (tokens ++ more) = costs l tokens + costs l more := by
  rw [costs, List.map_append, List.sum_append]
  rfl

theorem costs_begin (c : Char) : costs l (begin l c).2 + (begin l c).1.paid l ≤ 1 := by
  unfold begin
  split
  · exact Nat.le_refl 1
  · split
    · exact Nat.le_refl 1
    · exact Nat.le_refl 1

/-- A character pays for one. -/
theorem costs_step (state : State) (c : Char) :
    costs l (step l state c).2 + (step l state c).1.paid l ≤ state.paid l + 1 := by
  cases state with
  | plain => exact (costs_begin c).trans (Nat.le_add_left 1 _)
  | inside kind text =>
    by_cases hmark : c = l.quotes.closing kind
    · rw [step, if_pos hmark]
      show 0 + (2 + _) ≤ 1 + _ + 1
      omega
    · by_cases hescape : l.escapes kind ∧ c = '\\'
      · rw [step, if_neg hmark, if_pos hescape]
        show 0 + (2 + _) ≤ 1 + _ + 1
        omega
      · have hweight : weight l kind c = 1 := if_neg (not_or.2 ⟨hmark, by simpa using hescape⟩)
        have htext := textCost_concat_le (l := l) kind text c
        rw [step, if_neg hmark, if_neg hescape]
        show 0 + (1 + _) ≤ 1 + _ + 1
        omega
  | escaped kind text =>
    by_cases hkeeps : l.keeps c = true
    · have htext := textCost_kept_le kind text hkeeps
      rw [step, if_pos hkeeps]
      show 0 + (1 + _) ≤ 2 + _ + 1
      omega
    · have htext := textCost_concat_le (l := l) kind text (l.unescape c)
      have hweight := weight_le l kind (l.unescape c)
      rw [step, if_neg hkeeps]
      show 0 + (1 + _) ≤ 2 + _ + 1
      omega
  | closed kind text =>
    by_cases hmark : c = l.quotes.closing kind
    · have htext := textCost_concat_le (l := l) kind text c
      have hweight := weight_le l kind c
      rw [step, if_pos hmark]
      show 0 + (1 + _) ≤ 2 + _ + 1
      omega
    · have hbegin := costs_begin (l := l) c
      rw [step, if_neg hmark]
      show costs l (.quoted kind text :: (begin l c).2) + (begin l c).1.paid l ≤ 2 + _ + 1
      rw [costs_cons, cost]
      omega

theorem costs_le_from {cs : List Char} {state : State} {tokens : List Token}
    (h : lexFrom l state cs = some tokens) : costs l tokens ≤ state.paid l + cs.length := by
  induction cs generalizing state tokens with
  | nil =>
    cases state with
    | plain =>
      obtain rfl := Option.some.inj h
      exact Nat.zero_le _
    | inside kind text => exact absurd h (by simp [lexFrom, State.finish])
    | escaped kind text => exact absurd h (by simp [lexFrom, State.finish])
    | closed kind text =>
      obtain rfl := Option.some.inj h
      exact Nat.le_refl _
  | cons c cs ih =>
    obtain ⟨rest, hrest, rfl⟩ := Option.map_eq_some_iff.1 h
    have hstep := costs_step (l := l) state c
    have hcosts := ih hrest
    rw [costs_append, List.length_cons]
    omega

/-- **A text is as long as its tokens cost**, at least. -/
theorem costs_le {cs : List Char} {tokens : List Token} (h : lex l cs = some tokens) :
    costs l tokens ≤ cs.length := by
  simpa [State.paid] using costs_le_from h

/-- **Nothing was saved** in a text that is read as tokens none of which are written in more characters
than they cost. -/
theorem length_eq_costs (pieces : List (List Char × List Token))
    (hle : ∀ piece ∈ pieces, piece.1.length ≤ costs l piece.2)
    (h : lex l (pieces.flatMap Prod.fst) = some (pieces.flatMap Prod.snd)) :
    ∀ piece ∈ pieces, piece.1.length = costs l piece.2 := by
  have hpaid := costs_le h
  clear h
  induction pieces with
  | nil => exact fun piece hpiece => absurd hpiece List.not_mem_nil
  | cons piece pieces ih =>
    obtain ⟨hfirst, hothers⟩ := List.forall_mem_cons.1 hle
    have hlength : (pieces.flatMap Prod.fst).length ≤ costs l (pieces.flatMap Prod.snd) := by
      clear ih hpaid hle
      induction pieces with
      | nil => exact Nat.le_refl 0
      | cons other pieces ih =>
        obtain ⟨hother, hothers⟩ := List.forall_mem_cons.1 hothers
        have hrest := ih hothers
        rw [List.flatMap_cons, List.flatMap_cons, List.length_append, costs_append]
        omega
    rw [List.flatMap_cons, List.flatMap_cons, List.length_append, costs_append] at hpaid
    exact List.forall_mem_cons.2 ⟨by omega, ih hothers (by omega)⟩

theorem costs_symbols (text : String) : costs l (symbols text) = text.toList.length := by
  rw [costs, symbols, List.map_map]
  induction text.toList with
  | nil => rfl
  | cons c cs ih =>
    rw [List.map_cons, List.sum_cons, ih, List.length_cons]
    exact Nat.add_comm 1 _

/-- What a text costs whose marks can be doubled: a backslash that is not kept counts twice. -/
theorem cost_quoted (l : Language) (kind : Kind) (text : List Char) :
    cost l (.quoted kind text) = 2 + (double (l.quotes.closing kind) text).length
      + if l.escapes kind then bare l text else 0 := by
  rw [cost]
  induction text with
  | nil => simp [textCost, double, bare]
  | cons c text ih =>
    rw [textCost, double, List.flatMap_cons, List.length_append]
    rw [double] at ih
    by_cases hc : c = l.quotes.closing kind
    · -- A mark is doubled, and is no backslash.
      have hslash : c ≠ '\\' := hc ▸ l.closing_ne kind
      have hbare : bare l (c :: text) = bare l text := by
        rw [bare, if_neg fun hboth => hslash hboth.1, Nat.zero_add]
      rw [if_pos (.inl hc), if_pos hc, hbare]
      simp only [List.length_cons, List.length_nil]
      omega
    · rw [bare, if_neg hc, List.length_singleton]
      cases hkind : l.escapes kind with
      | false =>
        simp only [hkind, Bool.false_eq_true, if_false, false_and, or_false, hc] at ih ⊢
        omega
      | true =>
        simp only [hkind, if_true, true_and, hc, false_or] at ih ⊢
        split <;> omega

end Escaping
