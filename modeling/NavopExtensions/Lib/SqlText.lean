import NavopExtensions.Lib.Machine
import NavopExtensions.Lib.Text

/-!
# Texts of SQL

A lexer for SQL as a machine that reads one character at a time: words, single-quoted strings,
double-quoted identifiers, `--` comments to the end of the line and `/* */` comments, which nest. All
other characters are symbols of their own.

Since it is a machine, a text that is put together from pieces is read piece by piece, from the state
that the piece before leaves (`run_append`). What a piece leaves open shows in its state only.
-/

namespace SqlText

/-- What a text is made of. -/
inductive Item
  | word (text : List Char)
  | symbol (c : Char)
  | string (value : List Char)
  | quoted (name : List Char)
  | lineComment
  | blockComment
  deriving DecidableEq

/-- Comments are no tokens. -/
def Item.isToken : Item → Bool
  | .lineComment => false
  | .blockComment => false
  | _ => true

/-- What was read last in a block comment, as far as it may be half of its end or of a beginning. -/
inductive Half
  | none
  | star
  | slash
  deriving DecidableEq

/-- What the lexer is in the middle of. -/
inductive State
  | plain
  | word (text : List Char)
  | dash
  | slash
  | string (value : List Char)
  | stringQuote (value : List Char)
  | quoted (name : List Char)
  | quotedQuote (name : List Char)
  | line
  | block (depth : ℕ) (half : Half)
  deriving DecidableEq

/-- A character of a word. -/
def isWordChar (c : Char) : Bool :=
  !Text.isWhitespace c && (c.isAlphanum || c = '_' || 0x80 ≤ c.toNat)

/-- A character outside of everything. -/
def begin (c : Char) : State × List Item :=
  if Text.isWhitespace c then (.plain, [])
  else if isWordChar c then (.word [c], [])
  else if c = '-' then (.dash, [])
  else if c = '/' then (.slash, [])
  else if c = '\'' then (.string [], [])
  else if c = '"' then (.quoted [], [])
  else (.plain, [.symbol c])

/-- Something ends before a character. -/
def before (item : Item) (c : Char) : State × List Item := ((begin c).1, item :: (begin c).2)

/-- A character in a block comment. -/
def inBlock (depth : ℕ) (half : Half) (c : Char) : State × List Item :=
  if half = .star ∧ c = '/' then
    match depth with
    | 0 => (.plain, [.blockComment])
    | depth + 1 => (.block depth .none, [])
  else if half = .slash ∧ c = '*' then (.block (depth + 1) .none, [])
  else if c = '*' then (.block depth .star, [])
  else if c = '/' then (.block depth .slash, [])
  else (.block depth .none, [])

/-- The lexer reads a character. -/
def feed : State → Char → State × List Item
  | .plain, c => begin c
  | .word text, c => if isWordChar c then (.word (text ++ [c]), []) else before (.word text) c
  | .dash, c => if c = '-' then (.line, []) else before (.symbol '-') c
  | .slash, c => if c = '*' then (.block 0 .none, []) else before (.symbol '/') c
  | .string value, c => if c = '\'' then (.stringQuote value, []) else (.string (value ++ [c]), [])
  | .stringQuote value, c =>
    if c = '\'' then (.string (value ++ ['\'']), []) else before (.string value) c
  | .quoted name, c => if c = '"' then (.quotedQuote name, []) else (.quoted (name ++ [c]), [])
  | .quotedQuote name, c =>
    if c = '"' then (.quoted (name ++ ['"']), []) else before (.quoted name) c
  | .line, c => if c = '\n' || c = '\r' then (.plain, [.lineComment]) else (.line, [])
  | .block depth half, c => inBlock depth half c

/-- The end of a text, unless something is not terminated. -/
def finish : State → Option (List Item)
  | .plain => some []
  | .word text => some [.word text]
  | .dash => some [.symbol '-']
  | .slash => some [.symbol '/']
  | .stringQuote value => some [.string value]
  | .quotedQuote name => some [.quoted name]
  | .line => some [.lineComment]
  | .string _ => none
  | .quoted _ => none
  | .block _ _ => none

/-- The lexer reads a text. -/
def run (s : State) (text : List Char) : State × List Item := Machine.run feed s text

/-- What a text is made of that is read from a state, if everything in it is terminated. -/
def lexFrom (s : State) (text : List Char) : Option (List Item) :=
  (finish (run s text).1).map ((run s text).2 ++ ·)

/-- What a text is made of. -/
def lex (text : List Char) : Option (List Item) := lexFrom .plain text

/-- The tokens among the items of a text. -/
def tokensOf (items : List Item) : List Item := items.filter Item.isToken

/-- The tokens of a text. -/
def tokens (text : List Char) : Option (List Item) := (lex text).map tokensOf

theorem run_append (s : State) (a b : List Char) :
    run s (a ++ b) = ((run (run s a).1 b).1, (run s a).2 ++ (run (run s a).1 b).2) :=
  Machine.run_append s a b

theorem run_cons (s : State) (c : Char) (text : List Char) :
    run s (c :: text) = ((run (feed s c).1 text).1, (feed s c).2 ++ (run (feed s c).1 text).2) :=
  Machine.run_cons s c text

theorem run_concat (s : State) (text : List Char) (c : Char) :
    run s (text ++ [c]) = ((feed (run s text).1 c).1, (run s text).2 ++ (feed (run s text).1 c).2) :=
  Machine.run_concat s text c

theorem tokensOf_append (a b : List Item) : tokensOf (a ++ b) = tokensOf a ++ tokensOf b :=
  List.filter_append _ _

/-- A text is read from where the one before it ends. -/
theorem lexFrom_append (s : State) (a b : List Char) :
    lexFrom s (a ++ b) = (lexFrom (run s a).1 b).map ((run s a).2 ++ ·) := by
  unfold lexFrom
  rw [run_append, Option.map_map]
  congr 1
  funext items
  exact List.append_assoc _ _ _

theorem lexFrom_cons (s : State) (c : Char) (text : List Char) :
    lexFrom s (c :: text) = (lexFrom (feed s c).1 text).map ((feed s c).2 ++ ·) := by
  unfold lexFrom
  rw [run_cons, Option.map_map]
  congr 1
  funext items
  exact List.append_assoc _ _ _

/-- The characters of a word. -/
theorem run_word (text : List Char) {cs : List Char} (hcs : ∀ c ∈ cs, isWordChar c = true) :
    run (.word text) cs = (.word (text ++ cs), []) := by
  induction cs generalizing text with
  | nil =>
    rw [List.append_nil]
    rfl
  | cons c cs ih =>
    have hfeed : feed (.word text) c = (.word (text ++ [c]), []) :=
      if_pos (hcs c List.mem_cons_self)
    rw [run_cons, hfeed, ih (text ++ [c]) fun d hd => hcs d (List.mem_cons_of_mem c hd),
      List.append_assoc]
    rfl

/-- A comment goes on as long as its line. -/
theorem run_line {cs : List Char} (hcs : ∀ c ∈ cs, c ≠ '\n' ∧ c ≠ '\r') :
    run .line cs = (.line, []) := by
  induction cs with
  | nil => rfl
  | cons c cs ih =>
    obtain ⟨hfeedline, hreturn⟩ := hcs c List.mem_cons_self
    have hfeed : feed .line c = (.line, []) := by
      change (if c = '\n' || c = '\r' then _ else _) = _
      rw [decide_eq_false hfeedline, decide_eq_false hreturn]
      rfl
    rw [run_cons, hfeed, ih fun d hd => hcs d (List.mem_cons_of_mem c hd)]
    rfl

/-- Words begin where nothing is open. -/
theorem run_plain_word {cs : List Char} (hcs : ∀ c ∈ cs, isWordChar c = true) (hne : cs ≠ []) :
    run .plain cs = (.word cs, []) := by
  obtain ⟨c, cs, rfl⟩ := List.exists_cons_of_ne_nil hne
  obtain ⟨hc, hrest⟩ := List.forall_mem_cons.mp hcs
  have hblank : ¬ Text.isWhitespace c = true := by
    intro hblank
    unfold isWordChar at hc
    rw [hblank] at hc
    cases hc
  have hfeed : feed .plain c = (.word [c], []) := (if_neg hblank).trans (if_pos hc)
  rw [run_cons, hfeed, run_word [c] hrest]
  rfl

theorem isWordChar_of_isDigit {c : Char} (h : c.isDigit = true) : isWordChar c = true := by
  have hrange : 48 ≤ c.toNat ∧ c.toNat ≤ 57 := by
    simpa [Char.isDigit, UInt32.le_iff_toNat_le] using h
  have hblank : Text.isWhitespace c = false := by
    simp only [Text.isWhitespace, List.mem_cons, List.not_mem_nil, or_false, Bool.or_eq_false_iff,
      decide_eq_false_iff_not, Bool.and_eq_false_iff]
    omega
  have halphanum : c.isAlphanum = true := by simp [Char.isAlphanum, h]
  unfold isWordChar
  rw [hblank, halphanum]
  rfl

/-- Blanks at the beginning of a text are no part of it. -/
theorem lex_blanks {blanks : List Char} (hblanks : ∀ c ∈ blanks, Text.isWhitespace c = true)
    (text : List Char) : lex (blanks ++ text) = lex text := by
  induction blanks with
  | nil => rfl
  | cons c blanks ih =>
    obtain ⟨hc, hrest⟩ := List.forall_mem_cons.mp hblanks
    have hfeed : feed .plain c = (.plain, []) := if_pos hc
    calc lex (c :: (blanks ++ text))
        = (lex (blanks ++ text)).map ([] ++ ·) := by
          unfold lex
          rw [lexFrom_cons, hfeed]
      _ = lex (blanks ++ text) := congrFun Option.map_id _
      _ = lex text := ih hrest

/-- Whether every parenthesis that is opened is closed, with some open already. -/
def balancedFrom : ℕ → List Item → Bool
  | depth, [] => depth = 0
  | depth, .symbol '(' :: items => balancedFrom (depth + 1) items
  | 0, .symbol ')' :: _ => false
  | depth + 1, .symbol ')' :: items => balancedFrom depth items
  | depth, _ :: items => balancedFrom depth items

/-- Whether the parentheses of a text are balanced. -/
def balanced (items : List Item) : Bool := balancedFrom 0 items

/-! ### Seams -/

/-- A character that ends whatever it does not belong to, and is a symbol of its own. -/
structure Delimiter (c : Char) : Prop where
  begins : begin c = (.plain, [.symbol c])
  notWord : isWordChar c = false
  notOpening : c ≠ '-' ∧ c ≠ '/' ∧ c ≠ '*' ∧ c ≠ '\'' ∧ c ≠ '"' ∧ c ≠ '\n' ∧ c ≠ '\r'

/-- White space: in every state of the scan it is neither part of a word nor the start of anything. -/
structure Blank (c : Char) : Prop where
  begins : begin c = (.plain, [])
  notWord : isWordChar c = false
  notOpening : c ≠ '-' ∧ c ≠ '/' ∧ c ≠ '*' ∧ c ≠ '\'' ∧ c ≠ '"'

theorem blank_of_isWhitespace {c : Char} (h : Text.isWhitespace c = true) : Blank c := by
  refine ⟨if_pos h, ?_, ?_⟩
  · unfold isWordChar
    rw [h]
    rfl
  · refine ⟨?_, ?_, ?_, ?_, ?_⟩ <;>
    · rintro rfl
      exact absurd h (by decide)

theorem delimiter_semicolon : Delimiter ';' := ⟨by decide, by decide, by decide⟩

theorem delimiter_close : Delimiter ')' := ⟨by decide, by decide, by decide⟩

theorem delimiter_comma : Delimiter ',' := ⟨by decide, by decide, by decide⟩

/-- A delimiter after a text of which nothing is open. -/
theorem feed_delimiter {s : State} {items : List Item} {c : Char} (h : finish s = some items)
    (hline : s ≠ .line) (hc : Delimiter c) : feed s c = (.plain, items ++ [.symbol c]) := by
  obtain ⟨hbegins, hword, hdash, hslash, hstar, hquote, hdouble, -, -⟩ := hc
  cases s with
  | plain => cases h; exact hbegins
  | word text =>
    cases h
    change (if isWordChar c then _ else before _ c) = _
    rw [hword, if_neg Bool.false_ne_true, before, hbegins]
    rfl
  | dash =>
    cases h
    change (if c = '-' then _ else before _ c) = _
    rw [if_neg hdash, before, hbegins]
    rfl
  | slash =>
    cases h
    change (if c = '*' then _ else before _ c) = _
    rw [if_neg hstar, before, hbegins]
    rfl
  | stringQuote value =>
    cases h
    change (if c = '\'' then _ else before _ c) = _
    rw [if_neg hquote, before, hbegins]
    rfl
  | quotedQuote name =>
    cases h
    change (if c = '"' then _ else before _ c) = _
    rw [if_neg hdouble, before, hbegins]
    rfl
  -- a line comment ends only at its line break
  | line => exact absurd rfl hline
  | string value => cases h
  | quoted name => cases h
  | block depth half => cases h

/-- White space after a text of which nothing is open. -/
theorem feed_blank {s : State} {items : List Item} {c : Char} (h : finish s = some items)
    (hline : s ≠ .line) (hc : Blank c) : feed s c = (.plain, items) := by
  obtain ⟨hbegins, hword, hdash, hslash, hstar, hquote, hdouble⟩ := hc
  cases s with
  | plain => cases h; exact hbegins
  | word text =>
    cases h
    change (if isWordChar c then _ else before _ c) = _
    rw [hword, if_neg Bool.false_ne_true, before, hbegins]
  | dash =>
    cases h
    change (if c = '-' then _ else before _ c) = _
    rw [if_neg hdash, before, hbegins]
  | slash =>
    cases h
    change (if c = '*' then _ else before _ c) = _
    rw [if_neg hstar, before, hbegins]
  | stringQuote value =>
    cases h
    change (if c = '\'' then _ else before _ c) = _
    rw [if_neg hquote, before, hbegins]
  | quotedQuote name =>
    cases h
    change (if c = '"' then _ else before _ c) = _
    rw [if_neg hdouble, before, hbegins]
  | line => exact absurd rfl hline
  | string value => cases h
  | quoted name => cases h
  | block depth half => cases h

/-- A quoted name is one item, if its quotes are doubled. -/
theorem run_quoted (name before after : List Char) :
    run (.quoted before) (name.flatMap (fun c => if c = '"' then ['"', '"'] else [c]) ++ '"' :: after)
      = run (.quotedQuote (before ++ name)) after := by
  induction name generalizing before with
  | nil =>
    rw [List.flatMap_nil, List.nil_append, run_cons, List.append_nil]
    rfl
  | cons c name ih =>
    rw [List.flatMap_cons]
    by_cases hc : c = '"'
    · rw [if_pos hc, hc]
      -- the two quotes lead through the state after a quote and back
      calc run (.quoted before) (['"', '"'] ++ _ ++ '"' :: after)
          = run (.quoted (before ++ ['"'])) (name.flatMap _ ++ '"' :: after) := by
            rw [List.append_assoc]
            rfl
        _ = run (.quotedQuote (before ++ '"' :: name)) after := by
            rw [ih, List.append_assoc]
            rfl
    · rw [if_neg hc]
      have hfeed : feed (.quoted before) c = (.quoted (before ++ [c]), []) := if_neg hc
      calc run (.quoted before) ([c] ++ _ ++ '"' :: after)
          = run (.quoted (before ++ [c])) (name.flatMap _ ++ '"' :: after) := by
            rw [List.append_assoc, List.singleton_append, run_cons, hfeed]
            rfl
        _ = run (.quotedQuote (before ++ c :: name)) after := by
            rw [ih, List.append_assoc]
            rfl

/-! ### A text between parentheses

What is put around a text that has lost the semicolons and the white space at its end. -/

/-- A semicolon as a token. -/
def isSemicolon (item : Item) : Bool := item = .symbol ';'

/-- White space or a semicolon. -/
def isTrailing (c : Char) : Bool := c = ';' || Text.isWhitespace c

/-- Items without the semicolons at their end. -/
def withoutSemicolons (items : List Item) : List Item := items.rdropWhile isSemicolon

/-- The text goes on after its end: but for the semicolons there, it ends neither in a comment to the
end of the line, nor in a semicolon with comments behind it. -/
def Seamless (items : List Item) : Prop :=
  (withoutSemicolons items).getLast? ≠ some .lineComment ∧
    (tokensOf (withoutSemicolons items)).getLast? ≠ some (.symbol ';')

instance (items : List Item) : Decidable (Seamless items) :=
  inferInstanceAs (Decidable (_ ∧ _))

theorem withoutSemicolons_append_replicate (items : List Item) (k : ℕ) :
    withoutSemicolons (items ++ List.replicate k (.symbol ';')) = withoutSemicolons items := by
  induction k with
  | zero => rw [List.replicate_zero, List.append_nil]
  | succ k ih =>
    rw [List.replicate_succ', ← List.append_assoc]
    exact (List.rdropWhile_concat_pos _ _ _ (by decide)).trans ih

theorem withoutSemicolons_eq_self_iff {items : List Item} :
    withoutSemicolons items = items ↔ items.getLast? ≠ some (.symbol ';') := by
  unfold withoutSemicolons
  rw [List.rdropWhile_eq_self_iff]
  obtain rfl | ⟨init, last, rfl⟩ := List.eq_nil_or_concat items
  · simp
  · simp [isSemicolon]

/-- What stands behind the items without their semicolons. -/
theorem exists_semicolons (items : List Item) :
    ∃ semicolons, items = withoutSemicolons items ++ semicolons ∧
      ∀ item ∈ semicolons, item = .symbol ';' := by
  refine ⟨items.rtakeWhile isSemicolon, List.rdropWhile_append_rtakeWhile.symm, ?_⟩
  intro item hitem
  have hsemicolon : isSemicolon item = true := List.mem_rtakeWhile_imp hitem
  exact of_decide_eq_true hsemicolon

theorem delimiter_or_blank_of_isTrailing {c : Char} (hc : isTrailing c = true) :
    c = ';' ∨ Blank c := by
  rcases Bool.or_eq_true_iff.mp hc with hc | hc
  · exact Or.inl (of_decide_eq_true hc)
  · exact Or.inr (blank_of_isWhitespace hc)

/-- What stands at the end of a text closes nothing that is open there. -/
theorem finish_run_of_unfinished {s : State} (hs : finish s = none) {tail : List Char}
    (htail : ∀ c ∈ tail, isTrailing c = true) : finish (run s tail).1 = none := by
  induction tail generalizing s with
  | nil => exact hs
  | cons c tail ih =>
    have hc : c ≠ '*' ∧ c ≠ '/' ∧ c ≠ '\'' ∧ c ≠ '"' := by
      rcases delimiter_or_blank_of_isTrailing (htail c List.mem_cons_self) with rfl | hblank
      · decide
      · obtain ⟨-, -, -, hslash, hstar, hquote, hdouble⟩ := hblank
        exact ⟨hstar, hslash, hquote, hdouble⟩
    obtain ⟨hstar, hslash, hquote, hdouble⟩ := hc
    rw [run_cons]
    refine ih ?_ fun d hd => htail d (List.mem_cons_of_mem c hd)
    -- a literal or a comment that is open stays open; every other state could end here
    cases s with
    | string value =>
      have hfeed : feed (.string value) c = (.string (value ++ [c]), []) := if_neg hquote
      rw [hfeed]
      rfl
    | quoted name =>
      have hfeed : feed (.quoted name) c = (.quoted (name ++ [c]), []) := if_neg hdouble
      rw [hfeed]
      rfl
    | block depth half =>
      have hfeed : feed (.block depth half) c = (.block depth .none, []) := by
        change inBlock depth half c = _
        unfold inBlock
        rw [if_neg fun h => hslash h.2, if_neg fun h => hstar h.2, if_neg hstar, if_neg hslash]
      rw [hfeed]
      rfl
    | plain => cases hs
    | word text => cases hs
    | dash => cases hs
    | slash => cases hs
    | stringQuote value => cases hs
    | quotedQuote name => cases hs
    | line => cases hs

/-- What stands at the end of a text adds semicolons only, unless it is in a comment. -/
theorem lexFrom_tail {s : State} {items : List Item} (hs : finish s = some items) (hline : s ≠ .line)
    {tail : List Char} (htail : ∀ c ∈ tail, isTrailing c = true) :
    ∃ k, lexFrom s tail = some (items ++ List.replicate k (.symbol ';')) := by
  induction tail generalizing s items with
  | nil =>
    refine ⟨0, ?_⟩
    change (finish s).map ([] ++ ·) = _
    rw [hs, List.replicate_zero, List.append_nil]
    rfl
  | cons c tail ih =>
    have hrest : ∀ d ∈ tail, isTrailing d = true := fun d hd => htail d (List.mem_cons_of_mem c hd)
    obtain ⟨k, hk⟩ := ih (s := .plain) rfl (by decide) hrest
    rw [List.nil_append] at hk
    -- a semicolon is a token of its own, a blank is none
    rcases delimiter_or_blank_of_isTrailing (htail c List.mem_cons_self) with rfl | hblank
    · refine ⟨k + 1, ?_⟩
      rw [lexFrom_cons, feed_delimiter hs hline delimiter_semicolon, hk, List.replicate_succ]
      exact congrArg some (List.append_assoc _ _ _)
    · refine ⟨k, ?_⟩
      rw [lexFrom_cons, feed_blank hs hline hblank, hk]
      rfl

/-- A comment that goes on to the end of its line takes what stands there. -/
theorem lexFrom_line_tail {tail : List Char} (htail : ∀ c ∈ tail, isTrailing c = true) :
    ∃ k, lexFrom .line tail = some (.lineComment :: List.replicate k (.symbol ';')) := by
  induction tail with
  | nil => exact ⟨0, rfl⟩
  | cons c tail ih =>
    have hrest : ∀ d ∈ tail, isTrailing d = true := fun d hd => htail d (List.mem_cons_of_mem c hd)
    by_cases hc : (c = '\n' || c = '\r') = true
    · have hfeed : feed .line c = (.plain, [.lineComment]) := if_pos hc
      obtain ⟨k, hk⟩ := lexFrom_tail (s := .plain) rfl (by decide) hrest
      refine ⟨k, ?_⟩
      rw [lexFrom_cons, hfeed, hk]
      rfl
    · have hfeed : feed .line c = (.line, []) := if_neg hc
      obtain ⟨k, hk⟩ := ih hrest
      refine ⟨k, ?_⟩
      rw [lexFrom_cons, hfeed, hk]
      rfl

/-- A character that is neither white space nor a semicolon begins something else. -/
theorem begin_last {c : Char} (hc : isTrailing c = false) {rest : List Item}
    (h : finish (begin c).1 = some rest) :
    ∃ item, (begin c).2 ++ rest = [item] ∧ item ≠ .symbol ';' ∧ item ≠ .lineComment := by
  obtain ⟨hsemicolon, hblank⟩ := Bool.or_eq_false_iff.mp hc
  unfold begin at h ⊢
  rw [if_neg (by rw [hblank]; exact Bool.false_ne_true)] at h ⊢
  -- one character after the other that begins something, a quote opening what does not end here
  by_cases hword : isWordChar c = true
  · rw [if_pos hword] at h ⊢
    cases h
    exact ⟨.word [c], rfl, nofun, nofun⟩
  rw [if_neg hword] at h ⊢
  by_cases hdash : c = '-'
  · rw [if_pos hdash] at h ⊢
    cases h
    exact ⟨.symbol '-', rfl, by decide, nofun⟩
  rw [if_neg hdash] at h ⊢
  by_cases hslash : c = '/'
  · rw [if_pos hslash] at h ⊢
    cases h
    exact ⟨.symbol '/', rfl, by decide, nofun⟩
  rw [if_neg hslash] at h ⊢
  by_cases hquote : c = '\''
  · rw [if_pos hquote] at h
    cases h
  rw [if_neg hquote] at h ⊢
  by_cases hdouble : c = '"'
  · rw [if_pos hdouble] at h
    cases h
  rw [if_neg hdouble] at h ⊢
  cases h
  refine ⟨.symbol c, rfl, ?_, nofun⟩
  intro heq
  cases heq
  exact absurd hsemicolon (by decide)

/-- What a text ends in whose last character is neither white space nor a semicolon. -/
theorem feed_last {s : State} {c : Char} (hc : isTrailing c = false) {rest : List Item}
    (h : finish (feed s c).1 = some rest) (hline : (feed s c).1 ≠ .line) :
    ∃ init item, (feed s c).2 ++ rest = init ++ [item] ∧ item ≠ .symbol ';' ∧
      item ≠ .lineComment := by
  have hbefore : ∀ open_ : Item, feed s c = before open_ c →
      ∃ init item, (feed s c).2 ++ rest = init ++ [item] ∧ item ≠ .symbol ';' ∧
        item ≠ .lineComment := by
    intro open_ hfeed
    rw [hfeed] at h ⊢
    obtain ⟨item, hitem, hne⟩ := begin_last hc h
    refine ⟨[open_], item, ?_, hne⟩
    rw [← hitem]
    rfl
  cases s with
  | plain =>
    obtain ⟨item, hitem, hne⟩ := begin_last hc h
    exact ⟨[], item, hitem, hne⟩
  | word text =>
    by_cases hword : isWordChar c = true
    · have hfeed : feed (.word text) c = (.word (text ++ [c]), []) := if_pos hword
      rw [hfeed] at h ⊢
      cases h
      exact ⟨[], .word (text ++ [c]), rfl, nofun, nofun⟩
    · exact hbefore _ (if_neg hword)
  | dash =>
    by_cases hdash : c = '-'
    · exact absurd (congrArg Prod.fst (if_pos hdash)) hline
    · exact hbefore _ (if_neg hdash)
  | slash =>
    by_cases hstar : c = '*'
    · have hfeed : feed .slash c = (.block 0 .none, []) := if_pos hstar
      rw [hfeed] at h
      cases h
    · exact hbefore _ (if_neg hstar)
  | string value =>
    by_cases hquote : c = '\''
    · have hfeed : feed (.string value) c = (.stringQuote value, []) := if_pos hquote
      rw [hfeed] at h ⊢
      cases h
      exact ⟨[], .string value, rfl, nofun, nofun⟩
    · have hfeed : feed (.string value) c = (.string (value ++ [c]), []) := if_neg hquote
      rw [hfeed] at h
      cases h
  | stringQuote value =>
    by_cases hquote : c = '\''
    · have hfeed : feed (.stringQuote value) c = (.string (value ++ ['\'']), []) := if_pos hquote
      rw [hfeed] at h
      cases h
    · exact hbefore _ (if_neg hquote)
  | quoted name =>
    by_cases hdouble : c = '"'
    · have hfeed : feed (.quoted name) c = (.quotedQuote name, []) := if_pos hdouble
      rw [hfeed] at h ⊢
      cases h
      exact ⟨[], .quoted name, rfl, nofun, nofun⟩
    · have hfeed : feed (.quoted name) c = (.quoted (name ++ [c]), []) := if_neg hdouble
      rw [hfeed] at h
      cases h
  | quotedQuote name =>
    by_cases hdouble : c = '"'
    · have hfeed : feed (.quotedQuote name) c = (.quoted (name ++ ['"']), []) := if_pos hdouble
      rw [hfeed] at h
      cases h
    · exact hbefore _ (if_neg hdouble)
  | line =>
    -- the end of the line would be white space
    have hnewline : (c = '\n' || c = '\r') = false := by
      by_contra hnewline
      rw [Bool.not_eq_false, Bool.or_eq_true, decide_eq_true_eq, decide_eq_true_eq] at hnewline
      rcases hnewline with rfl | rfl <;> exact absurd hc (by decide)
    have hfeed : feed .line c = (.line, []) := if_neg (by rw [hnewline]; exact Bool.false_ne_true)
    exact absurd (congrArg Prod.fst hfeed) hline
  | block depth half =>
    change ∃ init item, (inBlock depth half c).2 ++ rest = _ ∧ _
    have h : finish (inBlock depth half c).1 = some rest := h
    unfold inBlock at h ⊢
    by_cases hend : half = .star ∧ c = '/'
    · rw [if_pos hend] at h ⊢
      cases depth with
      | zero =>
        cases h
        exact ⟨[], .blockComment, rfl, nofun, nofun⟩
      | succ depth => cases h
    · rw [if_neg hend] at h
      split at h
      · cases h
      split at h
      · cases h
      split at h
      · cases h
      · cases h

/-- The last item of a text whose last character is neither white space nor a semicolon. -/
theorem run_last {body : List Char} (hbody : ∀ c, body.getLast? = some c → isTrailing c = false)
    {rest : List Item} (h : finish (run .plain body).1 = some rest)
    (hline : (run .plain body).1 ≠ .line) :
    ((run .plain body).2 ++ rest).getLast? ≠ some (.symbol ';') ∧
      ((run .plain body).2 ++ rest).getLast? ≠ some .lineComment := by
  obtain rfl | ⟨init, last, rfl⟩ := List.eq_nil_or_concat body
  · cases h
    exact ⟨nofun, nofun⟩
  · rw [List.concat_eq_append] at hbody h hline ⊢
    have hlast := hbody last List.getLast?_concat
    rw [run_concat] at h hline ⊢
    obtain ⟨items, item, hitems, hsemicolon, hcomment⟩ := feed_last hlast h hline
    rw [List.append_assoc, hitems, ← List.append_assoc, List.getLast?_concat]
    exact ⟨fun heq => hsemicolon (Option.some.inj heq), fun heq => hcomment (Option.some.inj heq)⟩

theorem tokensOf_replicate (k : ℕ) :
    tokensOf (List.replicate k (.symbol ';')) = List.replicate k (.symbol ';') :=
  List.filter_replicate_of_pos rfl

section Wrapping

variable {opening rest body tail : List Char} {before after items : List Item}

/-- A text that ends within a line takes what follows it into its comment. -/
theorem swallowed (hopening : run .plain opening = (.plain, before))
    (hrest : ∀ c ∈ rest, c ≠ '\n' ∧ c ≠ '\r') (hline : (run .plain body).1 = .line) :
    tokens (opening ++ body ++ ')' :: rest)
      = some (tokensOf before ++ tokensOf (run .plain body).2) := by
  have hsuffix : ∀ c ∈ ')' :: rest, c ≠ '\n' ∧ c ≠ '\r' :=
    List.forall_mem_cons.mpr ⟨by decide, hrest⟩
  have hlex : lexFrom .line (')' :: rest) = some [.lineComment] := by
    unfold lexFrom
    rw [run_line hsuffix]
    rfl
  unfold tokens lex
  rw [List.append_assoc, lexFrom_append, hopening, lexFrom_append, hline, hlex]
  change some (tokensOf (before ++ ((run .plain body).2 ++ [.lineComment]))) = _
  rw [tokensOf_append, tokensOf_append]
  congr 2
  exact List.append_nil _

/-- A text that ends otherwise is followed by what stands behind it. -/
theorem followed (hopening : run .plain opening = (.plain, before))
    (hrest : lexFrom .plain rest = some after) {last : List Item}
    (hlast : finish (run .plain body).1 = some last) (hline : (run .plain body).1 ≠ .line) :
    tokens (opening ++ body ++ ')' :: rest)
      = some (tokensOf before ++ tokensOf ((run .plain body).2 ++ last)
          ++ .symbol ')' :: tokensOf after) := by
  unfold tokens lex
  rw [List.append_assoc, lexFrom_append, hopening, lexFrom_append, lexFrom_cons,
    feed_delimiter hlast hline delimiter_close, hrest]
  change some (tokensOf (before ++ ((run .plain body).2 ++ (last ++ [.symbol ')'] ++ after)))) = _
  rw [tokensOf_append, tokensOf_append, tokensOf_append, tokensOf_append, tokensOf_append,
    List.append_assoc, List.append_assoc, List.append_assoc]
  rfl

/-- **Wrapping.** A text that has lost the white space and the semicolons at its end stands between
parentheses token by token if and only if it is seamless. -/
theorem wrapped_iff (hopening : run .plain opening = (.plain, before))
    (hrest : lexFrom .plain rest = some after) (hline : ∀ c ∈ rest, c ≠ '\n' ∧ c ≠ '\r')
    (hbody : ∀ c, body.getLast? = some c → isTrailing c = false)
    (htail : ∀ c ∈ tail, isTrailing c = true) (hlex : lex (body ++ tail) = some items) :
    tokens (opening ++ body ++ ')' :: rest)
        = some (tokensOf before ++ withoutSemicolons (tokensOf items)
            ++ .symbol ')' :: tokensOf after)
      ↔ Seamless items := by
  unfold lex at hlex
  rw [lexFrom_append] at hlex
  by_cases hopen : (run .plain body).1 = .line
  · obtain ⟨k, hk⟩ := lexFrom_line_tail htail
    rw [hopen, hk] at hlex
    have hitems : items = (run .plain body).2 ++ [.lineComment] ++ List.replicate k (.symbol ';') := by
      rw [← Option.some.inj hlex, List.append_assoc]
      rfl
    rw [hitems]
    refine iff_of_false ?_ ?_
    · rw [swallowed hopening hline hopen, tokensOf_append _ (List.replicate k _), List.append_assoc]
      intro heq
      have heq := List.append_cancel_left (Option.some.inj heq)
      -- the wrapper's parenthesis would be one of the semicolons that were left out
      have hcomment : tokensOf [.lineComment] = [] := rfl
      rw [tokensOf_append, tokensOf_replicate, withoutSemicolons_append_replicate, hcomment,
        List.append_nil] at heq
      obtain ⟨semicolons, hsplit, hsemicolons⟩ := exists_semicolons (tokensOf (run .plain body).2)
      have hparen : .symbol ')' ∈ semicolons := by
        rw [List.append_cancel_left (hsplit.symm.trans heq)]
        exact List.mem_cons_self
      exact absurd (hsemicolons _ hparen) (by decide)
    · rintro ⟨hcomment, -⟩
      apply hcomment
      have hwithout : withoutSemicolons ((run .plain body).2 ++ [.lineComment])
          = (run .plain body).2 ++ [.lineComment] := by
        rw [withoutSemicolons_eq_self_iff, List.getLast?_concat]
        decide
      rw [withoutSemicolons_append_replicate, hwithout]
      exact List.getLast?_concat
  · cases hfinish : finish (run .plain body).1 with
    | none =>
      unfold lexFrom at hlex
      rw [finish_run_of_unfinished hfinish htail] at hlex
      cases hlex
    | some last =>
      obtain ⟨k, hk⟩ := lexFrom_tail hfinish hopen htail
      rw [hk] at hlex
      have hitems : items = (run .plain body).2 ++ last ++ List.replicate k (.symbol ';') := by
        rw [← Option.some.inj hlex, List.append_assoc]
      obtain ⟨hsemicolon, hcomment⟩ := run_last hbody hfinish hopen
      rw [hitems, followed hopening hrest hfinish hopen,
        tokensOf_append _ (List.replicate k _), tokensOf_replicate,
        withoutSemicolons_append_replicate]
      unfold Seamless
      rw [withoutSemicolons_append_replicate, withoutSemicolons_eq_self_iff.mpr hsemicolon]
      rw [Option.some_inj, List.append_left_inj, List.append_right_inj, eq_comm,
        withoutSemicolons_eq_self_iff]
      exact ⟨fun h => ⟨hcomment, h⟩, fun h => h.2⟩

end Wrapping

end SqlText
