import NavopExtensions.Lib.Replace

/-!
# Quoting with doubled marks

A language with two kinds of quoted text: names between a left and a right mark, and literals
between apostrophes. Inside a quoted text its closing mark is written twice. Everything else is read
as symbols, one character each.

`lex` is the reader of the language, `write` puts tokens into text. What was written is read back if
and only if the tokens are `Clear`: no symbol is an opening mark, and no quoted text is followed by
its own closing mark (`lex_write_iff`). The texts in the quotes play no part in that
(`clear_map_shape`). The reader loses nothing (`write_of_lex`), so that a text is read as some
tokens exactly if it is theirs and they are clear (`lex_eq_some_iff`).
-/

namespace Quoting

/-- The marks around a name. -/
structure Quotes where
  left : Char
  right : Char
  deriving DecidableEq

/-- What is quoted: the name of a thing, or a text. -/
inductive Kind
  | name
  | literal
  deriving DecidableEq

/-- What a text is read as. -/
inductive Token
  | quoted (kind : Kind) (text : List Char)
  | symbol (c : Char)
  deriving DecidableEq

/-- The mark that opens a quoted text. -/
def Quotes.opening (q : Quotes) : Kind → Char
  | .name => q.left
  | .literal => '\''

/-- The mark that closes a quoted text. -/
def Quotes.closing (q : Quotes) : Kind → Char
  | .name => q.right
  | .literal => '\''

/-! ### Writing -/

/-- A text with every `mark` in it doubled. -/
def double (mark : Char) (text : List Char) : List Char :=
  text.flatMap fun c => if c = mark then [mark, mark] else [c]

/-- The text of a token. -/
def Token.write (q : Quotes) : Token → List Char
  | .quoted kind text => q.opening kind :: double (q.closing kind) text ++ [q.closing kind]
  | .symbol c => [c]

/-- The text of some tokens. -/
def write (q : Quotes) (tokens : List Token) : List Char := tokens.flatMap (Token.write q)

/-- The symbols of a text that holds no quoted text. -/
def symbols (text : String) : List Token := text.toList.map Token.symbol

/-! ### Doubling -/

theorem singleton_ne_empty (mark : Char) : String.singleton mark ≠ "" := by
  intro h
  have hlist := congrArg String.toList h
  rw [String.toList_singleton] at hlist
  exact List.cons_ne_nil _ _ hlist

/-- A text in which a single character is doubled. -/
theorem toList_replace_double (mark : Char) (s : String) :
    (s.replace (String.singleton mark) (String.singleton mark ++ String.singleton mark)).toList
      = double mark s.toList := by
  rw [Text.toList_replace (singleton_ne_empty mark), String.toList_append, String.toList_singleton]
  exact Text.replaceAll_singleton mark s.toList

/-! ### Reading -/

/-- What the reader is in the middle of. -/
inductive State
  | plain
  | inside (kind : Kind) (text : List Char)
  | closed (kind : Kind) (text : List Char)
  deriving DecidableEq

/-- A character outside of everything. -/
def begin (q : Quotes) (c : Char) : State × List Token :=
  if c = q.left then (.inside .name [], [])
  else if c = '\'' then (.inside .literal [], [])
  else (.plain, [.symbol c])

/-- A character, with the tokens that it ends. -/
def step (q : Quotes) : State → Char → State × List Token
  | .plain, c => begin q c
  | .inside kind text, c =>
    if c = q.closing kind then (.closed kind text, []) else (.inside kind (text ++ [c]), [])
  -- After a closing mark, a second one stands for the mark itself.
  | .closed kind text, c =>
    if c = q.closing kind then (.inside kind (text ++ [c]), [])
    else ((begin q c).1, .quoted kind text :: (begin q c).2)

/-- What the end of the text ends. A quoted text that is still open is an error. -/
def State.finish : State → Option (List Token)
  | .plain => some []
  | .inside _ _ => none
  | .closed kind text => some [.quoted kind text]

/-- The tokens of a text, from a state of the reader on. -/
def lexFrom (q : Quotes) : State → List Char → Option (List Token)
  | state, [] => state.finish
  | state, c :: cs => (lexFrom q (step q state c).1 cs).map ((step q state c).2 ++ ·)

/-- The tokens of a text. -/
def lex (q : Quotes) (text : List Char) : Option (List Token) := lexFrom q .plain text

/-! ### Tokens that can be told apart -/

/-- A symbol is not an opening mark, and the apostrophe does not open names. -/
def Quotes.Unmarked (q : Quotes) : Token → Prop
  | .quoted kind _ => kind = .literal → q.left ≠ '\''
  | .symbol c => c ≠ q.left ∧ c ≠ '\''

instance (q : Quotes) : DecidablePred q.Unmarked := fun token => by
  cases token <;> unfold Quotes.Unmarked <;> infer_instance

/-- The first character of a token. -/
def Quotes.first (q : Quotes) : Token → Char
  | .quoted kind _ => q.opening kind
  | .symbol c => c

/-- The second token does not begin with the mark that closes the first one. -/
def Quotes.Apart (q : Quotes) (token next : Token) : Prop :=
  match token with
  | .quoted kind _ => q.first next ≠ q.closing kind
  | .symbol _ => True

instance (q : Quotes) : DecidableRel q.Apart := fun token next => by
  cases token <;> unfold Quotes.Apart <;> infer_instance

/-- Tokens that can be told apart once they are written. -/
structure Clear (q : Quotes) (tokens : List Token) : Prop where
  unmarked : ∀ token ∈ tokens, q.Unmarked token
  apart : tokens.IsChain q.Apart

instance (q : Quotes) : DecidablePred (Clear q) := fun tokens =>
  decidable_of_iff ((∀ token ∈ tokens, q.Unmarked token) ∧ tokens.IsChain q.Apart)
    ⟨fun h => ⟨h.1, h.2⟩, fun h => ⟨h.1, h.2⟩⟩

variable {q : Quotes}

theorem Clear.tail {token : Token} {rest : List Token} (h : Clear q (token :: rest)) :
    Clear q rest where
  unmarked next hnext := h.unmarked next (List.mem_cons_of_mem _ hnext)
  apart := h.apart.tail

/-- The text of some tokens begins with the first character of the first one. -/
theorem head?_write (tokens : List Token) : (write q tokens).head? = tokens.head?.map q.first := by
  cases tokens with
  | nil => rfl
  | cons token rest => cases token <;> rfl

/-- A token in front of others. -/
theorem Clear.cons {token : Token} {rest : List Token} (htoken : q.Unmarked token)
    (happart : ∀ next ∈ rest.head?, q.Apart token next) (hrest : Clear q rest) :
    Clear q (token :: rest) where
  unmarked := List.forall_mem_cons.2 ⟨htoken, hrest.unmarked⟩
  apart := List.isChain_cons.2 ⟨happart, hrest.apart⟩

/-- What comes after a quoted text does not begin with its closing mark. -/
theorem Clear.head? {kind : Kind} {text : List Char} {rest : List Token}
    (h : Clear q (.quoted kind text :: rest)) : (write q rest).head? ≠ some (q.closing kind) := by
  rw [head?_write, Ne, Option.map_eq_some_iff]
  rintro ⟨next, hnext, hfirst⟩
  exact (List.isChain_cons.1 h.apart).1 next hnext hfirst

/-! ### What was written is read back -/

/-- A quoted text is read up to its closing mark. -/
theorem lexFrom_inside (kind : Kind) (before text rest : List Char) :
    lexFrom q (.inside kind before) (double (q.closing kind) text ++ q.closing kind :: rest)
      = lexFrom q (.closed kind (before ++ text)) rest := by
  induction text generalizing before with
  | nil => simp [double, lexFrom, step]
  | cons c text ih =>
    by_cases hc : c = q.closing kind
    · subst hc
      have hrest := ih (before ++ [q.closing kind])
      simp only [double, List.flatMap_cons, if_pos, List.cons_append, List.nil_append, lexFrom,
        step] at hrest ⊢
      simpa using hrest
    · have hrest := ih (before ++ [c])
      simp only [double, List.flatMap_cons, if_neg hc, List.cons_append, List.nil_append, lexFrom,
        step] at hrest ⊢
      simpa using hrest

/-- A quoted text ends where its closing mark is not followed by another. -/
theorem lexFrom_closed {kind : Kind} {text rest : List Char}
    (hrest : rest.head? ≠ some (q.closing kind)) :
    lexFrom q (.closed kind text) rest = (lex q rest).map (.quoted kind text :: ·) := by
  cases rest with
  | nil => rfl
  | cons c rest =>
    have hc : c ≠ q.closing kind := by simpa using hrest
    simp [lex, lexFrom, step, if_neg hc, Function.comp_def]

/-- A quoted text begins with its opening mark, unless that opens a name and is an apostrophe. -/
theorem begin_opening {kind : Kind} {text : List Char} (h : q.Unmarked (.quoted kind text)) :
    begin q (q.opening kind) = (.inside kind [], []) := by
  cases kind with
  | name => simp [begin, Quotes.opening]
  | literal =>
    have hleft : '\'' ≠ q.left := (h rfl).symm
    simp [begin, Quotes.opening, if_neg hleft]

theorem write_quoted (kind : Kind) (text : List Char) (rest : List Token) :
    write q (.quoted kind text :: rest) = q.opening kind ::
      (double (q.closing kind) text ++ q.closing kind :: write q rest) := by
  simp [write, Token.write]

/-- **Tokens that can be told apart** are read back from their text. -/
theorem lex_write {tokens : List Token} (h : Clear q tokens) :
    lex q (write q tokens) = some tokens := by
  induction tokens with
  | nil => rfl
  | cons token rest ih =>
    have hrest := ih h.tail
    have htoken := h.unmarked token List.mem_cons_self
    cases token with
    | symbol c =>
      obtain ⟨hleft, hquote⟩ := htoken
      change lexFrom q .plain (c :: write q rest) = _
      simp only [lexFrom, step, begin, if_neg hleft, if_neg hquote]
      exact congrArg (Option.map _) hrest
    | quoted kind text =>
      rw [write_quoted, lex, lexFrom, step, begin_opening htoken, lexFrom_inside,
        lexFrom_closed h.head?, hrest]
      rfl

/-! ### Nothing else is -/

/-- From inside a quoted text on, the first token is a quoted text that goes on from there. -/
theorem lexFrom_quoted {kind : Kind} {cs : List Char} {tokens : List Token} :
    ∀ {text : List Char}, lexFrom q (.inside kind text) cs = some tokens ∨
        lexFrom q (.closed kind text) cs = some tokens →
      ∃ more rest, tokens = .quoted kind (text ++ more) :: rest := by
  induction cs generalizing tokens with
  | nil =>
    rintro text (h | h)
    · simp [lexFrom, State.finish] at h
    · exact ⟨[], [], by simpa [lexFrom, State.finish, eq_comm] using h⟩
  | cons c cs ih =>
    rintro text (h | h)
    -- the text goes on in both states, but for a mark that is not doubled
    · by_cases hc : c = q.closing kind
      · simp only [lexFrom, step, if_pos hc, List.nil_append, Option.map_id'] at h
        exact ih (.inr h)
      · simp only [lexFrom, step, if_neg hc, List.nil_append, Option.map_id'] at h
        obtain ⟨more, rest, hmore⟩ := ih (.inl h)
        exact ⟨c :: more, rest, by simpa using hmore⟩
    · by_cases hc : c = q.closing kind
      · simp only [lexFrom, step, if_pos hc, List.nil_append, Option.map_id'] at h
        obtain ⟨more, rest, hmore⟩ := ih (.inl h)
        exact ⟨c :: more, rest, by simpa using hmore⟩
      · simp only [lexFrom, step, if_neg hc, Option.map_eq_some_iff] at h
        obtain ⟨rest, -, rfl⟩ := h
        exact ⟨[], (begin q c).2 ++ rest, by simp⟩

/-- A second closing mark makes the quoted text go on. -/
theorem lexFrom_closed_of_head? {kind : Kind} {text cs : List Char} {tokens : List Token}
    (hcs : cs.head? = some (q.closing kind)) :
    lexFrom q (.closed kind text) cs ≠ some (.quoted kind text :: tokens) := by
  cases cs with
  | nil => simp at hcs
  | cons c cs =>
    obtain rfl : c = q.closing kind := by simpa using hcs
    intro h
    simp only [lexFrom, step, if_true, List.nil_append, Option.map_id'] at h
    obtain ⟨more, rest, hmore⟩ := lexFrom_quoted (.inl h)
    simp at hmore

/-- **Exactly the tokens that can be told apart** are read back from their text. -/
theorem lex_write_iff {tokens : List Token} :
    lex q (write q tokens) = some tokens ↔ Clear q tokens := by
  refine ⟨fun h => ?_, lex_write⟩
  induction tokens with
  | nil => exact ⟨by simp, by simp⟩
  | cons token rest ih =>
    cases token with
    | symbol c =>
      change lexFrom q .plain (c :: write q rest) = _ at h
      -- An opening mark would have been read as the beginning of a quoted text.
      have hmark : ∀ kind, begin q c ≠ (.inside kind [], []) := by
        intro kind hbegin
        simp only [lexFrom, step, hbegin, List.nil_append, Option.map_id'] at h
        obtain ⟨more, rest', htokens⟩ := lexFrom_quoted (.inl h)
        simp at htokens
      have hleft : c ≠ q.left := fun hc => hmark .name (by simp [begin, hc])
      have hquote : c ≠ '\'' := fun hc => hmark .literal (by rw [begin, if_neg hleft, if_pos hc])
      refine Clear.cons ⟨hleft, hquote⟩ (fun next _ => trivial) (ih ?_)
      simpa [lex, lexFrom, step, begin, if_neg hleft, if_neg hquote] using h
    | quoted kind text =>
      rw [write_quoted, lex, lexFrom, step] at h
      have hunmarked : q.Unmarked (.quoted kind text) := by
        rintro rfl hleft
        simp only [Quotes.opening, begin, hleft, if_true, List.nil_append, Option.map_id'] at h
        obtain ⟨more, rest', htokens⟩ := lexFrom_quoted (.inl h)
        simp at htokens
      rw [begin_opening hunmarked] at h
      simp only [List.nil_append, Option.map_id', lexFrom_inside] at h
      have hhead : (write q rest).head? ≠ some (q.closing kind) :=
        fun hhead => lexFrom_closed_of_head? hhead h
      refine Clear.cons hunmarked (fun next hnext hfirst => hhead ?_) (ih ?_)
      · rw [head?_write, hnext, ← hfirst]
        rfl
      · rw [lexFrom_closed hhead] at h
        simpa using h

/-! ### Nothing is lost -/

/-- What was read of the token that the reader is in. -/
def State.written (q : Quotes) : State → List Char
  | .plain => []
  | .inside kind text => q.opening kind :: double (q.closing kind) text
  | .closed kind text => q.opening kind :: double (q.closing kind) text ++ [q.closing kind]

theorem write_append (tokens rest : List Token) :
    write q (tokens ++ rest) = write q tokens ++ write q rest :=
  List.flatMap_append

/-- A character goes to the tokens that it ends or to the one that is read. -/
theorem written_step (state : State) (c : Char) :
    write q (step q state c).2 ++ (step q state c).1.written q = state.written q ++ [c] := by
  have hbegin : write q (begin q c).2 ++ (begin q c).1.written q = [c] := by
    by_cases hleft : c = q.left
    · simp [begin, hleft, write, State.written, Quotes.opening, double]
    by_cases hquote : c = '\''
    · simp [begin, hquote, hquote ▸ hleft, write, State.written, Quotes.opening, double]
    · simp [begin, hleft, hquote, write, Token.write, State.written]
  cases state with
  | plain => exact hbegin
  | inside kind text =>
    by_cases hc : c = q.closing kind <;>
      simp [step, hc, write, State.written, double]
  | closed kind text =>
    by_cases hc : c = q.closing kind
    · simp [step, hc, write, State.written, double]
    · have htokens : write q (.quoted kind text :: (begin q c).2)
          = State.written q (.closed kind text) ++ write q (begin q c).2 := rfl
      simp only [step, if_neg hc, htokens, List.append_assoc, hbegin]

theorem write_of_lexFrom {cs : List Char} {state : State} {tokens : List Token}
    (h : lexFrom q state cs = some tokens) : write q tokens = state.written q ++ cs := by
  induction cs generalizing state tokens with
  | nil =>
    cases state with
    | plain => simp_all [lexFrom, State.finish, State.written, write]
    | inside kind text => simp [lexFrom, State.finish] at h
    | closed kind text =>
      obtain rfl : [.quoted kind text] = tokens := by simpa [lexFrom, State.finish] using h
      simp [write, Token.write, State.written]
  | cons c cs ih =>
    obtain ⟨rest, hrest, rfl⟩ := Option.map_eq_some_iff.1 h
    rw [write_append, ih hrest, ← List.append_assoc, written_step, List.append_assoc]
    rfl

/-- The text of the tokens of a text is the text. -/
theorem write_of_lex {cs : List Char} {tokens : List Token} (h : lex q cs = some tokens) :
    write q tokens = cs :=
  write_of_lexFrom h

/-- **What a text is read as**: the clear tokens of which it is the text. -/
theorem lex_eq_some_iff {cs : List Char} {tokens : List Token} :
    lex q cs = some tokens ↔ write q tokens = cs ∧ Clear q tokens := by
  constructor
  · intro h
    have hwrite := write_of_lex h
    subst hwrite
    exact ⟨rfl, lex_write_iff.1 h⟩
  · rintro ⟨rfl, hclear⟩
    exact lex_write hclear

/-! ### Shapes -/

/-- A token without what is quoted in it. -/
def Token.shape : Token → Token
  | .quoted kind _ => .quoted kind []
  | .symbol c => .symbol c

/-- Whether tokens can be told apart does not depend on what is quoted in them. -/
theorem clear_map_shape {tokens : List Token} :
    Clear q (tokens.map Token.shape) ↔ Clear q tokens := by
  have hunmarked : ∀ token : Token, q.Unmarked token.shape ↔ q.Unmarked token := by
    rintro (_ | _) <;> rfl
  have happart : ∀ token next : Token, q.Apart token.shape next.shape ↔ q.Apart token next := by
    rintro (_ | _) (_ | _) <;> rfl
  constructor
  · rintro ⟨h, hchain⟩
    refine ⟨fun token htoken => (hunmarked token).1 (h _ (List.mem_map_of_mem htoken)), ?_⟩
    exact ((List.isChain_map _).1 hchain).imp fun token next => (happart token next).1
  · rintro ⟨h, hchain⟩
    refine ⟨List.forall_mem_map.2 fun token htoken => (hunmarked token).2 (h token htoken), ?_⟩
    exact (List.isChain_map _).2 (hchain.imp fun token next => (happart token next).2)

/-! ### Lists of names -/

/-- Some names with a separator between them. -/
def joined (separator : String) (names : List String) : List Token :=
  (symbols separator).intercalate (names.map fun name => [.quoted .name name.toList])

/-- The texts that are quoted, in order. -/
def texts (tokens : List Token) : List (List Char) :=
  tokens.filterMap fun
    | .quoted _ text => some text
    | .symbol _ => none

theorem texts_append (tokens rest : List Token) :
    texts (tokens ++ rest) = texts tokens ++ texts rest :=
  List.filterMap_append

theorem texts_symbols (text : String) : texts (symbols text) = [] := by
  simp [texts, symbols, List.filterMap_map]

/-- What is quoted in a list of names is the names. -/
theorem texts_joined (separator : String) (names : List String) :
    texts (joined separator names) = names.map String.toList := by
  induction names with
  | nil => rfl
  | cons name names ih =>
    cases names with
    | nil => rfl
    | cons next names =>
      simp only [joined, List.map_cons, List.intercalate_cons_cons, texts_append,
        texts_symbols] at ih ⊢
      rw [ih]
      rfl

/-- The symbols of a list of names are those of the separator. -/
theorem count_joined {c : Char} {separator : String} (hc : c ∉ separator.toList)
    (names : List String) : (joined separator names).count (.symbol c) = 0 := by
  have hseparator : (symbols separator).count (.symbol c) = 0 := by
    rw [List.count_eq_zero, symbols, List.mem_map]
    rintro ⟨d, hd, hdc⟩
    exact hc (Token.symbol.inj hdc ▸ hd)
  induction names with
  | nil => rfl
  | cons name names ih =>
    cases names with
    | nil => simp [joined]
    | cons next names =>
      simp only [joined, List.map_cons, List.intercalate_cons_cons, List.count_append] at ih ⊢
      rw [ih, hseparator]
      simp

theorem write_symbols (text : String) : write q (symbols text) = text.toList := by
  simp [write, symbols, List.flatMap_map, Token.write]

theorem write_joined (separator : String) (names : List String) :
    write q (joined separator names) = separator.toList.intercalate
      (names.map fun name => Token.write q (.quoted .name name.toList)) := by
  induction names with
  | nil => rfl
  | cons name names ih =>
    cases names with
    | nil => simp [joined, write]
    | cons next names =>
      simp only [joined, List.map_cons, List.intercalate_cons_cons] at ih ⊢
      rw [write_append, write_append, ih, write_symbols]
      simp [write]

/-- The length of a name with the separator after it. -/
def width (q : Quotes) (separator name : String) : ℕ :=
  (Token.write q (.quoted .name name.toList)).length + separator.length

theorem two_le_width (separator name : String) :
    2 + separator.length ≤ width q separator name := by
  simp only [width, Token.write, List.length_append, List.length_cons, List.length_nil]
  omega

theorem length_write_joined (separator : String) (names : List String) :
    (write q (joined separator names)).length
      = (names.map (width q separator)).sum - separator.length := by
  rw [write_joined]
  induction names with
  | nil => simp
  | cons name names ih =>
    cases names with
    | nil => simp [width]
    | cons next names =>
      have hnext := two_le_width (q := q) separator next
      simp only [List.map_cons, List.intercalate_cons_cons, List.length_append,
        List.sum_cons] at ih ⊢
      rw [ih, String.length_toList]
      change _ = width q separator name + _ - _
      unfold width at hnext ⊢
      omega

theorem sum_width_filter_le (separator : String) (names : List String) (p : String → Bool) :
    ((names.filter p).map (width q separator)).sum ≤ (names.map (width q separator)).sum :=
  (List.filter_sublist.map _).sum_le_sum fun _ _ => Nat.zero_le _

/-- Names that are left out are missed in the sum. -/
theorem sum_width_filter {separator : String} {names : List String} {p : String → Bool}
    (h : ¬ ∀ name ∈ names, p name = true) :
    ((names.filter p).map (width q separator)).sum + (2 + separator.length)
      ≤ (names.map (width q separator)).sum := by
  induction names with
  | nil => simp at h
  | cons name names ih =>
    have hwidth := two_le_width (q := q) separator name
    by_cases hp : p name
    · have hrest := ih fun hall => h (List.forall_mem_cons.2 ⟨hp, hall⟩)
      simp only [List.filter_cons_of_pos hp, List.map_cons, List.sum_cons]
      omega
    · have hle := sum_width_filter_le (q := q) separator names p
      simp only [List.filter_cons_of_neg hp, List.map_cons, List.sum_cons]
      omega

theorem length_write_joined_filter_le (separator : String) (names : List String)
    (p : String → Bool) : (write q (joined separator (names.filter p))).length
      ≤ (write q (joined separator names)).length := by
  rw [length_write_joined, length_write_joined]
  have hle := sum_width_filter_le (q := q) separator names p
  omega

/-- **Names that are left out** make the text shorter. -/
theorem length_write_joined_filter_iff {separator : String} {names : List String}
    {p : String → Bool} :
    (write q (joined separator (names.filter p))).length
        = (write q (joined separator names)).length
      ↔ ∀ name ∈ names, p name = true := by
  constructor
  · intro h
    by_contra hout
    have hless := @sum_width_filter q separator _ _ hout
    rw [length_write_joined, length_write_joined] at h
    omega
  · intro h
    rw [List.filter_eq_self.2 h]

end Quoting
