import NavopExtensions.Duckdb.Session
import NavopExtensions.Lib.SqlText

/-!
# What DuckDB is asked for a page and for an export

A page of a cursor and the columns of an export are selected from the user's query, which is put
between parentheses after the semicolons at its end are gone. Nothing is put between the query and the
parenthesis behind it, so that a query that ends in a comment to the end of its line takes the
parenthesis and all that follows into the comment (`wrapped_intact_iff`).
-/

namespace Navop
namespace Duckdb
namespace Wrapping

open SqlText

/-- The loop of `trimmed_query_sql`. -/
def stripSemicolons (trimmed : List Char) : List Char :=
  if trimmed.getLast? = some ';' then stripSemicolons (Text.trimEnd trimmed.dropLast) else trimmed
termination_by trimmed.length
decreasing_by
  have hne : trimmed ≠ [] := by
    rintro rfl
    cases ‹_›
  have hlength : (Text.trimEnd trimmed.dropLast).length ≤ trimmed.dropLast.length :=
    (List.rdropWhile_prefix _ _).length_le
  have hpos : 0 < trimmed.length := List.length_pos_of_ne_nil hne
  rw [List.length_dropLast] at hlength
  omega

/-- `trimmed_query_sql`: without blanks at the ends, and without the semicolons at the last one. -/
def trimmedQuerySql (sql : List Char) : List Char := stripSemicolons (Text.trim sql)

/-- `page_query_sql`: the statement as a subquery, with a limit and an offset. -/
def pageQuerySql (sql : List Char) (limit offset : ℕ) : List Char :=
  "SELECT * FROM (".toList ++ trimmedQuerySql sql ++ ") AS __navop_cursor_page LIMIT ".toList
    ++ Nat.toDigits 10 limit ++ " OFFSET ".toList ++ Nat.toDigits 10 offset

/-- `ExportParams`, as far as it says what is exported. -/
structure ExportParams where
  sql : Option (List Char)
  table : Option (List Char)
  schema : Option (List Char)
  whereClause : Option (List Char)

/-- `table_export_sql`: all columns of the table, with the condition of the request as it is. -/
def tableExportSql (params : ExportParams) (table : List Char) : List Char :=
  let tableName :=
    match params.schema.filter (!·.isEmpty) with
    | some schema => quoteSqlIdentifier schema ++ '.' :: quoteSqlIdentifier table
    | none => quoteSqlIdentifier table
  let sql := "SELECT * FROM ".toList ++ tableName
  match params.whereClause.filter fun value => !(Text.trim value).isEmpty with
  | some whereClause => sql ++ " WHERE ".toList ++ whereClause
  | none => sql

/-- `raw_export_sql`: a statement or a table, and not both. -/
def rawExportSql (params : ExportParams) : Except ProtocolError (List Char) :=
  match params.sql, params.table with
  | some _, some _ => .error (invalidParams "data/export accepts either sql or table")
  | some sql, none =>
    if (Text.trim sql).isEmpty then .error (invalidParams "data/export requires sql or table")
    else .ok (trimmedQuerySql sql)
  | none, some table =>
    if (Text.trim table).isEmpty then .error (invalidParams "data/export requires sql or table")
    else .ok (tableExportSql params table)
  | none, none => .error (invalidParams "data/export requires sql or table")

/-- `apply_export_projection`: the statement as a subquery, from which the columns are selected. -/
def applyExportProjection (rawSql : List Char) (columns : List (List Char)) : List Char :=
  let projection := ", ".toList.intercalate (columns.map quoteSqlIdentifier)
  "SELECT ".toList ++ projection ++ " FROM (".toList ++ rawSql
    ++ ") AS __navop_export_source".toList

/-! ### What the wrappers are made of -/

/-- The tokens in front of a query of which a page is asked for. -/
def pageOpening : List Item :=
  [.word "SELECT".toList, .symbol '*', .word "FROM".toList, .symbol '(']

/-- The tokens behind it. -/
def pageClosing (limit offset : ℕ) : List Item :=
  [.symbol ')', .word "AS".toList, .word "__navop_cursor_page".toList, .word "LIMIT".toList,
    .word (Nat.toDigits 10 limit), .word "OFFSET".toList, .word (Nat.toDigits 10 offset)]

/-- The tokens in front of a query that is exported. -/
def exportOpening (columns : List (List Char)) : List Item :=
  .word "SELECT".toList :: (columns.map .quoted).intersperse (.symbol ',')
    ++ [.word "FROM".toList, .symbol '(']

/-- The tokens behind it. -/
def exportClosing : List Item :=
  [.symbol ')', .word "AS".toList, .word "__navop_export_source".toList]

/-- Every page is asked of the whole query, and of nothing else. -/
def PageIntact (sql : List Char) : Prop :=
  ∀ limit offset, tokens (pageQuerySql sql limit offset)
    = (tokens sql).map fun own =>
        pageOpening ++ withoutSemicolons own ++ pageClosing limit offset

/-- All columns are selected from the whole query, and from nothing else. -/
def ExportIntact (sql : List Char) : Prop :=
  ∀ params columns rawSql, params.sql = some sql → rawExportSql params = .ok rawSql →
    tokens (applyExportProjection rawSql columns)
      = (tokens sql).map fun own =>
          exportOpening columns ++ withoutSemicolons own ++ exportClosing

/-! ### The query in the middle -/

theorem rdropWhile_rdropWhile {α : Type*} {p q : α → Bool} (hpq : ∀ a, q a = true → p a = true)
    (l : List α) : (l.rdropWhile q).rdropWhile p = l.rdropWhile p := by
  induction l using List.reverseRecOn with
  | nil => rfl
  | append_singleton l a ih =>
    by_cases ha : q a = true
    · rw [List.rdropWhile_concat_pos _ _ _ ha, ih, List.rdropWhile_concat_pos _ _ _ (hpq a ha)]
    · rw [List.rdropWhile_concat_neg _ _ _ ha]

theorem isTrailing_of_isWhitespace (c : Char) (hc : Text.isWhitespace c = true) :
    isTrailing c = true := by
  unfold isTrailing
  rw [hc, Bool.or_true]

/-- The loop takes all semicolons and blanks off the end of a text that ends in no blank. -/
theorem stripSemicolons_eq (trimmed : List Char) (htrimmed : Text.trimEnd trimmed = trimmed) :
    stripSemicolons trimmed = trimmed.rdropWhile isTrailing := by
  induction trimmed using stripSemicolons.induct with
  | case1 trimmed hlast ih =>
    rw [stripSemicolons, if_pos hlast]
    obtain ⟨init, rfl⟩ := List.getLast?_eq_some_iff.mp hlast
    rw [List.dropLast_concat] at ih ⊢
    rw [ih (List.rdropWhile_idempotent _ _), List.rdropWhile_concat_pos _ _ _ (by decide)]
    exact rdropWhile_rdropWhile isTrailing_of_isWhitespace init
  | case2 trimmed hlast =>
    rw [stripSemicolons, if_neg hlast, eq_comm, List.rdropWhile_eq_self_iff]
    intro hne htrailing
    rcases Bool.or_eq_true_iff.mp htrailing with hsemicolon | hblank
    · apply hlast
      rw [List.getLast?_eq_some_getLast hne, of_decide_eq_true hsemicolon]
    · exact (List.rdropWhile_eq_self_iff.mp htrimmed) hne hblank

theorem trimmedQuerySql_eq (sql : List Char) :
    trimmedQuerySql sql = (Text.trimStart sql).rdropWhile isTrailing :=
  (stripSemicolons_eq _ (List.rdropWhile_idempotent _ _)).trans
    (rdropWhile_rdropWhile isTrailing_of_isWhitespace _)

/-- A query is its middle, between blanks and semicolons. -/
theorem exists_tail (sql : List Char) :
    ∃ tail, lex sql = lex (trimmedQuerySql sql ++ tail) ∧ (∀ c ∈ tail, isTrailing c = true) ∧
      ∀ c, (trimmedQuerySql sql).getLast? = some c → isTrailing c = false := by
  rw [trimmedQuerySql_eq]
  refine ⟨(Text.trimStart sql).rtakeWhile isTrailing, ?_, ?_, ?_⟩
  · rw [List.rdropWhile_append_rtakeWhile]
    conv_lhs => rw [← List.takeWhile_append_dropWhile (p := Text.isWhitespace) (l := sql)]
    exact lex_blanks (fun c hc => List.mem_takeWhile_imp hc) _
  · exact fun c hc => List.mem_rtakeWhile_imp hc
  · intro c hc
    obtain ⟨hne, hlast⟩ := List.mem_getLast?_eq_getLast hc
    rw [hlast]
    exact Bool.eq_false_iff.mpr (List.rdropWhile_last_not _ _ hne)

/-- What stands between parentheses is the query, if it is seamless. -/
theorem middle_iff {sql opening rest : List Char} {before after items : List Item}
    (hopening : run .plain opening = (.plain, before)) (hrest : lexFrom .plain rest = some after)
    (hline : ∀ c ∈ rest, c ≠ '\n' ∧ c ≠ '\r') (hlex : lex sql = some items) :
    tokens (opening ++ trimmedQuerySql sql ++ ')' :: rest)
        = (tokens sql).map (fun own => tokensOf before ++ withoutSemicolons own
            ++ .symbol ')' :: tokensOf after)
      ↔ Seamless items := by
  obtain ⟨tail, htail, htrailing, hlast⟩ := exists_tail sql
  have hown : tokens sql = some (tokensOf items) := by
    unfold tokens
    rw [hlex]
    rfl
  rw [hown]
  exact wrapped_iff hopening hrest hline hlast htrailing (htail ▸ hlex)

/-! ### The wrappers -/

theorem isWordChar_of_mem_toDigits {c : Char} {n : ℕ} (hc : c ∈ Nat.toDigits 10 n) :
    isWordChar c = true :=
  isWordChar_of_isDigit (Nat.isDigit_of_mem_toDigits (by decide) (by decide) hc)

theorem not_newline_of_isDigit {c : Char} (hc : c.isDigit = true) : c ≠ '\n' ∧ c ≠ '\r' := by
  constructor <;>
  · rintro rfl
    exact absurd hc (by decide)

theorem run_toDigits (n : ℕ) : run .plain (Nat.toDigits 10 n) = (.word (Nat.toDigits 10 n), []) :=
  run_plain_word (fun _ hc => isWordChar_of_mem_toDigits hc) Nat.toDigits_ne_nil

/-- Between the parenthesis behind a page's query and its numbers. -/
def pageRest (limit offset : ℕ) : List Char :=
  " AS __navop_cursor_page LIMIT ".toList ++ (Nat.toDigits 10 limit
    ++ (' ' :: "OFFSET ".toList ++ Nat.toDigits 10 offset))

theorem pageQuerySql_eq (sql : List Char) (limit offset : ℕ) :
    pageQuerySql sql limit offset
      = "SELECT * FROM (".toList ++ trimmedQuerySql sql ++ ')' :: pageRest limit offset := by
  have hclosing : ") AS __navop_cursor_page LIMIT ".toList
      = ')' :: " AS __navop_cursor_page LIMIT ".toList := by decide
  have hoffset : " OFFSET ".toList = ' ' :: "OFFSET ".toList := by decide
  unfold pageQuerySql pageRest
  rw [hclosing, hoffset]
  simp only [List.append_assoc, List.cons_append]

theorem lexFrom_pageRest (limit offset : ℕ) :
    lexFrom .plain (pageRest limit offset) = some (pageClosing limit offset).tail := by
  have hrest : run .plain " AS __navop_cursor_page LIMIT ".toList
      = (.plain, [.word "AS".toList, .word "__navop_cursor_page".toList, .word "LIMIT".toList]) := by
    decide
  have hoffset : run .plain "OFFSET ".toList = (.plain, [.word "OFFSET".toList]) := by
    decide
  have hblank : feed (.word (Nat.toDigits 10 limit)) ' '
      = (.plain, [.word (Nat.toDigits 10 limit)]) :=
    feed_blank rfl nofun (blank_of_isWhitespace (by decide))
  unfold pageRest
  rw [lexFrom_append, hrest, lexFrom_append, run_toDigits, List.cons_append, lexFrom_cons, hblank,
    lexFrom_append, hoffset]
  unfold lexFrom
  rw [run_toDigits]
  rfl

theorem not_newline_of_all {cs : List Char}
    (hcs : cs.all (fun c => c != '\n' && c != '\r') = true) : ∀ c ∈ cs, c ≠ '\n' ∧ c ≠ '\r' := by
  simpa using hcs

theorem not_newline_of_mem_pageRest {limit offset : ℕ} :
    ∀ c ∈ pageRest limit offset, c ≠ '\n' ∧ c ≠ '\r' := by
  have hrest : ∀ c ∈ " AS __navop_cursor_page LIMIT ".toList, c ≠ '\n' ∧ c ≠ '\r' :=
    not_newline_of_all (by decide)
  have hoffset : ∀ c ∈ ' ' :: "OFFSET ".toList, c ≠ '\n' ∧ c ≠ '\r' :=
    not_newline_of_all (by decide)
  have hdigits : ∀ n, ∀ c ∈ Nat.toDigits 10 n, c ≠ '\n' ∧ c ≠ '\r' := fun n c hc =>
    not_newline_of_isDigit (Nat.isDigit_of_mem_toDigits (by decide) (by decide) hc)
  intro c hc
  unfold pageRest at hc
  rw [List.mem_append, List.mem_append, List.mem_append] at hc
  rcases hc with hc | hc | hc | hc
  · exact hrest c hc
  · exact hdigits limit c hc
  · exact hoffset c hc
  · exact hdigits offset c hc

theorem tokensOf_pageOpening : tokensOf pageOpening = pageOpening := rfl

theorem tokensOf_pageClosing (limit offset : ℕ) :
    .symbol ')' :: tokensOf (pageClosing limit offset).tail = pageClosing limit offset := rfl

theorem pageIntact_iff {sql : List Char} {items : List Item} (hlex : lex sql = some items) :
    PageIntact sql ↔ Seamless items := by
  have hopening : run .plain "SELECT * FROM (".toList = (.plain, pageOpening) := by decide
  have hiff : ∀ limit offset, tokens (pageQuerySql sql limit offset)
      = (tokens sql).map (fun own =>
          pageOpening ++ withoutSemicolons own ++ pageClosing limit offset) ↔ Seamless items := by
    intro limit offset
    have hmiddle := middle_iff hopening (lexFrom_pageRest limit offset) not_newline_of_mem_pageRest
      hlex
    rwa [tokensOf_pageOpening, tokensOf_pageClosing, ← pageQuerySql_eq] at hmiddle
  exact ⟨fun h => (hiff 0 0).mp (h 0 0), fun h limit offset => (hiff limit offset).mpr h⟩

/-- A quoted name is an item of its own, with whatever stands behind it. -/
theorem run_quoteSqlIdentifier (name after : List Char) :
    run .plain (quoteSqlIdentifier name ++ after) = run (.quotedQuote name) after := by
  have hquote : feed .plain '"' = (.quoted [], []) := by decide
  unfold quoteSqlIdentifier
  rw [List.cons_append, List.cons_append, run_cons, hquote, List.append_assoc]
  exact run_quoted name [] after

/-- The columns of an export up to the query. -/
theorem run_projection (columns : List (List Char)) :
    run .plain (", ".toList.intercalate (columns.map quoteSqlIdentifier) ++ " FROM (".toList)
      = (.plain, (columns.map .quoted).intersperse (.symbol ',')
          ++ [.word "FROM".toList, .symbol '(']) := by
  have hcomma : ", ".toList = [',', ' '] := by decide
  have hfrom : " FROM (".toList = ' ' :: "FROM (".toList := by decide
  have hrun : run .plain "FROM (".toList = (.plain, [.word "FROM".toList, .symbol '(']) := by
    decide
  -- a blank between two tokens gives none of its own
  have hblank : feed .plain ' ' = (.plain, []) := by decide
  rw [hcomma, hfrom]
  induction columns with
  | nil =>
    change run .plain (' ' :: _) = _
    rw [run_cons, hblank, hrun]
    rfl
  | cons column columns ih =>
    cases columns with
    | nil =>
      have hend : feed (.quotedQuote column) ' ' = (.plain, [.quoted column]) :=
        feed_blank rfl nofun (blank_of_isWhitespace (by decide))
      change run .plain (quoteSqlIdentifier column ++ [] ++ _) = _
      rw [List.append_nil, run_quoteSqlIdentifier, run_cons, hend, hrun]
      rfl
    | cons next columns =>
      -- a quoted name is ended by the comma or the blank behind it
      have hend : feed (.quotedQuote column) ',' = (.plain, [.quoted column, .symbol ',']) :=
        @feed_delimiter (.quotedQuote column) [.quoted column] ',' rfl nofun delimiter_comma
      rw [List.map_cons, List.map_cons, List.intercalate_cons_cons, ← List.map_cons,
        List.append_assoc, List.append_assoc, run_quoteSqlIdentifier, List.cons_append, run_cons,
        hend, List.cons_append, run_cons, hblank, List.nil_append, ih]
      rfl

/-- Behind the parenthesis behind an export's query. -/
def exportRest : List Char := " AS __navop_export_source".toList

theorem applyExportProjection_eq (sql : List Char) (columns : List (List Char)) :
    applyExportProjection sql columns
      = "SELECT ".toList ++ (", ".toList.intercalate (columns.map quoteSqlIdentifier)
          ++ " FROM (".toList) ++ sql ++ ')' :: exportRest := by
  have hclosing : ") AS __navop_export_source".toList = ')' :: exportRest := by decide
  unfold applyExportProjection
  rw [hclosing]
  simp only [List.append_assoc]

theorem run_exportOpening (columns : List (List Char)) :
    run .plain ("SELECT ".toList ++ (", ".toList.intercalate (columns.map quoteSqlIdentifier)
      ++ " FROM (".toList)) = (.plain, exportOpening columns) := by
  have hselect : run .plain "SELECT ".toList = (.plain, [.word "SELECT".toList]) := by
    decide
  rw [run_append, hselect, run_projection]
  rfl

theorem tokensOf_columns (columns : List (List Char)) :
    tokensOf ((columns.map .quoted).intersperse (.symbol ','))
      = (columns.map .quoted).intersperse (.symbol ',') := by
  induction columns with
  | nil => rfl
  | cons column columns ih =>
    cases columns with
    | nil => rfl
    | cons next columns =>
      rw [List.map_cons, List.map_cons, List.intersperse_cons_cons, ← List.map_cons]
      change .quoted column :: .symbol ',' :: tokensOf _ = _
      rw [ih]

theorem tokensOf_exportOpening (columns : List (List Char)) :
    tokensOf (exportOpening columns) = exportOpening columns := by
  unfold exportOpening
  rw [tokensOf_append]
  change .word _ :: tokensOf ((columns.map .quoted).intersperse (.symbol ',')) ++ _ = _
  rw [tokensOf_columns]
  rfl

theorem tokensOf_exportClosing : .symbol ')' :: tokensOf exportClosing.tail = exportClosing := rfl

theorem rawExportSql_sql {sql : List Char} (hsql : (Text.trim sql).isEmpty = false) :
    rawExportSql ⟨some sql, none, none, none⟩ = .ok (trimmedQuerySql sql) := by
  unfold rawExportSql
  dsimp only
  rw [hsql]
  rfl

theorem exportIntact_of_seamless {sql : List Char} {items : List Item} (hlex : lex sql = some items)
    (h : Seamless items) : ExportIntact sql := by
  have hrest : lexFrom .plain exportRest = some exportClosing.tail := by decide
  have hline : ∀ c ∈ exportRest, c ≠ '\n' ∧ c ≠ '\r' := not_newline_of_all (by decide)
  intro params columns rawSql hsql hraw
  -- the statement is put in as it is only if the request has one
  have hmiddle : rawSql = trimmedQuerySql sql := by
    unfold rawExportSql at hraw
    rw [hsql] at hraw
    cases htable : params.table with
    | some table =>
      rw [htable] at hraw
      cases hraw
    | none =>
      rw [htable] at hraw
      dsimp only at hraw
      split at hraw
      · cases hraw
      · exact (Except.ok.inj hraw).symm
  rw [hmiddle, applyExportProjection_eq, ← tokensOf_exportOpening, ← tokensOf_exportClosing]
  exact (middle_iff (run_exportOpening columns) hrest hline hlex).mpr h

/-- **Paging and exports ask for the whole query.** Whatever query is read to its end, its pages and
its exports ask for its tokens without the semicolons behind them, between the tokens of the wrapper,
if and only if it is seamless. -/
theorem wrapped_intact_iff (sql : List Char) (items : List Item) (hlex : lex sql = some items) :
    PageIntact sql ∧ ExportIntact sql ↔ Seamless items :=
  ⟨fun h => (pageIntact_iff hlex).mp h.1,
    fun h => ⟨(pageIntact_iff hlex).mpr h, exportIntact_of_seamless hlex h⟩⟩

theorem wrapped_intact_iff_semicolon :
    lex "SELECT 1;".toList
        = some [.word "SELECT".toList, .word "1".toList, .symbol ';'] ∧
      (PageIntact "SELECT 1;".toList ∧ ExportIntact "SELECT 1;".toList
        ↔ Seamless [.word "SELECT".toList, .word "1".toList, .symbol ';']) :=
  have hlex : lex "SELECT 1;".toList
      = some [.word "SELECT".toList, .word "1".toList, .symbol ';'] := by decide
  ⟨hlex, wrapped_intact_iff _ _ hlex⟩

/-- A query with a comment at its end takes the wrapper into the comment. -/
theorem comment_swallows_wrapper :
    ∃ sql items, lex sql = some items ∧ balanced items = true ∧ ¬ PageIntact sql ∧
      ¬ ExportIntact sql := by
  have hlex : lex "SELECT 1 -- one".toList
      = some [.word "SELECT".toList, .word "1".toList, .lineComment] := by decide
  have htrimmed : trimmedQuerySql "SELECT 1 -- one".toList = "SELECT 1 -- one".toList := by
    rw [trimmedQuerySql_eq]
    decide
  have hraw : rawExportSql ⟨some "SELECT 1 -- one".toList, none, none, none⟩
      = .ok "SELECT 1 -- one".toList := by
    rw [rawExportSql_sql (by decide), htrimmed]
  refine ⟨"SELECT 1 -- one".toList, _, hlex, by decide, ?_, ?_⟩
  · intro h
    -- the rest of the line is a comment, with the closing bracket and the limit
    have hpage := h 1 0
    unfold pageQuerySql at hpage
    rw [htrimmed] at hpage
    exact absurd hpage (by decide)
  · intro h
    have hexport := h ⟨some "SELECT 1 -- one".toList, none, none, none⟩ ["a".toList]
      "SELECT 1 -- one".toList rfl hraw
    exact absurd hexport (by decide)

end Wrapping
end Duckdb
end Navop
