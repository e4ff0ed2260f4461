import NavopExtensions.Mobaxterm.Report

/-!
# Secrets of a file that are replaced

Two texts are the same but for their secrets, if their lines are, one by one: by the section, the value
of a line may be a ciphertext, or end in one after a user name, or have a password in its fifth field.
Then the files read from them are the same but for their secrets (`parse_replaced`).
-/

namespace Navop
namespace Mobaxterm

open Text

/-! ### Replacing -/

/-- The fifth field of a session is replaced. -/
def InlineReplaced (value value' : Str) : Prop :=
  isStandardPrefix value = true ∧
    ∃ x y z z' rest type host port username secret secret' more,
      value.splitOn '#' = x :: y :: z :: rest ∧ value'.splitOn '#' = x :: y :: z' :: rest ∧
      z.splitOn '%' = type :: host :: port :: username :: secret :: more ∧
      z'.splitOn '%' = type :: host :: port :: username :: secret' :: more ∧
      trim secret ≠ [] ∧ trim secret' ≠ []

/-- A ciphertext after a user name is replaced. -/
def CredentialReplaced (value value' : Str) : Prop :=
  ∃ username ciphertext ciphertext', splitOnce ':' value = some (username, ciphertext) ∧
    splitOnce ':' value' = some (username, ciphertext') ∧ trim ciphertext ≠ [] ∧ trim ciphertext' ≠ []

/-- The value of an entry is replaced, if it is or has a secret in its section. -/
def ValueReplaced (sectionName key value value' : Str) : Prop :=
  if asciiLower sectionName = "passwords".toList then value ≠ [] ∧ value' ≠ []
  else if asciiLower sectionName = "credentials".toList then CredentialReplaced value value'
  else eqIgnoreAsciiCase key "subrep".toList = false ∧ InlineReplaced value value'

/-- A line is the same, or the secret of its entry is replaced. What ends the field of a secret does not
belong to it: the line is still an entry with this key. -/
def LineReplaced (sectionName : Str) (line line' : Line) : Prop :=
  line = line' ∨ ∃ key value value', line = .entry key value ∧ line' = .entry key value' ∧
    asciiLower sectionName ≠ "misc".toList ∧ asciiLower sectionName ≠ "sesspass".toList ∧
    ValueReplaced sectionName key value value'

/-- The lines from a section on are the same but for their secrets. -/
inductive LinesReplaced : Str → List Str → List Str → Prop
  | nil (sectionName : Str) : LinesReplaced sectionName [] []
  | cons {sectionName raw raw' : Str} {lines lines' : List Str}
      (head : LineReplaced sectionName (lineOf raw) (lineOf raw'))
      (tail : LinesReplaced (sectionAfter sectionName (lineOf raw)) lines lines') :
      LinesReplaced sectionName (raw :: lines) (raw' :: lines')

/-- Two texts are the same but for their secrets. -/
def TextReplaced (text text' : Str) : Prop := LinesReplaced [] (lines text) (lines text')

theorem LinesReplaced.refl (sectionName : Str) (lines : List Str) :
    LinesReplaced sectionName lines lines := by
  induction lines generalizing sectionName with
  | nil => exact .nil sectionName
  | cons raw lines ih => exact .cons (Or.inl rfl) (ih _)

/-! ### Sessions -/

/-- Where a session leads is the same, but for its password. -/
structure Target.Similar (target target' : Target) : Prop where
  host : target.host = target'.host
  port : target.port = target'.port
  username : target.username = target'.username
  inlinePassword : target.inlinePassword = target'.inlinePassword ∨
    (target.inlinePassword.isSome = true ∧ target'.inlinePassword.isSome = true)

/-- What may stand before a session, without a `#`, is stripped from the text before the first one. -/
theorem strip_append {piece : Str} (hpiece : '#' ∉ piece) (before after : Str) :
    (((before ++ '#' :: after).dropPrefix? piece).map trimStart).getD (before ++ '#' :: after)
      = ((before.dropPrefix? piece).map trimStart).getD before ++ '#' :: after := by
  rw [dropPrefix?_append_cons _ _ hpiece]
  cases before.dropPrefix? piece with
  | none => rfl
  | some rest => exact trimStart_append_cons _ _ (by decide)

/-- What stands before the second `#` of a session stays at its beginning. -/
theorem sessionBody_append (before after : Str) :
    ∃ body, ∀ more, sessionBody (before ++ '#' :: (after ++ '#' :: more))
      = body ++ '#' :: (after ++ '#' :: trimEnd more) := by
  let rest := (((trimStart before).dropPrefix? [';']).map trimStart).getD (trimStart before)
  refine ⟨((rest.dropPrefix? "logout".toList).map trimStart).getD rest, fun more => ?_⟩
  unfold sessionBody
  rw [trim_append_cons _ _ (by decide), trimEnd_append_cons _ _ (by decide)]
  dsimp only
  rw [strip_append (by decide), strip_append (by decide)]

/-- The first two characters decide about the beginning of a session. -/
theorem isStandardPrefix_iff (value : Str) :
    isStandardPrefix value = true ↔
      ∃ digit, (sessionBody value).take 2 = ['#', digit] ∧ digit.isDigit = true := by
  unfold isStandardPrefix
  split
  · next digit more hbody =>
    rw [hbody]
    constructor
    · exact fun hdigit => ⟨digit, rfl, hdigit⟩
    · rintro ⟨other, hother, hdigit⟩
      cases hother
      exact hdigit
  · next hnone =>
    refine iff_of_false Bool.false_ne_true ?_
    rintro ⟨digit, htake, -⟩
    exact hnone digit ((sessionBody value).drop 2) (by
      rw [← List.take_append_drop 2 (sessionBody value), htake]
      simp)

/-- What comes after the second `#` of a session does not decide about its beginning. -/
theorem isStandardPrefix_append (before after more more' : Str) :
    isStandardPrefix (before ++ '#' :: (after ++ '#' :: more))
      = isStandardPrefix (before ++ '#' :: (after ++ '#' :: more')) := by
  obtain ⟨body, hbody⟩ := sessionBody_append before after
  have htake : ∀ more, (sessionBody (before ++ '#' :: (after ++ '#' :: more))).take 2
      = (body ++ '#' :: (after ++ ['#'])).take 2 := by
    intro more
    have hsplit : sessionBody (before ++ '#' :: (after ++ '#' :: more))
        = (body ++ '#' :: (after ++ ['#'])) ++ trimEnd more := by
      rw [hbody]
      simp
    rw [hsplit, List.take_append_of_le_length]
    simp
    omega
  rw [Bool.eq_iff_iff, isStandardPrefix_iff, isStandardPrefix_iff, htake, htake]

/-- The text of which a list of two fields and more was split. -/
theorem eq_of_splitOn {value x y z : Str} {rest : List Str}
    (h : value.splitOn '#' = x :: y :: z :: rest) :
    value = x ++ '#' :: (y ++ '#' :: ['#'].intercalate (z :: rest)) := by
  calc value = ['#'].intercalate (value.splitOn '#') := (List.intercalate_splitOn '#').symm
    _ = x ++ '#' :: (y ++ '#' :: ['#'].intercalate (z :: rest)) := by
      rw [h, List.intercalate_cons_of_ne_nil (List.cons_ne_nil _ _),
        List.intercalate_cons_of_ne_nil (List.cons_ne_nil _ _)]
      simp

theorem InlineReplaced.standard {value value' : Str} (h : InlineReplaced value value') :
    isStandardPrefix value' = true := by
  obtain ⟨hstandard, x, y, z, z', rest, -, -, -, -, -, -, -, hsplit, hsplit', -⟩ := h
  rw [eq_of_splitOn hsplit', isStandardPrefix_append x y _ (['#'].intercalate (z :: rest)),
    ← eq_of_splitOn hsplit]
  exact hstandard

section Fields

variable {value x y z type host port username secret : Str} {rest more : List Str}

theorem standardSessionType_eq (hsplit : value.splitOn '#' = x :: y :: z :: rest)
    (hfields : z.splitOn '%' = type :: host :: port :: username :: secret :: more) :
    standardSessionType value = trim type := by
  unfold standardSessionType
  rw [hsplit]
  change trim ((z.splitOn '%').head?.getD []) = _
  rw [hfields]
  rfl

/-- The target of a standard session with a password. -/
theorem parseStandardSession_eq (hstandard : isStandardPrefix value = true)
    (hsplit : value.splitOn '#' = x :: y :: z :: rest)
    (hfields : z.splitOn '%' = type :: host :: port :: username :: secret :: more)
    (hsecret : trim secret ≠ []) :
    parseStandardSession value
      = if trim type ≠ "0".toList && trim type ≠ "7".toList then none
        else some {
          host := trim host
          port := ((parsePort (trim port)).filter (· ≠ 0)).or (some 22)
          username :=
            if (trim username).isEmpty || trim username = "<default>".toList then []
            else trim username
          inlinePassword := some (trim secret) } := by
  have hlong : ¬ (x :: y :: z :: rest).length < 3 := by simp
  -- the fifth field is not blank
  have hkept : (some (trim secret)).filter (!·.isEmpty) = some (trim secret) :=
    Option.filter_eq_some_iff.mpr ⟨rfl, by simpa using hsecret⟩
  have hthird : (x :: y :: z :: rest)[2]? = some z := rfl
  unfold parseStandardSession
  rw [hsplit, hstandard]
  simp only [hlong, hthird, hfields, decide_false, Bool.not_true, Bool.or_self, Bool.false_eq_true,
    ↓reduceIte, Option.getD_some]
  rw [← hkept]
  rfl

end Fields

/-- **A session leads to the same target** when its password is replaced. -/
theorem InlineReplaced.target {value value' : Str} (h : InlineReplaced value value') :
    (∃ outcome, targetOf value = .error outcome ∧ targetOf value' = .error outcome) ∨
      ∃ target target', targetOf value = .ok target ∧ targetOf value' = .ok target' ∧
        target.Similar target' := by
  have hstandard' := h.standard
  obtain ⟨hstandard, x, y, z, z', rest, type, host, port, username, secret, secret', more, hsplit,
    hsplit', hfields, hfields', hsecret, hsecret'⟩ := h
  unfold targetOf
  rw [if_pos hstandard, if_pos hstandard', standardSessionType_eq hsplit hfields,
    standardSessionType_eq hsplit' hfields', parseStandardSession_eq hstandard hsplit hfields hsecret,
    parseStandardSession_eq hstandard' hsplit' hfields' hsecret']
  by_cases hother : (trim type ≠ "0".toList && trim type ≠ "7".toList) = true
  · rw [if_pos hother, if_pos hother]
    exact Or.inl ⟨_, rfl, rfl⟩
  · rw [if_neg hother, if_neg hother]
    exact Or.inr ⟨_, _, rfl, rfl, rfl, rfl, rfl, Or.inr ⟨rfl, rfl⟩⟩

/-! ### Files -/

/-- A session is the same, but for its password. -/
structure SessionEntry.Similar (entry entry' : SessionEntry) : Prop where
  sectionName : entry.sectionName = entry'.sectionName
  key : entry.key = entry'.key
  value : entry.value = entry'.value ∨ InlineReplaced entry.value entry'.value

/-- A file is the same, but for its secrets. -/
structure ParsedFile.Similar (file file' : ParsedFile) : Prop where
  sessions : List.Forall₂ SessionEntry.Similar file.sessions file'.sessions
  sectionGroups : file.sectionGroups = file'.sectionGroups
  passwords : file.passwords.map Prod.fst = file'.passwords.map Prod.fst
  credentials : file.credentials.map Prod.fst = file'.credentials.map Prod.fst
  misc : file.misc = file'.misc
  hasSesspass : file.hasSesspass = file'.hasSesspass

section Files

variable {file file' : ParsedFile} {sectionName key value value' : Str}

/-- One more session on both sides keeps two files similar. -/
theorem ParsedFile.Similar.addSession (h : file.Similar file')
    (hvalue : value = value' ∨ InlineReplaced value value') :
    ParsedFile.Similar { file with sessions := file.sessions ++ [⟨sectionName, key, value⟩] }
      { file' with sessions := file'.sessions ++ [⟨sectionName, key, value'⟩] } :=
  { h with sessions := List.rel_append h.sessions (.cons ⟨rfl, rfl, hvalue⟩ .nil) }

/-- The same entry on both sides keeps two files similar. -/
theorem ParsedFile.Similar.parseEntry (h : file.Similar file') (sectionName key value : Str) :
    (file.parseEntry sectionName key value).Similar (file'.parseEntry sectionName key value) := by
  unfold ParsedFile.parseEntry
  split
  · split
    · exact h
    · exact { h with passwords := by rw [List.map_append, List.map_append, h.passwords] }
  · split
    · exact { h with credentials := by rw [List.map_append, List.map_append, h.credentials] }
    · split
      · exact { h with misc := congrArg (Finmap.insert _ _) h.misc }
      · split
        · exact { h with hasSesspass := rfl }
        · split
          · exact h
          · split
            · split
              · exact { h with sectionGroups := congrArg (Finmap.insert _ _) h.sectionGroups }
              · exact h
            · split
              · exact h
              · exact h.addSession (Or.inl rfl)

/-- An entry whose secret is replaced. -/
theorem ParsedFile.Similar.parseEntry_replaced (h : file.Similar file')
    (hmisc : asciiLower sectionName ≠ "misc".toList)
    (hsesspass : asciiLower sectionName ≠ "sesspass".toList)
    (hvalue : ValueReplaced sectionName key value value') :
    (file.parseEntry sectionName key value).Similar (file'.parseEntry sectionName key value') := by
  unfold ValueReplaced at hvalue
  unfold ParsedFile.parseEntry
  by_cases hpasswords : asciiLower sectionName = "passwords".toList
  · rw [if_pos hpasswords] at hvalue
    rw [if_pos hpasswords, if_pos hpasswords, if_neg (by simpa using hvalue.1),
      if_neg (by simpa using hvalue.2)]
    exact { h with passwords := by rw [List.map_append, List.map_append, h.passwords]; rfl }
  · rw [if_neg hpasswords] at hvalue
    rw [if_neg hpasswords, if_neg hpasswords]
    by_cases hcredentials : asciiLower sectionName = "credentials".toList
    · rw [if_pos hcredentials] at hvalue
      rw [if_pos hcredentials, if_pos hcredentials]
      obtain ⟨username, ciphertext, ciphertext', hsplit, hsplit', hne, hne'⟩ := hvalue
      -- the user in front of the colon is the same
      have hentry : (credentialEntry value).toList.map Prod.fst
          = (credentialEntry value').toList.map Prod.fst := by
        unfold credentialEntry
        rw [hsplit, hsplit']
        dsimp only
        rw [List.isEmpty_eq_false_iff.mpr hne, List.isEmpty_eq_false_iff.mpr hne']
        split
        · rfl
        · rfl
      exact { h with credentials := by rw [List.map_append, List.map_append, h.credentials, hentry] }
    · rw [if_neg hcredentials] at hvalue
      obtain ⟨hsubrep, hinline⟩ := hvalue
      -- the value still begins like a session
      have hheaderless : isHeaderlessSession sectionName value = isHeaderlessSession sectionName value' := by
        unfold isHeaderlessSession
        rw [hinline.1, hinline.standard]
      rw [if_neg hcredentials, if_neg hcredentials, if_neg hmisc, if_neg hmisc, if_neg hsesspass,
        if_neg hsesspass, hheaderless, hsubrep]
      split
      · exact h
      · simp only [Bool.false_eq_true, ↓reduceIte]
        split
        · exact h
        · exact h.addSession (Or.inr hinline)

/-- A line that is the same but for its secret. -/
theorem ParsedFile.Similar.parseLine (h : file.Similar file') {line line' : Line}
    (hline : LineReplaced sectionName line line') :
    (file.parseLine sectionName line).Similar (file'.parseLine sectionName line') ∧
      sectionAfter sectionName line = sectionAfter sectionName line' := by
  obtain rfl | ⟨key, value, value', rfl, rfl, hmisc, hsesspass, hvalue⟩ := hline
  · refine ⟨?_, rfl⟩
    cases line with
    | entry key value => exact h.parseEntry sectionName key value
    | _ => exact h
  · exact ⟨h.parseEntry_replaced hmisc hsesspass hvalue, rfl⟩

/-- Lines that are the same but for their secrets. -/
theorem ParsedFile.Similar.parseLines {lines lines' : List Str}
    (hlines : LinesReplaced sectionName lines lines') (h : file.Similar file') :
    (file.parseLines sectionName lines).Similar (file'.parseLines sectionName lines') := by
  induction hlines generalizing file file' with
  | nil sectionName => exact h
  | cons head tail ih =>
    obtain ⟨hline, hsection⟩ := h.parseLine head
    unfold ParsedFile.parseLines
    rw [← hsection]
    exact ih hline

end Files

/-- **Texts that are the same but for their secrets** are read as such files. -/
theorem parse_replaced {text text' : Str} (h : TextReplaced text text') :
    (ParsedFile.parse text).Similar (ParsedFile.parse text') :=
  ParsedFile.Similar.parseLines h ⟨.nil, rfl, rfl, rfl, rfl, rfl⟩

end Mobaxterm
end Navop
