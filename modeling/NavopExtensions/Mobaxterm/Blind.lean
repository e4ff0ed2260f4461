import NavopExtensions.Mobaxterm.Planting

/-!
# Reports without passwords

If passwords are not asked for, those of `[Passwords]` and `[Credentials]` are not decrypted, and it only
matters that they are there. The password in a session is decrypted all the same, so that the report
shows it as long as this succeeds, and some text in its place is always decrypted if there is a key. So
the report shows no secret, and depends on none, if and only if each of the sessions that it is about has
an empty fifth field or no key (`report_hidden_iff`).
-/

namespace Navop
namespace Mobaxterm

open Text

/-! ### The store -/

section Store

variable (library : Library) (masterPassword : Option Str) {file file' : ParsedFile}

/-- Without passwords the store does not depend on secrets. -/
theorem build_similar (h : file.Similar file') :
    PasswordStore.build library file false masterPassword
      = PasswordStore.build library file' false masterPassword := by
  have hpasswords : file.passwords.isEmpty = file'.passwords.isEmpty := by
    rw [← List.isEmpty_map, h.passwords, List.isEmpty_map]
  have hcredentials : file.credentials.isEmpty = file'.credentials.isEmpty := by
    rw [← List.isEmpty_map, h.credentials, List.isEmpty_map]
  have hstart : PasswordStore.start file masterPassword = PasswordStore.start file' masterPassword := by
    unfold PasswordStore.start
    rw [h.misc]
  have hundecrypted : ∀ store : PasswordStore, store.undecryptedOnly file = store.undecryptedOnly file' := by
    intro store
    unfold PasswordStore.undecryptedOnly
    rw [h.passwords, h.credentials]
  unfold PasswordStore.build
  simp only [Bool.not_false, ↓reduceIte]
  rw [hpasswords, hcredentials, hstart, hundecrypted, h.misc]

/-- Without passwords nothing is decrypted. -/
theorem build_undecrypted (file : ParsedFile) :
    (PasswordStore.build library file false masterPassword).decrypted = [] ∧
      (PasswordStore.build library file false masterPassword).credentialsByUser = [] := by
  unfold PasswordStore.build
  simp only [Bool.not_false, ↓reduceIte]
  split
  · exact ⟨rfl, rfl⟩
  · split
    · exact ⟨rfl, rfl⟩
    · exact ⟨rfl, rfl⟩

/-- Then nothing is found. -/
theorem lookup_undecrypted {store : PasswordStore} (hdecrypted : store.decrypted = [])
    (hcredentials : store.credentialsByUser = []) (username hostname : Str) (port : Option ℕ) :
    store.lookup username hostname port = none := by
  have hnone : ∀ keys : List Str,
      keys.findSome? (List.lookup · ([] : List (Str × Str))) = none :=
    fun keys => List.findSome?_eq_none_iff.mpr fun _ _ => rfl
  have hscan : scanMatching [] username hostname = none := by
    unfold scanMatching
    split
    · rfl
    · rfl
  unfold PasswordStore.lookup
  rw [hdecrypted, hcredentials]
  dsimp only
  rw [hnone, List.map_nil, hscan]
  dsimp only
  split
  · rfl
  · rfl

end Store

/-! ### Records -/

section Records

variable (library : Library)

/-- The password in a session can be decrypted. -/
def Target.opens (store : PasswordStore) (target : Target) : Bool :=
  (target.inlinePassword.bind fun ciphertext =>
    store.decryptInline library ciphertext target.username target.host).isSome

/-- A session of the report: the id of its record, and whether its password can be decrypted. -/
structure Located where
  id : Str
  opens : Bool
  deriving DecidableEq

/-- The sessions that lead somewhere. -/
def located (path : Str) (store : PasswordStore) (entry : SessionEntry) : Option Located :=
  match targetOf entry.value with
  | .error _ => none
  | .ok target =>
    if target.host.isEmpty then none
    else some ⟨recordId library (sourceIdOf path entry), target.opens library store⟩

/-- A record as a session: it has a password if it carries one. -/
def ImportRecord.located (record : ImportRecord) : Located := ⟨record.id, record.password.isSome⟩

variable {library} {path : Str} {group : Option Str} {store : PasswordStore}

/-- A record says that a password is included if it carries one, and only then. -/
theorem loginOf_included (resolved : Option Str) (hasUnresolved : Bool) :
    ((loginOf store resolved hasUnresolved).2.1 = "included" ↔ resolved.isSome = true) ∧
      (match (loginOf store resolved hasUnresolved).1 with
        | .password password => password
        | .autoPublicKey => none) = resolved := by
  cases resolved with
  | some password => exact ⟨iff_of_true rfl rfl, rfl⟩
  | none =>
    cases hasUnresolved with
    | true => exact ⟨iff_of_false (by decide : "unsupported" ≠ "included") Bool.false_ne_true, rfl⟩
    | false => exact ⟨iff_of_false (by decide : "missing" ≠ "included") Bool.false_ne_true, rfl⟩

/-- What a record carries, if nothing is found in the store. -/
theorem password_recordOf {entry : SessionEntry} {target : Target}
    (hnone : store.lookup target.username target.host target.port = none) :
    (recordOf library path entry group store target).password
        = (target.inlinePassword.bind fun ciphertext =>
            store.decryptInline library ciphertext target.username target.host) ∧
      ((recordOf library path entry group store target).passwordStatus = "included" ↔
        (recordOf library path entry group store target).password.isSome = true) := by
  have hlogin := @loginOf_included store
    (target.inlinePassword.bind fun ciphertext =>
      store.decryptInline library ciphertext target.username target.host)
    (target.inlinePassword.isSome
      || store.hasUnresolvedPassword target.username target.host target.port)
  -- the store opens nothing of its own, so that only the session's fifth field is left
  have hpassword : (recordOf library path entry group store target).password
      = (target.inlinePassword.bind fun ciphertext =>
            store.decryptInline library ciphertext target.username target.host) := by
    unfold recordOf
    rw [hnone, Option.none_or]
    exact hlogin.2
  refine ⟨hpassword, ?_⟩
  rw [hpassword]
  unfold recordOf
  rw [hnone, Option.none_or]
  exact hlogin.1

/-- Similar targets without passwords have the same record. -/
theorem recordOf_similar {entry entry' : SessionEntry} {target target' : Target}
    (hentry : entry.Similar entry') (htarget : target.Similar target')
    (hclosed : target.opens library store = false) (hclosed' : target'.opens library store = false) :
    recordOf library path entry group store target = recordOf library path entry' group store target' := by
  have hinline : target.inlinePassword.isSome = target'.inlinePassword.isSome := by
    obtain heq | ⟨hsome, hsome'⟩ := htarget.inlinePassword
    · rw [heq]
    · rw [hsome, hsome']
  have hsource : sourceIdOf path entry = sourceIdOf path entry' := by
    unfold sourceIdOf
    rw [hentry.sectionName, hentry.key]
  have hbind := Option.isSome_eq_false_iff.mp hclosed
  have hbind' := Option.isSome_eq_false_iff.mp hclosed'
  rw [Option.isNone_iff_eq_none] at hbind hbind'
  unfold recordOf
  rw [hbind, hbind', hinline, hsource, hentry.key, ← htarget.host, ← htarget.port, ← htarget.username]

/-- Two records are of one session, and the same if none carries a password. -/
def ImportRecord.Alike (record record' : ImportRecord) : Prop :=
  record.id = record'.id ∧ (record.password = none → record'.password = none → record = record')

/-- A record that is of a session, and says whether a password is included. -/
structure ImportRecord.Honest (record : ImportRecord) : Prop where
  included : record.passwordStatus = "included" ↔ record.password.isSome = true

/-- **What a session comes to**, if nothing is found in the store. -/
theorem sessionRecord_cases (hlookup : ∀ username hostname port,
      store.lookup username hostname port = none) (entry : SessionEntry) :
    (∃ record, sessionRecord library path entry group store = .record record ∧
        located library path store entry = some record.located ∧ record.Honest) ∨
      ((∀ record, sessionRecord library path entry group store ≠ .record record) ∧
        located library path store entry = none) := by
  unfold sessionRecord located
  cases htarget : targetOf entry.value with
  | error outcome =>
    refine Or.inr ⟨?_, rfl⟩
    rintro record rfl
    unfold targetOf at htarget
    split at htarget
    · split at htarget
      · cases htarget
      · cases htarget
    · split at htarget
      · cases htarget
      · cases htarget
  | ok target =>
    dsimp only
    by_cases hhost : target.host.isEmpty = true
    -- a session without a host is left out on both sides
    · rw [if_pos hhost, if_pos hhost]
      exact Or.inr ⟨fun record => SessionOutcome.noConfusion, rfl⟩
    · rw [if_neg hhost, if_neg hhost]
      have hrecord := @password_recordOf library path group store entry target (hlookup _ _ _)
      refine Or.inl ⟨_, rfl, ?_, ⟨hrecord.2⟩⟩
      unfold ImportRecord.located
      rw [hrecord.1]
      rfl

/-- Two outcomes are the same, or records that are the same if none carries a password. -/
def SessionOutcome.Alike (outcome outcome' : SessionOutcome) : Prop :=
  (∃ record record', outcome = .record record ∧ outcome' = .record record' ∧ record.Alike record') ∨
    (outcome = outcome' ∧ ∀ record, outcome ≠ .record record)

/-- Sessions that are the same but for their passwords come to the same, but for their passwords. -/
theorem sessionRecord_similar (hlookup : ∀ username hostname port,
      store.lookup username hostname port = none) {entry entry' : SessionEntry}
    (hentry : entry.Similar entry') :
    (sessionRecord library path entry group store).Alike
      (sessionRecord library path entry' group store) := by
  obtain hvalue | hinline := hentry.value
  · -- the sessions are equal
    have heq : entry = entry' := by
      obtain ⟨sectionName, key, value⟩ := entry
      obtain ⟨sectionName', key', value'⟩ := entry'
      obtain ⟨rfl, rfl, -⟩ := hentry
      obtain rfl : value = value' := hvalue
      rfl
    subst heq
    obtain ⟨record, hrecord, -, -⟩ | ⟨hnone, -⟩ := sessionRecord_cases hlookup entry
    · exact Or.inl ⟨record, record, hrecord, hrecord, rfl, fun _ _ => rfl⟩
    · exact Or.inr ⟨rfl, hnone⟩
  · obtain ⟨outcome, houtcome, houtcome'⟩ | ⟨target, target', htarget, htarget', hsimilar⟩ :=
      hinline.target
    -- a field that cannot be read gives no record, for the other file as little
    · have hnone : ∀ record, sessionRecord library path entry group store ≠ .record record := by
        obtain ⟨record, -, hlocated, -⟩ | ⟨hnone, -⟩ :=
          @sessionRecord_cases library path group store hlookup entry
        · unfold located at hlocated
          rw [houtcome] at hlocated
          cases hlocated
        · exact hnone
      refine Or.inr ⟨?_, hnone⟩
      unfold sessionRecord
      rw [houtcome, houtcome']
    · unfold sessionRecord
      rw [htarget, htarget']
      dsimp only
      rw [← hsimilar.host]
      by_cases hhost : target.host.isEmpty = true
      · rw [if_pos hhost, if_pos hhost]
        exact Or.inr ⟨rfl, fun record => SessionOutcome.noConfusion⟩
      · rw [if_neg hhost, if_neg hhost]
        refine Or.inl ⟨_, _, rfl, rfl, ?_, fun hnone hnone' => ?_⟩
        -- the id is made of the section and the key
        · change recordId library (sourceIdOf path entry) = recordId library (sourceIdOf path entry')
          unfold sourceIdOf
          rw [hentry.sectionName, hentry.key]
        · rw [(password_recordOf (hlookup _ _ _)).1] at hnone hnone'
          refine recordOf_similar hentry hsimilar ?_ ?_
          · unfold Target.opens
            rw [hnone]
            rfl
          · unfold Target.opens
            rw [hnone']
            rfl

end Records

/-! ### Lists of records -/

section Lists

variable {α β γ δ : Type*} {R : α → β → Prop} {S : γ → δ → Prop}

/-- Lists that are related one by one stay so if elements are chosen from them in the same places. -/
theorem forall₂_filterMap {f : α → Option γ} {g : β → Option δ}
    (hchoice : ∀ a b, R a b →
      (∃ c d, f a = some c ∧ g b = some d ∧ S c d) ∨ (f a = none ∧ g b = none))
    {as : List α} {bs : List β} (h : List.Forall₂ R as bs) :
    List.Forall₂ S (as.filterMap f) (bs.filterMap g) := by
  induction h with
  | nil => exact .nil
  | cons head tail ih =>
    obtain ⟨c, d, hc, hd, hrel⟩ | ⟨hc, hd⟩ := hchoice _ _ head
    · rw [List.filterMap_cons_some hc, List.filterMap_cons_some hd]
      exact .cons hrel ih
    · rw [List.filterMap_cons_none hc, List.filterMap_cons_none hd]
      exact ih

/-- Reports are related: their records one by one, and with the same counts. -/
structure Report.Related (R : α → β → Prop) (report : Report α) (report' : Report β) : Prop where
  records : List.Forall₂ R report.records report'.records
  skipped : report.skipped = report'.skipped

section Loop

variable {id : α → Str} {id' : β → Str}

theorem map_id_of_forall₂ (hid : ∀ a b, R a b → id a = id' b) {as : List α} {bs : List β}
    (h : List.Forall₂ R as bs) : as.map id = bs.map id' := by
  induction h with
  | nil => rfl
  | cons head tail ih => rw [List.map_cons, List.map_cons, hid _ _ head, ih]

/-- The same records are new. -/
theorem keepNew_related (hid : ∀ a b, R a b → id a = id' b) {kept records : List α}
    {kept' records' : List β} (hkept : List.Forall₂ R kept kept')
    (hrecords : List.Forall₂ R records records') :
    List.Forall₂ R (keepNew id kept records) (keepNew id' kept' records') := by
  induction hrecords generalizing kept kept' with
  | nil => exact hkept
  | @cons record record' records records' head tail ih =>
    have hmem : id record ∈ kept.map id ↔ id' record' ∈ kept'.map id' := by
      rw [map_id_of_forall₂ hid hkept, hid _ _ head]
    change List.Forall₂ R (keepNew id (if _ then _ else _) records)
      (keepNew id' (if _ then _ else _) records')
    by_cases hnew : id record ∈ kept.map id
    · rw [if_pos hnew, if_pos (hmem.mp hnew)]
      exact ih hkept
    · rw [if_neg hnew, if_neg fun hold => hnew (hmem.mpr hold)]
      exact ih (List.rel_append hkept (.cons head .nil))

/-- **Previews of related reports** are related. -/
theorem previewFrom_related (hid : ∀ a b, R a b → id a = id' b) {report : Report α}
    {report' : Report β} {files : List (Report α)} {files' : List (Report β)}
    (hreport : report.Related R report') (hfiles : List.Forall₂ (Report.Related R) files files') :
    (previewFrom id report files).Related R (previewFrom id' report' files') := by
  induction hfiles generalizing report report' with
  | nil => exact hreport
  | cons head tail ih =>
    have hkept := keepNew_related hid hreport.records head.records
    unfold previewFrom
    dsimp only
    rw [hkept.length_eq, head.skipped, hreport.skipped]
    split
    · exact ⟨hkept, rfl⟩
    · exact ih ⟨hkept, rfl⟩

end Loop

end Lists

/-! ### Files -/

section Files

variable (library : Library) (masterPassword : Option Str) {path text text' : Str}

/-- The records of a file, as sessions. -/
def locatedReport (path text : Str) : Report Located :=
  let file := ParsedFile.parse text
  let store := PasswordStore.build library file false masterPassword
  ⟨file.sessions.filterMap (located library path store),
    (parseFileReport library false masterPassword path text).skipped⟩

/-- Nothing is found without passwords. -/
theorem lookup_build (file : ParsedFile) (username hostname : Str) (port : Option ℕ) :
    (PasswordStore.build library file false masterPassword).lookup username hostname port = none :=
  lookup_undecrypted (build_undecrypted library masterPassword file).1
    (build_undecrypted library masterPassword file).2 username hostname port

/-- The warnings of a file do not change what is true of its records. -/
theorem forall₂_attachWarnings {β : Type*} {R S : ImportRecord → β → Prop} {records : List ImportRecord}
    {others : List β} (warnings : List ImportWarning)
    (hattach : ∀ record other, R record other →
      S record other ∧ S { record with warnings := warnings ++ record.warnings } other)
    (h : List.Forall₂ R records others) :
    List.Forall₂ S (attachWarnings warnings records) others := by
  cases h with
  | nil => exact .nil
  | cons head tail => exact .cons (hattach _ _ head).2 (tail.imp fun _ _ hrel => (hattach _ _ hrel).1)

/-- The records of a file are those of its sessions that lead somewhere. -/
theorem parseFileReport_located (path text : Str) :
    (parseFileReport library false masterPassword path text).Related
      (fun record session => record.located = session ∧ record.Honest)
      (locatedReport library masterPassword path text) := by
  refine ⟨?_, rfl⟩
  -- warnings change neither the password nor its status
  refine @forall₂_attachWarnings _ (fun record session => record.located = session ∧ record.Honest)
    _ _ _ _ (fun _ _ h => ⟨h, h.1, ⟨h.2.included⟩⟩) ?_
  unfold outcomesOf
  rw [List.filterMap_map]
  refine forall₂_filterMap (R := Eq) ?_ (List.forall₂_eq_eq_eq ▸ rfl)
  rintro entry _ rfl
  obtain ⟨record, hrecord, hlocated, hhonest⟩ | ⟨hnone, hlocated⟩ :=
    @sessionRecord_cases library path
      ((ParsedFile.parse text).sectionGroups.lookup entry.sectionName) _
      (lookup_build library masterPassword (ParsedFile.parse text)) entry
  · refine Or.inl ⟨record, record.located, ?_, hlocated, rfl, hhonest⟩
    rw [Function.comp_apply, hrecord]
    rfl
  · refine Or.inr ⟨?_, hlocated⟩
    rw [Function.comp_apply]
    cases houtcome : sessionRecord library path entry
        ((ParsedFile.parse text).sectionGroups.lookup entry.sectionName)
        (PasswordStore.build library (ParsedFile.parse text) false masterPassword) with
    | record found => exact absurd houtcome (hnone found)
    | _ => rfl

/-- The outcomes of files that are the same but for their secrets. -/
theorem outcomesOf_similar {file file' : ParsedFile} (h : file.Similar file') :
    List.Forall₂ SessionOutcome.Alike
      (outcomesOf library path file (PasswordStore.build library file false masterPassword))
      (outcomesOf library path file' (PasswordStore.build library file' false masterPassword)) := by
  unfold outcomesOf
  rw [← build_similar library masterPassword h, ← h.sectionGroups, List.forall₂_map_left_iff,
    List.forall₂_map_right_iff]
  refine h.sessions.imp fun entry entry' hentry => ?_
  rw [← hentry.sectionName]
  exact sessionRecord_similar (lookup_build library masterPassword file) hentry

theorem records_similar {outcomes outcomes' : List SessionOutcome}
    (h : List.Forall₂ SessionOutcome.Alike outcomes outcomes') :
    List.Forall₂ ImportRecord.Alike (outcomes.filterMap SessionOutcome.record?)
      (outcomes'.filterMap SessionOutcome.record?) := by
  refine forall₂_filterMap ?_ h
  rintro outcome _ (⟨record, record', rfl, rfl, halike⟩ | ⟨rfl, hnone⟩)
  · exact Or.inl ⟨record, record', rfl, rfl, halike⟩
  · right
    cases outcome with
    | record found => exact absurd rfl (hnone found)
    | _ => exact ⟨rfl, rfl⟩

theorem skippedOf_similar {outcomes outcomes' : List SessionOutcome}
    (h : List.Forall₂ SessionOutcome.Alike outcomes outcomes') :
    skippedOf outcomes = skippedOf outcomes' := by
  unfold skippedOf
  generalize ([] : Counts) = counts
  induction h generalizing counts with
  | nil => rfl
  | cons head tail ih =>
    rw [List.foldl_cons, List.foldl_cons]
    obtain ⟨record, record', rfl, rfl, -⟩ | ⟨rfl, -⟩ := head
    · exact ih counts
    · exact ih _

/-- Warnings are put before those of the first records. -/
theorem attachWarnings_similar {records records' : List ImportRecord}
    (h : List.Forall₂ ImportRecord.Alike records records') (warnings : List ImportWarning) :
    List.Forall₂ ImportRecord.Alike (attachWarnings warnings records)
      (attachWarnings warnings records') := by
  cases h with
  | nil => exact .nil
  | cons head tail =>
    refine .cons ⟨head.1, fun hnone hnone' => ?_⟩ tail
    rw [head.2 hnone hnone']

/-- **The report on a file** whose secrets are replaced is the same, but for passwords. -/
theorem parseFileReport_similar (h : TextReplaced text text') :
    (parseFileReport library false masterPassword path text).Related ImportRecord.Alike
      (parseFileReport library false masterPassword path text') := by
  have hfile := parse_replaced h
  have houtcomes := @outcomesOf_similar library masterPassword path _ _ hfile
  have hskipped := skippedOf_similar houtcomes
  have hwarnings := congrArg PasswordStore.fileWarnings (build_similar library masterPassword hfile)
  refine ⟨?_, hskipped⟩
  unfold parseFileReport
  dsimp only
  rw [hskipped, hwarnings]
  exact attachWarnings_similar (records_similar houtcomes) _

end Files

/-! ### Sources -/

section Sources

variable (library : Library) (masterPassword : Option Str)

/-- A source is the same but for its secrets. -/
def SourceReplaced (source source' : Source) : Prop :=
  source.path = source'.path ∧
    (decodeText library source.bytes = decodeText library source'.bytes ∨
      ∃ text text', decodeText library source.bytes = some text ∧
        decodeText library source'.bytes = some text' ∧ TextReplaced text text')

/-- Without passwords, the report shows no password and does not depend on the secrets of the sources. -/
structure Hidden (sources : List Source) : Prop where
  bare : ∀ record ∈ (previewReportFromSources library sources false masterPassword).records,
    record.password = none ∧ record.passwordStatus ≠ "included"
  blind : ∀ sources', List.Forall₂ (SourceReplaced library) sources sources' →
    previewReportFromSources library sources' false masterPassword
      = previewReportFromSources library sources false masterPassword

/-- The sessions that the records of the report are of. -/
def reportedSessions (sources : List Source) : List Located :=
  (previewFrom Located.id ⟨[], []⟩ ((textsOf library sources).map fun (path, text) =>
    locatedReport library masterPassword path text)).records

variable {library masterPassword} {sources sources' : List Source}

/-- The records of the report, and their sessions. -/
theorem report_located (library : Library) (masterPassword : Option Str) (sources : List Source) :
    List.Forall₂ (fun record session => ImportRecord.located record = session ∧ record.Honest)
      (previewReportFromSources library sources false masterPassword).records
      (reportedSessions library masterPassword sources) := by
  refine (@previewFrom_related _ _
    (fun record session => ImportRecord.located record = session ∧ record.Honest)
    ImportRecord.id Located.id ?_ ⟨[], []⟩ ⟨[], []⟩ _ _ ⟨.nil, rfl⟩ ?_).records
  · rintro record _ ⟨rfl, -⟩
    rfl
  · rw [List.forall₂_map_left_iff, List.forall₂_map_right_iff]
    exact List.forall₂_same.mpr fun source _ =>
      parseFileReport_located library masterPassword source.1 source.2

/-- Reports on sources that are the same but for their secrets are the same, but for passwords. -/
theorem report_similar (masterPassword : Option Str)
    (h : List.Forall₂ (SourceReplaced library) sources sources') :
    (previewReportFromSources library sources false masterPassword).Related ImportRecord.Alike
      (previewReportFromSources library sources' false masterPassword) := by
  refine previewFrom_related (fun _ _ h => h.1) ⟨.nil, rfl⟩ ?_
  rw [List.forall₂_map_left_iff, List.forall₂_map_right_iff]
  refine forall₂_filterMap ?_ h
  rintro source source' ⟨hpath, heq | ⟨text, text', htext, htext', hreplaced⟩⟩
  · rw [← heq, ← hpath]
    cases decodeText library source.bytes with
    | none => exact Or.inr ⟨rfl, rfl⟩
    | some text =>
      exact Or.inl ⟨_, _, rfl, rfl,
        parseFileReport_similar library masterPassword (LinesReplaced.refl _ _)⟩
  · rw [htext, htext', ← hpath]
    exact Or.inl ⟨_, _, rfl, rfl, parseFileReport_similar library masterPassword hreplaced⟩

/-- Lists of records that are alike, of which none carries a password, are equal. -/
theorem eq_of_alike {records records' : List ImportRecord}
    (h : List.Forall₂ ImportRecord.Alike records records')
    (hbare : ∀ record ∈ records, record.password = none)
    (hbare' : ∀ record ∈ records', record.password = none) : records = records' := by
  induction h with
  | nil => rfl
  | cons head tail ih =>
    rw [head.2 (hbare _ List.mem_cons_self) (hbare' _ List.mem_cons_self),
      ih (fun record hrecord => hbare record (List.mem_cons_of_mem _ hrecord))
        fun record hrecord => hbare' record (List.mem_cons_of_mem _ hrecord)]

/-- Records carry no password if those of their sessions cannot be decrypted, and only then. -/
theorem bare_located {records : List ImportRecord} {sessions : List Located}
    (h : List.Forall₂ (fun record session => ImportRecord.located record = session ∧ record.Honest)
      records sessions) :
    (∀ record ∈ records, record.password = none) ↔ ∀ session ∈ sessions, session.opens = false := by
  induction h with
  | nil => exact ⟨fun _ _ => nofun, fun _ _ => nofun⟩
  | @cons record session records sessions head tail ih =>
    have hopens : record.password = none ↔ session.opens = false := by
      rw [← head.1]
      exact Option.isSome_eq_false_iff.trans Option.isNone_iff_eq_none |>.symm
    rw [List.forall_mem_cons, List.forall_mem_cons, hopens, ih]

/-- The status of records that carry no password. -/
theorem status_located {records : List ImportRecord} {sessions : List Located}
    (h : List.Forall₂ (fun record session => ImportRecord.located record = session ∧ record.Honest)
      records sessions) (hbare : ∀ record ∈ records, record.password = none) :
    ∀ record ∈ records, record.passwordStatus ≠ "included" := by
  induction h with
  | nil => exact fun _ => nofun
  | cons head tail ih =>
    obtain ⟨hnone, hrest⟩ := List.forall_mem_cons.mp hbare
    refine List.forall_mem_cons.mpr ⟨fun hincluded => ?_, ih hrest⟩
    have hsome := head.2.included.mp hincluded
    rw [hnone] at hsome
    cases hsome

/-- The report carries no password if no session of it has one in it that can be decrypted, and only
then. -/
theorem bare_iff (library : Library) (masterPassword : Option Str) (sources : List Source) :
    (∀ record ∈ (previewReportFromSources library sources false masterPassword).records,
        record.password = none) ↔
      ∀ session ∈ reportedSessions library masterPassword sources, session.opens = false :=
  bare_located (report_located library masterPassword sources)

theorem SourceReplaced.refl (source : Source) : SourceReplaced library source source :=
  ⟨rfl, Or.inl rfl⟩

/-- A report hides passwords if no session of it has one in it that can be decrypted, whatever is put into
the place of the secrets. -/
theorem hidden_iff_closed (library : Library) (masterPassword : Option Str) (sources : List Source) :
    Hidden library masterPassword sources ↔
      ∀ sources', List.Forall₂ (SourceReplaced library) sources sources' →
        ∀ session ∈ reportedSessions library masterPassword sources', session.opens = false := by
  constructor
  · intro hhidden sources' hreplaced
    rw [← bare_iff, hhidden.blind sources' hreplaced]
    exact fun record hrecord => (hhidden.bare record hrecord).1
  · intro hclosed
    -- with every replacement closed, no record has a password
    have hbare : ∀ sources', List.Forall₂ (SourceReplaced library) sources sources' →
        ∀ record ∈ (previewReportFromSources library sources' false masterPassword).records,
          record.password = none :=
      fun sources' hreplaced => (bare_iff library masterPassword sources').mpr (hclosed sources' hreplaced)
    -- replacing nothing is a replacement
    have hsame := hbare sources (List.forall₂_same.mpr fun source _ => SourceReplaced.refl source)
    refine ⟨fun record hrecord => ⟨hsame record hrecord, ?_⟩, fun sources' hreplaced => ?_⟩
    · exact status_located (report_located library masterPassword sources) hsame record hrecord
    · have hsimilar := report_similar masterPassword hreplaced
      have hrecords := eq_of_alike hsimilar.records hsame (hbare sources' hreplaced)
      have hext : ∀ {report report' : Report ImportRecord}, report.records = report'.records →
          report.skipped = report'.skipped → report' = report := by
        rintro ⟨_, _⟩ ⟨_, _⟩ rfl rfl
        rfl
      exact hext hrecords hsimilar.skipped

/-! ### Sessions by themselves -/

/-- A session that leads somewhere: the id of its record, the password in it, and whether its file has a
key. -/
structure Session where
  id : Str
  inlinePassword : Option Str
  hasKey : Bool
  deriving DecidableEq

/-- The sessions of a file that lead somewhere. -/
def sessionsOf (library : Library) (masterPassword : Option Str) (path text : Str) : List Session :=
  let file := ParsedFile.parse text
  file.sessions.filterMap fun entry =>
    match targetOf entry.value with
    | .error _ => none
    | .ok target =>
      if target.host.isEmpty then none
      else some ⟨recordId library (sourceIdOf path entry), target.inlinePassword,
        file.hasKey masterPassword⟩

/-- The report has a record for an element of one of the lists: it is the first with its id, and there
were fewer ids than are allowed before its list. -/
def Shown {α : Type*} (id : α → Str) (files : List (List α)) (found : α) : Prop :=
  ∃ before earlier later after, files = before ++ (earlier ++ found :: later) :: after ∧
    (before.flatten.map id).dedup.length < maxSessions ∧
    id found ∉ (before.flatten ++ earlier).map id

/-! ### Which records are kept -/

section Kept

variable {α : Type*} {id : α → Str}

theorem keepNew_cons (kept : List α) (first : α) (records : List α) :
    keepNew id kept (first :: records)
      = keepNew id (if id first ∈ kept.map id then kept else kept ++ [first]) records := rfl

theorem keepNew_append (kept records more : List α) :
    keepNew id kept (records ++ more) = keepNew id (keepNew id kept records) more :=
  List.foldl_append

theorem mem_map_keepNew (kept records : List α) (key : Str) :
    key ∈ (keepNew id kept records).map id ↔ key ∈ kept.map id ∨ key ∈ records.map id := by
  induction records generalizing kept with
  | nil => exact (or_iff_left List.not_mem_nil).symm
  | cons first records ih =>
    rw [keepNew_cons, ih, List.map_cons, List.mem_cons]
    split
    · next hold =>
      constructor
      · rintro (hkept | hrest)
        · exact Or.inl hkept
        · exact Or.inr (Or.inr hrest)
      · rintro (hkept | rfl | hrest)
        · exact Or.inl hkept
        · exact Or.inl hold
        · exact Or.inr hrest
    · rw [List.map_append, List.map_singleton, List.mem_append, List.mem_singleton, or_assoc]

theorem nodup_keepNew {kept : List α} (hkept : (kept.map id).Nodup) (records : List α) :
    ((keepNew id kept records).map id).Nodup := by
  induction records generalizing kept with
  | nil => exact hkept
  | cons first records ih =>
    rw [keepNew_cons]
    apply ih
    split
    · exact hkept
    · next hnew =>
      rw [List.map_append, List.map_singleton]
      exact List.nodup_append.mpr ⟨hkept, List.nodup_singleton _, fun key hkey other hother => by
        rw [List.mem_singleton.mp hother]
        rintro rfl
        exact hnew hkey⟩

/-- As many records are kept as there are ids. -/
theorem length_keepNew (records : List α) :
    (keepNew id [] records).length = (records.map id).dedup.length := by
  have hnodup := @nodup_keepNew α id [] List.nodup_nil records
  rw [← List.length_map id, ← List.toFinset_card_of_nodup hnodup, ← List.card_toFinset]
  congr 1
  ext key
  rw [List.mem_toFinset, List.mem_toFinset, mem_map_keepNew]
  exact or_iff_right List.not_mem_nil

/-- A record is kept if it is the first with its id. -/
theorem mem_keepNew_iff (kept records : List α) (found : α) :
    found ∈ keepNew id kept records ↔ found ∈ kept ∨
      ∃ earlier later, records = earlier ++ found :: later ∧ id found ∉ kept.map id ∧
        id found ∉ earlier.map id := by
  induction records generalizing kept with
  | nil =>
    refine (or_iff_left ?_).symm
    rintro ⟨earlier, later, hsplit, -⟩
    exact List.append_ne_nil_of_right_ne_nil earlier (List.cons_ne_nil found later) hsplit.symm
  | cons first records ih =>
    rw [keepNew_cons, ih]
    constructor
    -- kept from before, the first of the list, or one behind it
    · rintro (hmem | ⟨earlier, later, rfl, hkept, hearlier⟩)
      · split at hmem
        · exact Or.inl hmem
        · next hnew =>
          obtain hold | hfirst := List.mem_append.mp hmem
          · exact Or.inl hold
          · rw [List.mem_singleton.mp hfirst]
            exact Or.inr ⟨[], records, rfl, hnew, List.not_mem_nil⟩
      · refine Or.inr ⟨first :: earlier, later, rfl, ?_, ?_⟩
        · split at hkept
          · exact hkept
          · rw [List.map_append, List.mem_append, not_or] at hkept
            exact hkept.1
        · rw [List.map_cons, List.mem_cons, not_or]
          refine ⟨fun heq => hkept ?_, hearlier⟩
          split
          · next hold => rwa [heq]
          · rw [List.map_append, List.map_singleton, heq]
            exact List.mem_append_right _ (List.mem_singleton_self _)
    · rintro (hmem | ⟨earlier, later, hsplit, hkept, hearlier⟩)
      · refine Or.inl ?_
        split
        · exact hmem
        · exact List.mem_append_left _ hmem
      · cases earlier with
        | nil =>
          obtain ⟨rfl, rfl⟩ := List.cons.inj hsplit
          rw [if_neg hkept]
          exact Or.inl (List.mem_append_right _ (List.mem_singleton_self _))
        | cons other earlier =>
          obtain ⟨rfl, hrest⟩ := List.cons.inj hsplit
          rw [List.map_cons, List.mem_cons, not_or] at hearlier
          refine Or.inr ⟨earlier, later, hrest, ?_, hearlier.2⟩
          split
          · exact hkept
          · rw [List.map_append, List.map_singleton, List.mem_append, List.mem_singleton, not_or]
            exact ⟨hkept, hearlier.1⟩

theorem length_dedup_append (records more : List α) :
    (records.map id).dedup.length ≤ ((records ++ more).map id).dedup.length := by
  rw [← List.card_toFinset, ← List.card_toFinset]
  refine Finset.card_le_card fun key hkey => ?_
  rw [List.mem_toFinset] at hkey ⊢
  rw [List.map_append]
  exact List.mem_append_left _ hkey

/-- The loop over the files, after some of them. -/
theorem mem_previewFrom (files : List (Report α)) (done : List α) {report : Report α}
    (hreport : report.records = keepNew id [] done)
    (hfew : (done.map id).dedup.length < maxSessions) (found : α) :
    found ∈ (previewFrom id report files).records ↔ found ∈ report.records ∨
      ∃ before earlier later after,
        files.map Report.records = before ++ (earlier ++ found :: later) :: after ∧
        ((done ++ before.flatten).map id).dedup.length < maxSessions ∧
        id found ∉ (done ++ before.flatten ++ earlier).map id := by
  induction files generalizing done report with
  | nil =>
    refine (or_iff_left ?_).symm
    rintro ⟨before, earlier, later, after, hsplit, -⟩
    exact List.append_ne_nil_of_right_ne_nil before (List.cons_ne_nil _ after) hsplit.symm
  | cons file files ih =>
    have hrecords : keepNew id report.records file.records = keepNew id [] (done ++ file.records) := by
      rw [hreport, keepNew_append]
    have hkept : ∀ key, key ∉ report.records.map id ↔ key ∉ done.map id := by
      intro key
      rw [hreport, mem_map_keepNew]
      exact not_congr (or_iff_right List.not_mem_nil)
    -- an element of this file is kept, or was kept before
    have hfile : found ∈ keepNew id report.records file.records ↔ found ∈ report.records ∨
        ∃ earlier later, file.records = earlier ++ found :: later ∧
          id found ∉ (done ++ earlier).map id := by
      rw [mem_keepNew_iff]
      refine or_congr_right (exists_congr fun earlier => exists_congr fun later =>
        and_congr_right fun _ => ?_)
      rw [hkept, List.map_append, List.mem_append, not_or]
    have hsplit : (∃ before earlier later after,
          (file :: files).map Report.records = before ++ (earlier ++ found :: later) :: after ∧
          ((done ++ before.flatten).map id).dedup.length < maxSessions ∧
          id found ∉ (done ++ before.flatten ++ earlier).map id) ↔
        (∃ earlier later, file.records = earlier ++ found :: later ∧
          id found ∉ (done ++ earlier).map id) ∨
        ∃ before earlier later after,
          files.map Report.records = before ++ (earlier ++ found :: later) :: after ∧
          ((done ++ file.records ++ before.flatten).map id).dedup.length < maxSessions ∧
          id found ∉ (done ++ file.records ++ before.flatten ++ earlier).map id := by
      constructor
      · rintro ⟨before, earlier, later, after, hfiles, hcount, hnew⟩
        cases before with
        | nil =>
          obtain ⟨hfirst, -⟩ := List.cons.inj hfiles
          rw [List.flatten_nil, List.append_nil] at hnew
          exact Or.inl ⟨earlier, later, hfirst, hnew⟩
        | cons first before =>
          obtain ⟨rfl, hrest⟩ := List.cons.inj hfiles
          rw [List.flatten_cons, ← List.append_assoc] at hcount hnew
          exact Or.inr ⟨before, earlier, later, after, hrest, hcount, hnew⟩
      · rintro (⟨earlier, later, hfirst, hnew⟩ | ⟨before, earlier, later, after, hrest, hcount, hnew⟩)
        · refine ⟨[], earlier, later, files.map Report.records, ?_, ?_, ?_⟩
          · rw [List.map_cons, hfirst]
            rfl
          · rwa [List.flatten_nil, List.append_nil]
          · rwa [List.flatten_nil, List.append_nil]
        · refine ⟨file.records :: before, earlier, later, after, ?_, ?_, ?_⟩
          · rw [List.map_cons, hrest]
            rfl
          · rwa [List.flatten_cons, ← List.append_assoc]
          · rwa [List.flatten_cons, ← List.append_assoc]
    rw [hsplit]
    unfold previewFrom
    dsimp only
    split
    · next hfull =>
      rw [hrecords, length_keepNew] at hfull
      rw [hfile]
      refine or_congr_right (or_iff_left ?_).symm
      rintro ⟨before, -, -, -, -, hcount, -⟩
      exact absurd (le_trans hfull (length_dedup_append _ before.flatten)) (not_le.mpr hcount)
    · next hroom =>
      rw [hrecords, length_keepNew, not_le] at hroom
      rw [ih (done ++ file.records) hrecords hroom, hfile, or_assoc]

/-- **The report is about the elements that are shown.** -/
theorem mem_previewFrom_iff (files : List (Report α)) (found : α) :
    found ∈ (previewFrom id ⟨[], []⟩ files).records ↔ Shown id (files.map Report.records) found := by
  have hfew : ((([] : List α).map id).dedup).length < maxSessions := by
    rw [List.map_nil, List.dedup_nil]
    decide
  rw [mem_previewFrom files [] rfl hfew found]
  exact or_iff_right List.not_mem_nil

end Kept

/-! ### Sessions that are exposed -/

/-- A session is decrypted only if it has a password and its file has a key. -/
def Located.Within (located : Located) (session : Session) : Prop :=
  located.id = session.id ∧
    (located.opens = true → session.inlinePassword ≠ none ∧ session.hasKey = true)

/-- A session is decrypted if it has a password and its file has a key. -/
def Located.Covers (located : Located) (session : Session) : Prop :=
  located.id = session.id ∧
    (located.opens = false → session.inlinePassword = none ∨ session.hasKey = false)

/-- The sessions of a file that lead somewhere, as a report. -/
def sessionReport (library : Library) (masterPassword : Option Str) (path text : Str) :
    Report Session :=
  ⟨sessionsOf library masterPassword path text,
    (parseFileReport library false masterPassword path text).skipped⟩

section Exposed

variable {path text text' : Str}

theorem hasKey_congr {file file' : ParsedFile} (h : file.misc = file'.misc) :
    file.hasKey masterPassword = file'.hasKey masterPassword := by
  unfold ParsedFile.hasKey
  rw [h]

/-- The target of a session, when the secrets of its file are replaced. -/
theorem SessionEntry.Similar.target {entry entry' : SessionEntry} (h : entry.Similar entry') :
    (∃ outcome, targetOf entry.value = .error outcome ∧ targetOf entry'.value = .error outcome) ∨
      ∃ target target', targetOf entry.value = .ok target ∧ targetOf entry'.value = .ok target' ∧
        target.Similar target' := by
  obtain hvalue | hinline := h.value
  · rw [← hvalue]
    cases htarget : targetOf entry.value with
    | error outcome => exact Or.inl ⟨outcome, rfl, rfl⟩
    | ok target => exact Or.inr ⟨target, target, rfl, rfl, rfl, rfl, rfl, Or.inl rfl⟩
  · exact hinline.target

/-- The sessions of a file whose secrets are replaced, by what holds of one of them. -/
theorem locatedReport_related {R : Located → Session → Prop} (h : TextReplaced text text')
    (hsession : ∀ entry ∈ (ParsedFile.parse text').sessions, ∀ target target' : Target,
      target.Similar target' → targetOf entry.value = .ok target' →
      R ⟨recordId library (sourceIdOf path entry),
          target'.opens library (PasswordStore.build library (ParsedFile.parse text') false masterPassword)⟩
        ⟨recordId library (sourceIdOf path entry), target.inlinePassword,
          (ParsedFile.parse text).hasKey masterPassword⟩) :
    (locatedReport library masterPassword path text').Related R
      (sessionReport library masterPassword path text) := by
  have hfile := parse_replaced h
  refine ⟨?_, (parseFileReport_similar library masterPassword h).skipped.symm⟩
  -- the two files have the same sessions in the same order
  have hboth : List.Forall₂ (fun entry' entry =>
      entry' ∈ (ParsedFile.parse text').sessions ∧ entry.Similar entry')
      (ParsedFile.parse text').sessions (ParsedFile.parse text).sessions := by
    refine List.forall₂_iff_get.mpr ⟨hfile.sessions.length_eq.symm, fun i hi hi' => ?_⟩
    exact ⟨List.get_mem _ _, (List.forall₂_iff_get.mp hfile.sessions).2 i hi' hi⟩
  refine forall₂_filterMap ?_ hboth
  rintro entry' entry ⟨hmem, hsimilar⟩
  have hsource : sourceIdOf path entry = sourceIdOf path entry' := by
    unfold sourceIdOf
    rw [hsimilar.sectionName, hsimilar.key]
  unfold located
  obtain ⟨outcome, houtcome, houtcome'⟩ | ⟨target, target', htarget, htarget', htargets⟩ :=
    hsimilar.target
  · rw [houtcome, houtcome']
    exact Or.inr ⟨rfl, rfl⟩
  · rw [htarget, htarget', hsource]
    dsimp only
    rw [htargets.host]
    split
    · exact Or.inr ⟨rfl, rfl⟩
    · exact Or.inl ⟨_, _, rfl, rfl, hsession entry' hmem target target' htargets htarget'⟩

/-- Whatever takes the place of the secrets, no other session is decrypted. -/
theorem located_within (h : TextReplaced text text') :
    (locatedReport library masterPassword path text').Related Located.Within
      (sessionReport library masterPassword path text) := by
  refine locatedReport_related h fun entry _ target target' htargets _ => ⟨rfl, fun hopens => ?_⟩
  obtain ⟨password, hpassword⟩ := Option.isSome_iff_exists.mp hopens
  obtain ⟨ciphertext, hinline, hdecrypts⟩ := Option.bind_eq_some_iff.mp hpassword
  constructor
  · change target.inlinePassword ≠ none
    intro hnone
    obtain heq | ⟨hsome, -⟩ := htargets.inlinePassword
    · rw [← heq, hnone] at hinline
      cases hinline
    · rw [hnone] at hsome
      cases hsome
  · by_contra hkey
    rw [Bool.not_eq_true, hasKey_congr (parse_replaced h).misc] at hkey
    rw [decryptInline_build, decryptStoredSecret_noKey library _ masterPassword hkey] at hdecrypts
    cases hdecrypts

/-- Some replacement of the secrets has every session decrypted that can be. -/
theorem exists_covers (hbase64 : library.ReadsBase64) (masterPassword : Option Str) (path text : Str) :
    ∃ text', TextReplaced text text' ∧
      (locatedReport library masterPassword path text').Related Located.Covers
        (sessionReport library masterPassword path text) := by
  -- with a key a ciphertext can be planted that it opens; without one nothing opens
  by_cases hkey : (ParsedFile.parse text).hasKey masterPassword = true
  · choose cipher hne halphabet hopens using
      exists_ciphertext library (ParsedFile.parse text) masterPassword hbase64 hkey
    obtain ⟨text', hreplaced, honly⟩ := exists_planted_text ⟨hne, halphabet⟩ text
    refine ⟨text', hreplaced, locatedReport_related hreplaced ?_⟩
    intro entry hentry target target' htargets htarget'
    refine ⟨rfl, fun hclosed => Or.inl ?_⟩
    obtain hnone | hcipher := honly entry hentry target' htarget'
    · obtain heq | ⟨-, hsome⟩ := htargets.inlinePassword
      · exact heq.trans hnone
      · rw [hnone] at hsome
        cases hsome
    · -- the password that was put there is decrypted
      have hinput : (ParsedFile.parse text').inlineInput masterPassword
            (cipher target'.username target'.host) target'.username target'.host
          = (ParsedFile.parse text).inlineInput masterPassword
            (cipher target'.username target'.host) target'.username target'.host := by
        unfold ParsedFile.inlineInput
        rw [(parse_replaced hreplaced).misc]
      unfold Target.opens at hclosed
      rw [hcipher, Option.bind_some, decryptInline_build, hinput, hopens] at hclosed
      cases hclosed
  · refine ⟨text, LinesReplaced.refl _ _, locatedReport_related (LinesReplaced.refl _ _) ?_⟩
    exact fun entry _ target target' _ _ => ⟨rfl, fun _ => Or.inr (Bool.eq_false_iff.mpr hkey)⟩

/-- The sessions of some files that are in the report. -/
def shownSessions (library : Library) (masterPassword : Option Str) (sources : List Source) :
    List Session :=
  (previewFrom Session.id ⟨[], []⟩ ((textsOf library sources).map fun (path, text) =>
    sessionReport library masterPassword path text)).records

theorem mem_shownSessions (session : Session) :
    session ∈ shownSessions library masterPassword sources ↔
      Shown Session.id ((textsOf library sources).map fun (path, text) =>
        sessionsOf library masterPassword path text) session := by
  unfold shownSessions
  rw [mem_previewFrom_iff, List.map_map]
  rfl

/-- The sessions of sources, of which the secrets of the others are replaced. -/
theorem reported_within (h : List.Forall₂ (SourceReplaced library) sources sources') :
    List.Forall₂ Located.Within (reportedSessions library masterPassword sources')
      (shownSessions library masterPassword sources) := by
  refine (@previewFrom_related _ _ Located.Within Located.id Session.id (fun _ _ h => h.1) ⟨[], []⟩
    ⟨[], []⟩ _ _ ⟨.nil, rfl⟩ ?_).records
  rw [List.forall₂_map_left_iff, List.forall₂_map_right_iff]
  refine forall₂_filterMap ?_ h.flip
  rintro source' source ⟨hpath, heq | ⟨text, text', htext, htext', hreplaced⟩⟩
  · rw [← heq, ← hpath]
    cases decodeText library source.bytes with
    | none => exact Or.inr ⟨rfl, rfl⟩
    | some text => exact Or.inl ⟨_, _, rfl, rfl, located_within (LinesReplaced.refl _ _)⟩
  · rw [htext, htext', ← hpath]
    exact Or.inl ⟨_, _, rfl, rfl, located_within hreplaced⟩

/-- Secrets for all the sources. -/
theorem exists_reported_covers (hbase64 : library.ReadsBase64) (masterPassword : Option Str)
    (sources : List Source) :
    ∃ sources', List.Forall₂ (SourceReplaced library) sources sources' ∧
      List.Forall₂ Located.Covers (reportedSessions library masterPassword sources')
        (shownSessions library masterPassword sources) := by
  -- source by source: a text is written back as UTF-16, and what is no text stays
  have hone : ∀ source, ∃ source', SourceReplaced library source source' ∧
      ((∃ text text', decodeText library source.bytes = some text ∧
          decodeText library source'.bytes = some text' ∧
          (locatedReport library masterPassword source'.path text').Related Located.Covers
            (sessionReport library masterPassword source.path text)) ∨
        (decodeText library source.bytes = none ∧ decodeText library source'.bytes = none)) := by
    intro source
    cases hdecoded : decodeText library source.bytes with
    | none => exact ⟨source, SourceReplaced.refl source, Or.inr ⟨rfl, hdecoded⟩⟩
    | some text =>
      obtain ⟨text', hreplaced, hcovers⟩ := exists_covers hbase64 masterPassword source.path text
      have hdecoded' := decodeText_utf16File library text'
      exact ⟨⟨source.path, utf16File text'⟩,
        ⟨rfl, Or.inr ⟨text, text', hdecoded, hdecoded', hreplaced⟩⟩,
        Or.inl ⟨text, text', rfl, hdecoded', hcovers⟩⟩
  choose replaced hreplaced htexts using hone
  refine ⟨sources.map replaced, ?_, ?_⟩
  · rw [List.forall₂_map_right_iff]
    exact List.forall₂_same.mpr fun source _ => hreplaced source
  · refine (@previewFrom_related _ _ Located.Covers Located.id Session.id (fun _ _ h => h.1)
      ⟨[], []⟩ ⟨[], []⟩ _ _ ⟨.nil, rfl⟩ ?_).records
    rw [List.forall₂_map_left_iff, List.forall₂_map_right_iff]
    unfold textsOf
    rw [List.filterMap_map]
    refine forall₂_filterMap (R := Eq) ?_ (List.forall₂_eq_eq_eq ▸ rfl)
    rintro source _ rfl
    obtain ⟨text, text', htext, htext', hcovers⟩ | ⟨hnone, hnone'⟩ := htexts source
    · rw [Function.comp_apply, htext, htext']
      exact Or.inl ⟨_, _, rfl, rfl, hcovers⟩
    · rw [Function.comp_apply, hnone, hnone']
      exact Or.inr ⟨rfl, rfl⟩

end Exposed

/-- **When a report without passwords hides them**: if every session that it is about has an empty fifth
field, or there is no key in its file and no master password. -/
theorem report_hidden_iff (library : Library) (hbase64 : library.ReadsBase64)
    (masterPassword : Option Str) (sources : List Source) :
    Hidden library masterPassword sources ↔
      ∀ session, Shown Session.id ((textsOf library sources).map fun (path, text) =>
          sessionsOf library masterPassword path text) session →
        session.inlinePassword = none ∨ session.hasKey = false := by
  rw [hidden_iff_closed]
  constructor
  · intro hclosed session hshown
    -- the planted sources would open a session that has both a fifth field and a key
    obtain ⟨sources', hreplaced, hcovers⟩ := exists_reported_covers hbase64 masterPassword sources
    obtain ⟨i, hi, hsession⟩ := List.getElem_of_mem ((mem_shownSessions session).mpr hshown)
    obtain ⟨hlength, hall⟩ := List.forall₂_iff_get.mp hcovers
    have hi' := hlength.symm ▸ hi
    have hcover := (hall i hi' hi).2 (hclosed sources' hreplaced _ (List.get_mem _ _))
    rwa [List.get_eq_getElem, hsession] at hcover
  · intro hcondition sources' hreplaced located hlocated
    obtain ⟨i, hi, rfl⟩ := List.getElem_of_mem hlocated
    obtain ⟨hlength, hall⟩ :=
      List.forall₂_iff_get.mp (@reported_within library masterPassword _ _ hreplaced)
    have hi' := hlength ▸ hi
    rw [Bool.eq_false_iff]
    -- a session that opens has both, whatever was put in its place
    intro hopens
    obtain ⟨hinline, hkey⟩ := (hall i hi hi').2 hopens
    obtain hnone | hnokey := hcondition _ ((mem_shownSessions _).mp (List.get_mem _ ⟨i, hi'⟩))
    · exact hinline hnone
    · rw [hkey] at hnokey
      cases hnokey

end Sources

/-- Libraries as far as they are needed for weak keys of ASCII texts. -/
def asciiLibrary : Library where
  aes256 _ block := block
  sha512 bytes := bytes
  base64 _ := none
  toUppercase := List.map Char.toUpper
  toLowercase := asciiLower
  lowercase c := [c.toLower]
  gb18030 _ := none
  windows1252 _ := []

/-- A file of some lines, each of which is given in pieces. -/
def textOfLines (lines : List (List String)) : Str :=
  lines.flatMap fun pieces => pieces.flatMap String.toList ++ ['\n']

/-- A ciphertext, in pieces. -/
def sampleCiphertext : List String :=
  ["F0+wuBvbe9qPW6ypiOeYH", "THhKdShRc/nXaM1Ky1jeT", "fw46TzQoSesX9buGm0WW3", "6yP4lhH70ZCHZpEo4wLJhIl1"]

/-- A source in UTF-16 is read as its text. -/
theorem textsOf_utf16File (library : Library) (path text : Str) :
    textsOf library [⟨path, utf16File text⟩] = [(path, text)] := by
  unfold textsOf
  rw [List.filterMap_cons_some (b := (path, text)) (by rw [decodeText_utf16File]; rfl)]
  rfl

/-- The same, with a Base64 of texts of one byte. -/
def byteLibrary : Library :=
  { asciiLibrary with
    base64 := fun text =>
      match text with
      | [high, low, '=', '='] => do
        let high ← base64Alphabet.idxOf? high
        let low ← base64Alphabet.idxOf? low
        if low % 16 = 0 then some [UInt8.ofNat (high * 4 + low / 16)] else none
      | _ => none }

theorem readsBase64_byteLibrary : byteLibrary.ReadsBase64 := by
  have hall : (List.range 256).all (fun n =>
      byteLibrary.base64 (base64Digits (UInt8.ofNat n) ++ ['=', '=']) == some [UInt8.ofNat n]) = true := by
    decide +kernel
  intro byte
  have hbyte := List.all_eq_true.mp hall byte.toNat (List.mem_range.mpr byte.toNat_lt)
  rw [UInt8.ofNat_toNat] at hbyte
  exact beq_iff_eq.mp hbyte

/-- A file that has a key, and a session without a password in it. -/
def bookmarkWithoutPassword : Str := textOfLines
  [["[Misc]"], ["MPSetAccount=DoubleSine"], ["MPSetComputer=ShadowSurface"], ["[Passwords]"],
    ["root@45.32.110.171=", "ciphertext"], ["[Bookmarks]"], ["prod=#109#0%45.32.", "110.171%22%root%%-1%"]]

/-- A report on this file has a record, and hides what is in `[Passwords]`. -/
theorem report_hidden_iff_bookmark :
    let sources : List Source := [⟨"MobaXterm.ini".toList, utf16File bookmarkWithoutPassword⟩]
    (previewReportFromSources byteLibrary sources false none).records.length = 1 ∧
      Hidden byteLibrary none sources := by
  intro sources
  have htexts : textsOf byteLibrary sources = [("MobaXterm.ini".toList, bookmarkWithoutPassword)] :=
    textsOf_utf16File _ _ _
  refine ⟨?_, (report_hidden_iff byteLibrary readsBase64_byteLibrary none _).mpr ?_⟩
  · unfold previewReportFromSources
    rw [htexts]
    decide +kernel
  · rw [htexts]
    rintro session ⟨before, earlier, later, after, hfiles, -⟩
    -- the one bookmark has no fifth field
    have hsessions : (sessionsOf byteLibrary none "MobaXterm.ini".toList bookmarkWithoutPassword).all
        (fun session => session.inlinePassword.isNone) = true := by
      decide +kernel
    have hmem : earlier ++ session :: later
        ∈ [sessionsOf byteLibrary none "MobaXterm.ini".toList bookmarkWithoutPassword] := by
      rw [List.map_singleton] at hfiles
      rw [hfiles]
      exact List.mem_append_right _ List.mem_cons_self
    rw [List.mem_singleton] at hmem
    have hnone := List.all_eq_true.mp hsessions session
      (hmem ▸ List.mem_append_right _ List.mem_cons_self)
    exact Or.inl (Option.isNone_iff_eq_none.mp hnone)

/-- A file with a session that has its password in it. -/
def bookmarkWithPassword : Str := textOfLines
  [["[Misc]"], ["MPSetAccount=DoubleSine"], ["MPSetComputer=ShadowSurface"], ["[Bookmarks]"], ["SubRep="],
    ["prod=#109#0%45.32.", "110.171%22%root%"] ++ sampleCiphertext ++ ["%-1%"]]

/-- The password of this session is in the report, though passwords are not asked for. -/
theorem password_reported :
    ¬ Hidden asciiLibrary none [⟨"MobaXterm.ini".toList, utf16File bookmarkWithPassword⟩] := by
  intro hhidden
  have hnone := (List.all_eq_true (p := fun record : ImportRecord => record.password.isNone)).mpr
    fun record hrecord => by rw [(hhidden.bare record hrecord).1]; rfl
  unfold previewReportFromSources at hnone
  rw [textsOf_utf16File] at hnone
  revert hnone
  decide +kernel

end Mobaxterm
end Navop
