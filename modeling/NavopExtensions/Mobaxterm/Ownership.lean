import NavopExtensions.Mobaxterm.Blind
import NavopExtensions.Mobaxterm.Matching

/-!
# Passwords that go to their own session

A password of `[Passwords]` is a session's own if its key names the user, the host and no other port,
and no second entry does. A password of `[Credentials]` is, if there is no entry for the user and the host,
and no second credential of the user.

The scan does not look at the port of a key and takes the first one that it finds, and entries that
could not be decrypted are not seen at all. So there are three ways to be misled (`Misled`), and the
passwords go to their own sessions if no session is (`own_passwords_iff`).
-/

namespace Navop
namespace Mobaxterm

open Text

/-! ### A session's own password -/

section Own

variable (file : ParsedFile) (username hostname : Str) (port : Option ℕ)

/-- An entry of `[Passwords]` is the session's own: it names the login, and no other entry does. -/
structure OwnEntry (key : Str) : Prop where
  named : names username hostname port key = true
  single : file.passwords.countP (fun entry => names username hostname port entry.1) = 1

/-- The only credential of the user is all that there is for the login. -/
structure OwnCredential : Prop where
  noEntry : ∀ entry ∈ file.passwords,
    entry.1 ∉ spellings username hostname port ∧ forLogin username hostname entry.1 = false
  single : (file.credentials.filter (·.1 = username)).length = 1

/-- What is found is the session's own. -/
def OwnOrigin : Origin → Prop
  | .entry key => OwnEntry file username hostname port key
  | .credential => OwnCredential file username hostname port

end Own

/-- Every record that gets a password from the store of a file gets its own one. -/
def OwnPasswords (library : Library) (masterPassword : Option Str) (path : Str) (file : ParsedFile) : Prop :=
  let store := PasswordStore.build library file true masterPassword
  ∀ entry ∈ file.sessions, ∀ record,
    sessionRecord library path entry (file.sectionGroups.lookup entry.sectionName) store = .record record →
      ∀ origin, store.originOf record.username record.host record.port = some origin →
        record.password = store.passwordAt record.username origin ∧
          OwnOrigin file record.username record.host record.port origin

/-! ### What can be found -/

section Found

variable (library : Library) (masterPassword : Option Str) (file : ParsedFile)
  (username hostname : Str) (port : Option ℕ)

/-- No entry that can be decrypted goes before this one, which is for the user and the host and can be
decrypted itself. -/
structure Foremost (key : Str) : Prop where
  opened : key ∈ openedKeys library masterPassword file
  isFor : IsFor username hostname port key
  first : ∀ other ∈ openedKeys library masterPassword file, ¬ GoesBefore username hostname port other key

/-- What the entries of a file can be like that a session gets the password of another one. -/
inductive Misled : Prop
  /-- The foremost entry is for another port. -/
  | foreignPort {key : Str} (foremost : Foremost library masterPassword file username hostname port key)
      (unspelled : key ∉ spellings username hostname port) (foreign : samePort port key = false)
  /-- The foremost entry names the login, and so does another one, which may not be decrypted. -/
  | rival {key : Str} (foremost : Foremost library masterPassword file username hostname port key)
      (named : names username hostname port key = true)
      (several : 1 < file.passwords.countP fun entry => names username hostname port entry.1)
  /-- No entry for the user and the host can be decrypted, though there is one. -/
  | hiddenEntry (closed : ∀ key ∈ openedKeys library masterPassword file,
        ¬ IsFor username hostname port key)
      (user : username ≠ [])
      (single : (openedCredentials library masterPassword file username).length = 1)
      {entry : Str × Str} (mem : entry ∈ file.passwords) (isFor : IsFor username hostname port entry.1)
  /-- One credential of the user can be decrypted, but there are others. -/
  | hiddenCredential (closed : ∀ key ∈ openedKeys library masterPassword file,
        ¬ IsFor username hostname port key)
      (user : username ≠ [])
      (single : (openedCredentials library masterPassword file username).length = 1)
      (several : 1 < (file.credentials.filter (·.1 = username)).length)

/-- The cases of what is found. -/
inductive Found : Option Origin → Prop
  | spelled {key : Str} (first : (spellings username hostname port).find?
      (· ∈ openedKeys library masterPassword file) = some key) : Found (some (.entry key))
  | scanned {key : Str}
      (unspelled : ∀ key ∈ spellings username hostname port, key ∉ openedKeys library masterPassword file)
      (first : FirstFor username hostname (openedKeys library masterPassword file) key) :
      Found (some (.entry key))
  | credential (unknown : ∀ key ∈ openedKeys library masterPassword file,
        key ∉ spellings username hostname port ∧ forLogin username hostname key = false)
      (user : username ≠ [])
      (single : (openedCredentials library masterPassword file username).length = 1) :
      Found (some .credential)
  | nothing (unspelled : ∀ key ∈ spellings username hostname port,
        key ∉ openedKeys library masterPassword file)
      (unread : ∀ key, ¬ FirstFor username hostname (openedKeys library masterPassword file) key)
      (uncredited : username ≠ [] →
        (openedCredentials library masterPassword file username).length ≠ 1) : Found none

/-- **What is found** in the store of a file. -/
theorem originOf_found :
    Found library masterPassword file username hostname port
      ((PasswordStore.build library file true masterPassword).originOf username hostname port) := by
  obtain ⟨hordered, hkeys, hlookup⟩ := build_opened library masterPassword file
  generalize PasswordStore.build library file true masterPassword = store at hordered hkeys hlookup
  have hspelled : (fun key => (List.lookup key store.decrypted).isSome)
      = fun key => decide (key ∈ openedKeys library masterPassword file) := by
    ext key
    rw [Bool.eq_iff_iff, decide_eq_true_iff, ← hkeys]
    induction store.decrypted with
    | nil => simp
    | cons entry rest ih =>
      obtain ⟨first, value⟩ := entry
      rw [List.lookup_cons, List.map_cons, List.mem_cons]
      by_cases heq : key = first
      · rw [heq, beq_self_eq_true]
        exact iff_of_true rfl (Or.inl rfl)
      · rw [beq_false_of_ne heq]
        exact ih.trans (or_iff_right heq).symm
  -- the keys of the store are the opened ones
  have hfirst : ∀ key, FirstFor username hostname (store.decrypted.map Prod.fst) key ↔
      FirstFor username hostname (openedKeys library masterPassword file) key := by
    intro key
    unfold FirstFor
    simp only [hkeys]
  unfold PasswordStore.originOf
  rw [hspelled]
  cases hfind : (spellings username hostname port).find?
      fun key => decide (key ∈ openedKeys library masterPassword file) with
  | some key => exact .spelled hfind
  | none =>
    -- no spelling is a key, so that the keys are scanned
    have hunspelled : ∀ key ∈ spellings username hostname port,
        key ∉ openedKeys library masterPassword file := by
      intro key hkey hopened
      exact absurd (decide_eq_true hopened) (List.find?_eq_none.mp hfind key hkey)
    dsimp only
    cases hscan : scanMatching (store.decrypted.map Prod.fst) username hostname with
    | some key => exact .scanned hunspelled ((hfirst key).mp ((scanMatching_eq_some hordered).mp hscan))
    | none =>
      -- no key reads as this login, so that the credentials come last
      have hunread : ∀ key, ¬ FirstFor username hostname (openedKeys library masterPassword file) key := by
        intro key hkey
        have hfound := (scanMatching_eq_some hordered).mpr ((hfirst key).mpr hkey)
        rw [hscan] at hfound
        cases hfound
      dsimp only
      by_cases hname : username.isEmpty = true
      · rw [if_pos hname]
        exact .nothing hunspelled hunread fun hne => absurd (by simpa using hname) hne
      · rw [if_neg hname]
        have hcredentials := hlookup username
        -- a credential is used only when every key is for another login
        have hunknown : ∀ key ∈ openedKeys library masterPassword file,
            key ∉ spellings username hostname port ∧ forLogin username hostname key = false := by
          intro key hkey
          refine ⟨fun hmem => hunspelled key hmem hkey, ?_⟩
          unfold scanMatching at hscan
          rw [if_neg hname, find?_hostKeys ((Bool.not_eq_true _).mp hname)] at hscan
          exact (Bool.not_eq_true _).mp (List.find?_eq_none.mp hscan key ((hkeys key).mpr hkey))
        split
        · next value hvalues =>
          refine .credential hunknown (by simpa using hname) ?_
          rw [← hcredentials, hvalues]
          rfl
        · next hvalues =>
          refine .nothing hunspelled hunread fun _ hlength => ?_
          rw [← hcredentials] at hlength
          obtain ⟨value, hvalue⟩ := List.length_eq_one_iff.mp hlength
          cases hstored : List.lookup username store.credentialsByUser with
          | none => rw [hstored] at hvalue; cases hvalue
          | some values =>
            rw [hstored] at hvalue
            exact hvalues value (by rw [hstored]; exact congrArg some hvalue)

end Found

/-! ### The foremost entry -/

section Foremost

variable {library : Library} {masterPassword : Option Str} {file : ParsedFile}
  {username hostname : Str} {port : Option ℕ} {key : Str}

theorem spellings_ne_nil (h : key ∈ spellings username hostname port) : username.isEmpty = false := by
  unfold spellings at h
  by_contra hname
  rw [Bool.not_eq_false] at hname
  rw [if_pos hname] at h
  exact List.not_mem_nil h

/-- There is one foremost entry at most. -/
theorem Foremost.unique {other : Str}
    (h : Foremost library masterPassword file username hostname port key)
    (hother : Foremost library masterPassword file username hostname port other) : other = key := by
  by_contra hne
  have hbefore := h.first other hother.opened
  have hafter := hother.first key h.opened
  unfold GoesBefore at hbefore hafter
  by_cases hname : username.isEmpty = true
  · rw [if_pos hname] at hbefore
    exact hbefore ⟨hother.isFor, hne⟩
  · rw [if_neg hname] at hbefore hafter
    -- the two are compared by their places, and then as texts
    have hle := not_or.mp fun hlt => hbefore ⟨hother.isFor, hlt⟩
    have hge := not_or.mp fun hlt => hafter ⟨h.isFor, hlt⟩
    have hplace := le_antisymm (not_lt.mp hge.1) (not_lt.mp hle.1)
    obtain hlt | heq | hgt := lt_trichotomy other key
    · exact hle.2 ⟨hplace, hlt⟩
    · exact hne heq
    · exact hge.2 ⟨hplace.symm, hgt⟩

/-- The first spelling that can be decrypted is the foremost entry. -/
theorem foremost_spelled (first : (spellings username hostname port).find?
    (· ∈ openedKeys library masterPassword file) = some key) :
    Foremost library masterPassword file username hostname port key := by
  have hmem := List.mem_of_find?_eq_some first
  have hopened : key ∈ openedKeys library masterPassword file := by
    have hkey := List.find?_some first
    exact of_decide_eq_true hkey
  refine ⟨hopened, Or.inl hmem, fun other hother hbefore => ?_⟩
  have hname := spellings_ne_nil hmem
  obtain ⟨-, hbefore⟩ := hbefore
  rw [if_neg (by rw [hname]; exact Bool.false_ne_true)] at hbefore
  obtain ⟨before, after, hspellings, hnone⟩ := (List.find?_eq_some_iff_append.mp first).2
  have hkeyBefore : key ∉ before := fun hin => by
    have hnot := hnone key hin
    rw [decide_eq_true hopened] at hnot
    cases hnot
  have hotherBefore : other ∉ before := fun hin => by
    have hnot := hnone other hin
    rw [decide_eq_true hother] at hnot
    cases hnot
  -- the key comes no later among the spellings than any other opened key
  have hplace : (spellings username hostname port).idxOf key = before.length := by
    rw [hspellings, List.idxOf_append_of_notMem hkeyBefore, List.idxOf_cons_self, Nat.add_zero]
  have hlater : before.length ≤ (spellings username hostname port).idxOf other := by
    rw [hspellings, List.idxOf_append_of_notMem hotherBefore]
    exact Nat.le_add_right _ _
  rw [hplace] at hbefore
  obtain hlt | ⟨heq, hlt⟩ := hbefore
  · exact absurd hlt (not_lt.mpr hlater)
  · -- at the same place among the spellings there is the same key
    obtain rfl : other = key := by
      rw [hspellings, List.idxOf_append_of_notMem hotherBefore, List.idxOf_cons] at heq
      by_contra hne
      rw [beq_false_of_ne (Ne.symm hne), cond_false] at heq
      omega
    exact lt_irrefl _ hlt

/-- The keys that are no spelling are in one place. -/
theorem idxOf_of_not_mem (h : key ∉ spellings username hostname port) :
    (spellings username hostname port).idxOf key = (spellings username hostname port).length :=
  List.idxOf_eq_length_iff.mpr h

/-- If no spelling can be decrypted, the foremost entry is the one that the scan finds. -/
theorem foremost_iff_firstFor (unspelled : ∀ key ∈ spellings username hostname port,
      key ∉ openedKeys library masterPassword file) :
    Foremost library masterPassword file username hostname port key ↔
      FirstFor username hostname (openedKeys library masterPassword file) key := by
  have hfor : ∀ other ∈ openedKeys library masterPassword file,
      IsFor username hostname port other ↔ forLogin username hostname other = true :=
    fun other hother => or_iff_right fun hmem => unspelled other hmem hother
  -- no opened key is among the spellings, and all have the same place, the last
  have hplace : ∀ other ∈ openedKeys library masterPassword file,
      (spellings username hostname port).idxOf other = (spellings username hostname port).length :=
    fun other hother => idxOf_of_not_mem fun hmem => unspelled other hmem hother
  constructor
  · rintro ⟨hopened, hisFor, hfirst⟩
    refine ⟨hopened, (hfor key hopened).mp hisFor, fun other hother hlogin => ?_⟩
    have hbefore := hfirst other hother
    unfold GoesBefore at hbefore
    split
    · next hname =>
      rw [if_pos hname] at hbefore
      by_contra hne
      exact hbefore ⟨Or.inr hlogin, hne⟩
    · next hname =>
      rw [if_neg hname, hplace other hother, hplace key hopened] at hbefore
      by_contra hlt
      exact hbefore ⟨Or.inr hlogin, Or.inr ⟨rfl, not_le.mp hlt⟩⟩
  · rintro ⟨hopened, hlogin, hfirst⟩
    refine ⟨hopened, Or.inr hlogin, fun other hother hbefore => ?_⟩
    obtain ⟨hisFor, hbefore⟩ := hbefore
    have hleast := hfirst other hother ((hfor other hother).mp hisFor)
    split at hbefore
    · next hname =>
      rw [if_pos hname] at hleast
      exact hbefore hleast
    · next hname =>
      rw [if_neg hname] at hleast
      rw [hplace other hother, hplace key hopened] at hbefore
      obtain hlt | ⟨-, hlt⟩ := hbefore
      · exact lt_irrefl _ hlt
      · exact absurd hleast (not_le.mpr hlt)

/-- **What is found first** is the foremost entry, if there is one. -/
theorem found_entry_iff {found : Option Origin}
    (h : Found library masterPassword file username hostname port found) :
    found = some (.entry key) ↔ Foremost library masterPassword file username hostname port key := by
  cases h with
  | @spelled first hfirst =>
    -- in each of the two searches the key that is found is the foremost one
    have hforemost := foremost_spelled hfirst
    constructor
    · intro heq
      cases heq
      exact hforemost
    · intro hkey
      rw [hforemost.unique hkey]
  | @scanned first unspelled hfirst =>
    have hforemost := (foremost_iff_firstFor unspelled).mpr hfirst
    constructor
    · intro heq
      cases heq
      exact hforemost
    · intro hkey
      rw [hforemost.unique hkey]
  -- nothing was found for the login, and the foremost key would have been
  | credential unknown user single =>
    refine iff_of_false (fun heq => by cases heq) fun hkey => ?_
    obtain ⟨hunspelled, hunread⟩ := unknown key hkey.opened
    obtain hmem | hlogin := hkey.isFor
    · exact hunspelled hmem
    · rw [hunread] at hlogin
      cases hlogin
  | nothing unspelled unread uncredited =>
    refine iff_of_false (fun heq => by cases heq) fun hkey => ?_
    exact unread key ((foremost_iff_firstFor unspelled).mp hkey)

/-- A credential is found if there is no entry, and one of the user. -/
theorem found_credential_iff {found : Option Origin}
    (h : Found library masterPassword file username hostname port found) :
    found = some .credential ↔
      (∀ key ∈ openedKeys library masterPassword file, ¬ IsFor username hostname port key) ∧
        username ≠ [] ∧ (openedCredentials library masterPassword file username).length = 1 := by
  cases h with
  -- a key that is for the login comes before the credentials
  | @spelled first hfirst =>
    have hforemost := foremost_spelled hfirst
    refine iff_of_false (fun heq => by cases heq) fun hnone => ?_
    exact hnone.1 first hforemost.opened hforemost.isFor
  | @scanned first unspelled hfirst =>
    refine iff_of_false (fun heq => by cases heq) fun hnone => ?_
    exact hnone.1 first hfirst.1 (Or.inr hfirst.2.1)
  | credential unknown user single =>
    refine iff_of_true rfl ⟨fun key hkey hisFor => ?_, user, single⟩
    obtain ⟨hunspelled, hunread⟩ := unknown key hkey
    obtain hmem | hlogin := hisFor
    · exact hunspelled hmem
    · rw [hunread] at hlogin
      cases hlogin
  | nothing unspelled unread uncredited =>
    exact iff_of_false (fun heq => by cases heq) fun hnone => uncredited hnone.2.1 hnone.2.2

/-! ### When it is the session's own -/

/-- An entry that can be decrypted stands in the file. -/
theorem mem_of_opened (h : key ∈ openedKeys library masterPassword file) :
    ∃ entry ∈ file.passwords, entry.1 = key := by
  obtain ⟨entry, hentry, heq⟩ := List.mem_map.mp h
  exact ⟨entry, (List.mem_filter.mp hentry).1, heq⟩

/-- The foremost entry is the session's own if it names the login, and no other one does. -/
theorem Foremost.ownEntry_iff (h : Foremost library masterPassword file username hostname port key) :
    OwnEntry file username hostname port key ↔
      ¬ (key ∉ spellings username hostname port ∧ samePort port key = false) ∧
        ¬ (names username hostname port key = true ∧
          1 < file.passwords.countP fun entry => names username hostname port entry.1) := by
  -- the key is for the login; what is left is the port
  have hnames : names username hostname port key = true ↔
      ¬ (key ∉ spellings username hostname port ∧ samePort port key = false) := by
    unfold names
    rw [Bool.or_eq_true, decide_eq_true_iff, Bool.and_eq_true, not_and_or, not_not,
      Bool.not_eq_false]
    refine ⟨Or.imp_right And.right, ?_⟩
    rintro (hmem | hport)
    · exact Or.inl hmem
    · obtain hmem | hlogin := h.isFor
      · exact Or.inl hmem
      · exact Or.inr ⟨hlogin, hport⟩
  obtain ⟨entry, hentry, rfl⟩ := mem_of_opened h.opened
  rw [← hnames]
  constructor
  · rintro ⟨hnamed, hsingle⟩
    refine ⟨hnamed, fun hseveral => ?_⟩
    rw [hsingle] at hseveral
    exact lt_irrefl 1 hseveral.2
  · rintro ⟨hnamed, hfew⟩
    refine ⟨hnamed, le_antisymm (not_lt.mp fun hlt => hfew ⟨hnamed, hlt⟩) ?_⟩
    exact List.countP_pos_iff.mpr ⟨entry, hentry, hnamed⟩

/-- One credential that can be decrypted is one of the file. -/
theorem length_credentials_pos
    (h : (openedCredentials library masterPassword file username).length = 1) :
    0 < (file.credentials.filter (·.1 = username)).length := by
  unfold openedCredentials at h
  exact lt_of_lt_of_le (by rw [h]; exact Nat.one_pos) (List.length_filterMap_le _ _)

/-- **What is found is the session's own** if the session is not misled, and only then. -/
theorem ownOrigin_iff {found : Option Origin}
    (h : Found library masterPassword file username hostname port found) :
    (∀ origin, found = some origin → OwnOrigin file username hostname port origin) ↔
      ¬ Misled library masterPassword file username hostname port := by
  constructor
  · intro hown hmisled
    -- each of the four ways contradicts what the origin owes the session
    cases hmisled with
    | foreignPort foremost unspelled foreign =>
      have hentry := hown _ ((found_entry_iff h).mpr foremost)
      exact (foremost.ownEntry_iff.mp hentry).1 ⟨unspelled, foreign⟩
    | rival foremost named several =>
      have hentry := hown _ ((found_entry_iff h).mpr foremost)
      exact (foremost.ownEntry_iff.mp hentry).2 ⟨named, several⟩
    | hiddenEntry closed user single mem isFor =>
      have hcredential := hown _ ((found_credential_iff h).mpr ⟨closed, user, single⟩)
      obtain ⟨hunspelled, hunread⟩ := hcredential.noEntry _ mem
      obtain hmem | hlogin := isFor
      · exact hunspelled hmem
      · rw [hunread] at hlogin
        cases hlogin
    | hiddenCredential closed user single several =>
      have hcredential := hown _ ((found_credential_iff h).mpr ⟨closed, user, single⟩)
      rw [hcredential.single] at several
      exact lt_irrefl 1 several
  · intro hnot origin horigin
    cases origin with
    | entry key =>
      have hforemost := (found_entry_iff h).mp horigin
      refine hforemost.ownEntry_iff.mpr ⟨?_, ?_⟩
      · exact fun hforeign => hnot (.foreignPort hforemost hforeign.1 hforeign.2)
      · exact fun hrival => hnot (.rival hforemost hrival.1 hrival.2)
    | credential =>
      obtain ⟨hclosed, huser, hsingle⟩ := (found_credential_iff h).mp horigin
      refine ⟨fun entry hentry => ⟨fun hmem => ?_, ?_⟩, ?_⟩
      -- an entry that did not decrypt would have been for this login
      · exact hnot (.hiddenEntry hclosed huser hsingle hentry (Or.inl hmem))
      · rw [Bool.eq_false_iff]
        exact fun hlogin => hnot (.hiddenEntry hclosed huser hsingle hentry (Or.inr hlogin))
      · refine le_antisymm (not_lt.mp fun hlt => ?_) (length_credentials_pos hsingle)
        exact hnot (.hiddenCredential hclosed huser hsingle hlt)

end Foremost

section File

variable {library : Library} {masterPassword : Option Str} {path : Str} {file : ParsedFile}

/-- Under the origin there is a password. -/
theorem passwordAt_isSome {username hostname : Str} {port : Option ℕ} {origin : Origin}
    (h : (PasswordStore.build library file true masterPassword).originOf username hostname port
      = some origin) :
    ((PasswordStore.build library file true masterPassword).passwordAt username origin).isSome = true := by
  obtain ⟨hordered, -, -⟩ := build_opened library masterPassword file
  generalize PasswordStore.build library file true masterPassword = store at h hordered
  -- every key of the store has a value
  have hlookup : ∀ {key}, key ∈ store.decrypted.map Prod.fst →
      (List.lookup key store.decrypted).isSome = true := by
    intro key hkey
    rw [Option.isSome_iff_ne_none]
    intro hnone
    obtain ⟨entry, hentry, rfl⟩ := List.mem_map.mp hkey
    exact bne_iff_ne.mp (List.lookup_eq_none_iff.mp hnone entry hentry) rfl
  unfold PasswordStore.originOf at h
  split at h
  · next key hfind =>
    obtain rfl := Option.some.inj h
    have hsome := List.find?_some hfind
    exact hsome
  · split at h
    · next key hscan =>
      obtain rfl := Option.some.inj h
      exact hlookup ((scanMatching_eq_some hordered).mp hscan).1
    · split at h
      · cases h
      · split at h
        · next value hvalues =>
          obtain rfl := Option.some.inj h
          change ((List.lookup username store.credentialsByUser).bind List.head?).isSome = true
          rw [hvalues]
          rfl
        · cases h

/-- A record carries what the store has for its login. -/
theorem password_recordOf_origin {entry : SessionEntry} {group : Option Str} {target : Target}
    {origin : Origin}
    (h : (PasswordStore.build library file true masterPassword).originOf target.username target.host
      target.port = some origin) :
    (recordOf library path entry group (PasswordStore.build library file true masterPassword)
        target).password
      = (PasswordStore.build library file true masterPassword).passwordAt target.username origin := by
  obtain ⟨password, hpassword⟩ := Option.isSome_iff_exists.mp (passwordAt_isSome h)
  have hlookup : (PasswordStore.build library file true masterPassword).lookup target.username
      target.host target.port = some password := by
    rw [PasswordStore.lookup_eq, h, Option.bind_some, hpassword]
  unfold recordOf
  rw [hlookup, Option.some_or, hpassword]
  rfl

/-- **Passwords go to their own sessions** if no session that leads somewhere is misled, and only then. -/
theorem own_passwords_iff (library : Library) (masterPassword : Option Str) (path : Str)
    (file : ParsedFile) :
    OwnPasswords library masterPassword path file ↔
      ∀ entry ∈ file.sessions, ∀ target, targetOf entry.value = .ok target → target.host ≠ [] →
        ¬ Misled library masterPassword file target.username target.host target.port := by
  constructor
  · intro hown entry hentry target htarget hhost
    -- the session gives a record as soon as its value can be read and names a host
    have hrecord : sessionRecord library path entry (file.sectionGroups.lookup entry.sectionName)
        (PasswordStore.build library file true masterPassword)
          = .record (recordOf library path entry (file.sectionGroups.lookup entry.sectionName)
            (PasswordStore.build library file true masterPassword) target) := by
      unfold sessionRecord
      rw [htarget]
      exact if_neg (by simpa using hhost)
    exact (ownOrigin_iff (originOf_found library masterPassword file target.username target.host
      target.port)).mp fun origin horigin => (hown entry hentry _ hrecord origin horigin).2
  · intro hnot entry hentry record hrecord origin horigin
    unfold sessionRecord at hrecord
    split at hrecord
    · next outcome houtcome =>
      rw [hrecord] at houtcome
      unfold targetOf at houtcome
      split at houtcome
      · split at houtcome
        · cases houtcome
        · cases houtcome
      · split at houtcome
        · cases houtcome
        · cases houtcome
    · next target htarget =>
      split at hrecord
      · cases hrecord
      · next hhost =>
        -- every record comes from a target that names a host
        obtain rfl := SessionOutcome.record.inj hrecord
        refine ⟨password_recordOf_origin horigin, ?_⟩
        exact (ownOrigin_iff (originOf_found library masterPassword file target.username target.host
          target.port)).mpr (hnot entry hentry target htarget (by simpa using hhost)) origin horigin

end File

/-- A file with a password for another port. -/
def foreignPortText : Str := textOfLines
  [["[Misc]"], ["MPSetAccount=DoubleSine"], ["MPSetComputer=ShadowSurface"], ["[Passwords]"],
    ["ssh2222:root@", "45.32.110.171="] ++ sampleCiphertext, ["[Bookmarks]"], ["SubRep="],
    ["prod=#109#0%45.32.", "110.171%22%root%%-1%"]]

/-- Its session, at port 22. -/
def foreignPortSession : SessionEntry :=
  ⟨"Bookmarks".toList, "prod".toList, "#109#0%45.32.110.171%22%root%%-1%".toList⟩

/-- The session at port 22 gets the password for port 2222. -/
theorem foreign_port_password :
    ¬ OwnPasswords asciiLibrary none "MobaXterm.ini".toList (ParsedFile.parse foreignPortText) := by
  intro hown
  have hmem : foreignPortSession ∈ (ParsedFile.parse foreignPortText).sessions := by decide +kernel
  have hrecord : sessionRecord asciiLibrary "MobaXterm.ini".toList foreignPortSession
      ((ParsedFile.parse foreignPortText).sectionGroups.lookup foreignPortSession.sectionName)
      (PasswordStore.build asciiLibrary (ParsedFile.parse foreignPortText) true none)
        = .record (recordOf asciiLibrary "MobaXterm.ini".toList foreignPortSession none
          (PasswordStore.build asciiLibrary (ParsedFile.parse foreignPortText) true none)
          ⟨"45.32.110.171".toList, some 22, "root".toList, none⟩) := by decide +kernel
  have hsession := hown foreignPortSession hmem _ hrecord
    (.entry "ssh2222:root@45.32.110.171".toList) (by decide +kernel)
  exact absurd hsession.2.named (by decide +kernel)

end Mobaxterm
end Navop
