import NavopExtensions.Mobaxterm.Report

/-!
# Whose password a session gets

A session asks the store for its user, host and port: three spellings of a key first, then the keys
that can be read as its user and host, then the credentials of the user. Here every answer is kept
with its origin, and compared with what the file says.

The keys of the store are those that could be decrypted. Which origin is found depends on them, and
whether it is the right one depends on the whole file (`own_passwords_iff`).
-/

namespace Navop
namespace Mobaxterm

open Text

/-! ### Ordered maps -/

section Maps

variable {β : Type*} {m : List (Str × β)} {key : Str} {f : Option β → β}

theorem mem_keys_alter {other : Str} :
    other ∈ (alter key f m).map Prod.fst ↔ other = key ∨ other ∈ m.map Prod.fst := by
  induction m with
  | nil => exact ⟨fun h => Or.inl (List.mem_singleton.mp h), fun h => List.mem_singleton.mpr
      (h.resolve_right List.not_mem_nil)⟩
  | cons entry m ih =>
    obtain ⟨first, value⟩ := entry
    unfold alter
    by_cases heq : first = key
    · rw [if_pos heq, heq]
      simp
    · rw [if_neg heq]
      by_cases hlt : key < first
      · rw [if_pos hlt]
        simp
      · rw [if_neg hlt, List.map_cons, List.mem_cons, ih, List.map_cons, List.mem_cons]
        exact or_left_comm

/-- The keys of a map are in order. -/
def Ordered (m : List (Str × β)) : Prop := (m.map Prod.fst).Pairwise (· < ·)

theorem Ordered.alter (h : Ordered m) : Ordered (alter key f m) := by
  induction m with
  | nil => exact List.pairwise_singleton _ _
  | cons entry m ih =>
    obtain ⟨first, value⟩ := entry
    obtain ⟨hfirst, hrest⟩ := List.pairwise_cons.mp h
    unfold Mobaxterm.alter
    -- the key is there, comes before the first, or belongs further back
    by_cases heq : first = key
    · rw [if_pos heq, ← heq]
      exact h
    · rw [if_neg heq]
      by_cases hlt : key < first
      · rw [if_pos hlt]
        refine List.pairwise_cons.mpr ⟨fun other hother => ?_, h⟩
        obtain rfl | hother := List.mem_cons.mp hother
        · exact hlt
        · exact hlt.trans (hfirst other hother)
      · rw [if_neg hlt]
        refine List.pairwise_cons.mpr ⟨fun other hother => ?_, ih hrest⟩
        obtain rfl | hother := mem_keys_alter.mp hother
        · exact lt_of_le_of_ne (not_lt.mp hlt) heq
        · exact hfirst other hother

/-- What is found under a key. -/
theorem Ordered.lookup_alter (h : Ordered m) (other : Str) :
    (Mobaxterm.alter key f m).lookup other = if other = key then some (f (m.lookup key)) else m.lookup other := by
  induction m with
  | nil =>
    change List.lookup other [(key, f none)] = _
    by_cases heq : other = key
    · rw [if_pos heq, heq, List.lookup_cons_self]
      rfl
    · rw [if_neg heq, List.lookup_cons, beq_false_of_ne heq]
  | cons entry m ih =>
    obtain ⟨first, value⟩ := entry
    obtain ⟨hfirst, hrest⟩ := List.pairwise_cons.mp h
    unfold Mobaxterm.alter
    by_cases heq : first = key
    · rw [if_pos heq, heq, List.lookup_cons_self]
      by_cases hother : other = key
      · rw [if_pos hother, hother, List.lookup_cons_self]
      · rw [if_neg hother, List.lookup_cons, List.lookup_cons, beq_false_of_ne hother]
    · rw [if_neg heq]
      have hkey : List.lookup key ((first, value) :: m) = List.lookup key m := by
        rw [List.lookup_cons, beq_false_of_ne (Ne.symm heq)]
      by_cases hlt : key < first
      · -- the key comes before all others, so that it is new
        rw [if_pos hlt]
        have hnew : List.lookup key m = none := by
          rw [List.lookup_eq_none_iff]
          intro entry hentry
          have hafter := hlt.trans (hfirst entry.1 (List.mem_map_of_mem hentry))
          exact bne_iff_ne.mpr hafter.ne
        by_cases hother : other = key
        · rw [if_pos hother, hother, List.lookup_cons_self, hkey, hnew]
        · rw [if_neg hother, List.lookup_cons, beq_false_of_ne hother]
      · rw [if_neg hlt, List.lookup_cons, ih hrest, hkey]
        by_cases hother : other = key
        · rw [hother, beq_false_of_ne (Ne.symm heq), if_pos rfl, if_pos rfl]
        · rw [if_neg hother, if_neg hother, List.lookup_cons]

end Maps

/-! ### What the file says -/

/-- The port that a key names: the digits between its scheme and the colon. -/
def keyPort (raw : Str) : Option ℕ :=
  let value := trim raw
  let digits := (value.dropWhile Char.isAlpha).takeWhile Char.isDigit
  let rest := (value.dropWhile Char.isAlpha).dropWhile Char.isDigit
  if (value.takeWhile Char.isAlpha).isEmpty || digits.isEmpty || rest.head? ≠ some ':' then none
  else some (digits.foldl (fun number digit => number * 10 + (digit.toNat - '0'.toNat)) 0)

section Login

variable (username hostname : Str) (port : Option ℕ)

/-- The three spellings of the key of a login. -/
def spellings : List Str :=
  if username.isEmpty then [] else passwordKeyCandidates username hostname port

/-- A key can be read as one of the user and the host, or of anyone there. -/
def forLogin (key : Str) : Bool :=
  match parsePasswordKey key with
  | some (user, host) => sameHost host hostname && (username.isEmpty || user = username)
  | none => false

/-- A key names no other port. -/
def samePort (key : Str) : Bool := keyPort key = none || keyPort key = some (port.getD 22)

/-- A key names the login: it is one of its spellings, or it can be read as one of the user and the
host, and names no other port. -/
def names (key : Str) : Bool :=
  decide (key ∈ spellings username hostname port) || (forLogin username hostname key && samePort port key)

/-- A key is for the user and the host, whatever port it names. -/
def IsFor (key : Str) : Prop :=
  key ∈ spellings username hostname port ∨ forLogin username hostname key = true

/-- Of two keys for a user and a host one goes before the other: an earlier spelling before a later one,
any spelling before another key, and of the others the smaller one. If no user is named, every other key
is in the way. -/
def GoesBefore (other key : Str) : Prop :=
  IsFor username hostname port other ∧
    if username.isEmpty then other ≠ key
    else (spellings username hostname port).idxOf other < (spellings username hostname port).idxOf key ∨
      ((spellings username hostname port).idxOf other = (spellings username hostname port).idxOf key ∧
        other < key)

end Login

/-- Where a password comes from. -/
inductive Origin
  | entry (key : Str)
  | credential
  deriving DecidableEq

namespace PasswordStore

variable (store : PasswordStore)

/-- `lookup`, with where it finds the password. -/
def originOf (username hostname : Str) (port : Option ℕ) : Option Origin :=
  match (spellings username hostname port).find? fun key =>
      (List.lookup key store.decrypted).isSome with
  | some key => some (.entry key)
  | none =>
    match scanMatching (store.decrypted.map Prod.fst) username hostname with
    | some key => some (.entry key)
    | none =>
      if username.isEmpty then none
      else
        match List.lookup username store.credentialsByUser with
        | some [_] => some .credential
        | _ => none

/-- The password that is kept there. -/
def passwordAt (username : Str) : Origin → Option Str
  | .entry key => List.lookup key store.decrypted
  | .credential => (List.lookup username store.credentialsByUser).bind List.head?

/-- What `lookup` returns is kept where `originOf` says. -/
theorem lookup_eq (username hostname : Str) (port : Option ℕ) :
    store.lookup username hostname port
      = (store.originOf username hostname port).bind (store.passwordAt username) := by
  -- the first key found is the one whose value is taken
  have hspelled : ∀ keys : List Str, keys.findSome? (List.lookup · store.decrypted)
      = (keys.find? fun key => (List.lookup key store.decrypted).isSome).bind
        (List.lookup · store.decrypted) := by
    intro keys
    induction keys with
    | nil => rfl
    | cons key keys ih =>
      rw [List.findSome?_cons, List.find?_cons]
      cases hkey : List.lookup key store.decrypted with
      | none => exact ih
      | some value =>
        change some value = (some key).bind (List.lookup · store.decrypted)
        rw [Option.bind_some, hkey]
  unfold lookup originOf
  change (match (spellings username hostname port).findSome? (List.lookup · store.decrypted) with
    | some value => _ | none => _) = _
  rw [hspelled]
  cases hfind : (spellings username hostname port).find?
      fun key => (List.lookup key store.decrypted).isSome with
  | some key =>
    have hsome := List.find?_some hfind
    obtain ⟨value, hvalue⟩ := Option.isSome_iff_exists.mp hsome
    dsimp only
    rw [Option.bind_some, Option.bind_some, hvalue]
    exact hvalue.symm
  | none =>
    dsimp only [Option.bind_none]
    cases scanMatching (store.decrypted.map Prod.fst) username hostname with
    | some key => rfl
    | none =>
      dsimp only
      split
      · rfl
      · cases hvalues : List.lookup username store.credentialsByUser with
        | none => rfl
        | some values =>
          match values with
          | [] => rfl
          | [value] =>
            change some value = (List.lookup username store.credentialsByUser).bind List.head?
            rw [hvalues]
            rfl
          -- two credentials of one user are not told apart, and neither is used
          | _ :: _ :: _ => rfl

end PasswordStore

/-! ### What the store holds -/

section Build

variable (library : Library) (masterPassword : Option Str) (file : ParsedFile)

/-- A password of the file, if it can be decrypted. -/
def secretOf (ciphertext : Str) (connUsername connHostname : Option Str) : Option Str :=
  if file.hasSesspass && masterPassword.isNone then none
  else
    library.decryptStoredSecret ⟨ciphertext, masterPassword, file.misc.lookup "sessionp".toList,
      file.misc.lookup "mpsetaccount".toList, file.misc.lookup "mpsetcomputer".toList, connUsername,
      connHostname⟩

/-- What a password of `[Passwords]` decrypts to, with the login of its key as key material. -/
def entrySecret (entry : Str × Str) : Option Str :=
  secretOf library masterPassword file entry.2 ((parsePasswordKey entry.1).map Prod.fst)
    ((parsePasswordKey entry.1).map Prod.snd)

/-- What a password of `[Credentials]` decrypts to, for which no login is known. -/
def credentialSecret (entry : Str × Str) : Option Str :=
  secretOf library masterPassword file entry.2 none none

/-- The keys of `[Passwords]` with a password that can be decrypted. -/
def openedKeys : List Str :=
  (file.passwords.filter fun entry => (entrySecret library masterPassword file entry).isSome).map Prod.fst

/-- The passwords of a user in `[Credentials]` that can be decrypted. -/
def openedCredentials (username : Str) : List Str :=
  (file.credentials.filter (·.1 = username)).filterMap (credentialSecret library masterPassword file)

variable {library masterPassword file}

/-- The parts of a store that decryption uses are those of the file. -/
structure Started (masterPassword : Option Str) (file : ParsedFile) (store : PasswordStore) : Prop where
  sessionP : store.sessionP = file.misc.lookup "sessionp".toList
  sysUsername : store.sysUsername = file.misc.lookup "mpsetaccount".toList
  sysHostname : store.sysHostname = file.misc.lookup "mpsetcomputer".toList
  unlocked : (file.hasSesspass && masterPassword.isNone) = false

theorem Started.secretOf {store : PasswordStore} (h : Started masterPassword file store)
    (ciphertext : Str) (connUsername connHostname : Option Str) :
    library.decryptStoredSecret ⟨ciphertext, masterPassword, store.sessionP, store.sysUsername,
        store.sysHostname, connUsername, connHostname⟩
      = secretOf library masterPassword file ciphertext connUsername connHostname := by
  unfold Mobaxterm.secretOf
  rw [h.unlocked, h.sessionP, h.sysUsername, h.sysHostname]
  rfl

/-- The keys of passwords that were added. -/
theorem foldl_addPassword (entries : List (Str × Str)) {store : PasswordStore}
    (h : Started masterPassword file store) (hordered : Ordered store.decrypted) :
    let added := entries.foldl (PasswordStore.addPassword library masterPassword) store
    Started masterPassword file added ∧ Ordered added.decrypted ∧
      added.credentialsByUser = store.credentialsByUser ∧
      ∀ key, key ∈ added.decrypted.map Prod.fst ↔
        key ∈ store.decrypted.map Prod.fst ∨
          key ∈ (entries.filter fun entry =>
            (entrySecret library masterPassword file entry).isSome).map Prod.fst := by
  induction entries generalizing store with
  | nil => exact ⟨h, hordered, rfl, fun key => ⟨Or.inl, fun h => h.resolve_right List.not_mem_nil⟩⟩
  | cons entry entries ih =>
    have hsecret := @Started.secretOf library _ _ _ h entry.2 ((parsePasswordKey entry.1).map Prod.fst)
      ((parsePasswordKey entry.1).map Prod.snd)
    rw [List.foldl_cons]
    cases hentry : entrySecret library masterPassword file entry with
    | none =>
      -- what the key does not open is noted down as undecrypted
      have hstep : PasswordStore.addPassword library masterPassword store entry
          = { store with undecrypted := store.undecrypted ++ [entry.1] } := by
        unfold PasswordStore.addPassword
        dsimp only
        rw [hsecret]
        change (match entrySecret library masterPassword file entry with
          | some _ => _ | none => _) = _
        rw [hentry]
      have hnext := @ih { store with undecrypted := store.undecrypted ++ [entry.1] }
        ⟨h.sessionP, h.sysUsername, h.sysHostname, h.unlocked⟩ hordered
      rw [hstep, List.filter_cons_of_neg (by rw [hentry]; exact Bool.false_ne_true)]
      exact hnext
    | some plaintext =>
      have hstep : PasswordStore.addPassword library masterPassword store entry
          = { store with decrypted := alter entry.1 (fun _ => plaintext) store.decrypted } := by
        unfold PasswordStore.addPassword
        dsimp only
        rw [hsecret]
        change (match entrySecret library masterPassword file entry with
          | some _ => _ | none => _) = _
        rw [hentry]
      obtain ⟨hstarted, hord, hcredentials, hkeys⟩ :=
        @ih { store with decrypted := alter entry.1 (fun _ => plaintext) store.decrypted }
          ⟨h.sessionP, h.sysUsername, h.sysHostname, h.unlocked⟩ hordered.alter
      rw [hstep, List.filter_cons_of_pos (by rw [hentry]; rfl)]
      refine ⟨hstarted, hord, hcredentials, fun key => ?_⟩
      rw [hkeys, mem_keys_alter, List.map_cons, List.mem_cons, or_comm (a := key = entry.1), or_assoc]

/-- The credentials that were added. -/
theorem foldl_addCredential (entries : List (Str × Str)) {store : PasswordStore}
    (h : Started masterPassword file store) (hordered : Ordered store.credentialsByUser) :
    let added := entries.foldl (PasswordStore.addCredential library masterPassword) store
    added.decrypted = store.decrypted ∧
      ∀ username, (List.lookup username added.credentialsByUser).getD []
        = (List.lookup username store.credentialsByUser).getD []
          ++ (entries.filter (·.1 = username)).filterMap
            (credentialSecret library masterPassword file) := by
  induction entries generalizing store with
  | nil => exact ⟨rfl, fun username => (List.append_nil _).symm⟩
  | cons entry entries ih =>
    have hsecret := @Started.secretOf library _ _ _ h entry.2 none none
    rw [List.foldl_cons]
    cases hentry : credentialSecret library masterPassword file entry with
    | none =>
      have hstep : PasswordStore.addCredential library masterPassword store entry
          = { store with failedCredentialUsers := store.failedCredentialUsers ++ [entry.1] } := by
        unfold PasswordStore.addCredential
        rw [hsecret]
        change (match credentialSecret library masterPassword file entry with
          | some _ => _ | none => _) = _
        rw [hentry]
      obtain ⟨hdecrypted, hlookup⟩ :=
        @ih { store with failedCredentialUsers := store.failedCredentialUsers ++ [entry.1] }
          ⟨h.sessionP, h.sysUsername, h.sysHostname, h.unlocked⟩ hordered
      rw [hstep]
      refine ⟨hdecrypted, fun username => ?_⟩
      rw [hlookup, List.filter_cons]
      split
      · rw [List.filterMap_cons_none hentry]
      · rfl
    | some plaintext =>
      have hstep : PasswordStore.addCredential library masterPassword store entry
          = { store with
              credentialsByUser := alter entry.1 (·.getD [] ++ [plaintext]) store.credentialsByUser } := by
        unfold PasswordStore.addCredential
        rw [hsecret]
        change (match credentialSecret library masterPassword file entry with
          | some _ => _ | none => _) = _
        rw [hentry]
      obtain ⟨hdecrypted, hlookup⟩ :=
        @ih { store with
              credentialsByUser := alter entry.1 (·.getD [] ++ [plaintext]) store.credentialsByUser }
          ⟨h.sessionP, h.sysUsername, h.sysHostname, h.unlocked⟩ hordered.alter
      rw [hstep]
      refine ⟨hdecrypted, fun username => ?_⟩
      rw [hlookup, hordered.lookup_alter, List.filter_cons]
      -- a credential is put behind those of its own user only
      by_cases heq : username = entry.1
      · rw [if_pos heq, if_pos (by simpa using heq.symm), List.filterMap_cons_some hentry, heq]
        simp
      · rw [if_neg heq, if_neg (by simpa using Ne.symm heq)]

/-- **The store of a file** holds what can be decrypted. -/
theorem build_opened (library : Library) (masterPassword : Option Str) (file : ParsedFile) :
    Ordered (PasswordStore.build library file true masterPassword).decrypted ∧
      (∀ key, key ∈ (PasswordStore.build library file true masterPassword).decrypted.map Prod.fst ↔
        key ∈ openedKeys library masterPassword file) ∧
      ∀ username, (List.lookup username
          (PasswordStore.build library file true masterPassword).credentialsByUser).getD []
        = openedCredentials library masterPassword file username := by
  -- three ways to an empty store
  have hempty : ∀ store : PasswordStore, store.decrypted = [] → store.credentialsByUser = [] →
      openedKeys library masterPassword file = [] →
      (∀ username, openedCredentials library masterPassword file username = []) →
      Ordered store.decrypted ∧ (∀ key, key ∈ store.decrypted.map Prod.fst ↔
          key ∈ openedKeys library masterPassword file) ∧
        ∀ username, (List.lookup username store.credentialsByUser).getD []
          = openedCredentials library masterPassword file username := by
    intro store hdecrypted hcredentials hkeys hopened
    rw [hdecrypted, hcredentials, hkeys]
    exact ⟨List.Pairwise.nil, fun key => Iff.rfl, fun username => (hopened username).symm⟩
  -- no entries, in the registry's file as in any other
  have hnothing : (!file.passwords.isEmpty || !file.credentials.isEmpty) = false →
      openedKeys library masterPassword file = [] ∧
        ∀ username, openedCredentials library masterPassword file username = [] := by
    intro hnone
    obtain ⟨hpasswords, hcredentials⟩ := Bool.or_eq_false_iff.mp hnone
    have hp : file.passwords = [] := by simpa using hpasswords
    have hc : file.credentials = [] := by simpa using hcredentials
    unfold openedKeys openedCredentials
    rw [hp, hc]
    exact ⟨rfl, fun _ => rfl⟩
  unfold PasswordStore.build
  simp only [Bool.not_true, Bool.false_eq_true, ↓reduceIte]
  split
  · next hregistry =>
    obtain ⟨hkeys, hopened⟩ := hnothing (by simpa using (Bool.and_eq_true_iff.mp hregistry).2)
    exact hempty _ rfl rfl hkeys hopened
  · split
    · next hnone =>
      obtain ⟨hkeys, hopened⟩ := hnothing (by simpa using hnone)
      exact hempty _ rfl rfl hkeys hopened
    · split
      · next hlocked =>
        -- without the master password nothing is opened
        have hsecret : ∀ ciphertext connUsername connHostname,
            secretOf library masterPassword file ciphertext connUsername connHostname = none := by
          intro ciphertext connUsername connHostname
          unfold secretOf
          rw [if_pos hlocked]
        refine hempty _ rfl rfl ?_ fun username => ?_
        · unfold openedKeys entrySecret
          simp [hsecret]
        · unfold openedCredentials credentialSecret
          simp [hsecret]
      · next hunlocked =>
        have hstarted : Started masterPassword file
            { PasswordStore.start file masterPassword with attempted := true } :=
          ⟨rfl, rfl, rfl, (Bool.not_eq_true _).mp hunlocked⟩
        obtain ⟨hadded, hordered, hcredentials, hkeys⟩ :=
          @foldl_addPassword library _ _ file.passwords _ hstarted List.Pairwise.nil
        obtain ⟨hdecrypted, hlookup⟩ := @foldl_addCredential library _ _ file.credentials _ hadded
          (hcredentials ▸ List.Pairwise.nil)
        rw [hdecrypted]
        refine ⟨hordered, fun key => ?_, fun username => ?_⟩
        · rw [hkeys]
          exact or_iff_right List.not_mem_nil
        · rw [hlookup, hcredentials]
          rfl

end Build

/-! ### Which key is found -/

section Scan

variable {username hostname : Str} {keys : List Str} {key : Str}

/-- The first key in order that satisfies a condition is the least. -/
theorem find?_eq_some_of_ordered {p : Str → Bool} (h : keys.Pairwise (· < ·)) :
    keys.find? p = some key ↔
      key ∈ keys ∧ p key = true ∧ ∀ other ∈ keys, p other = true → key ≤ other := by
  induction keys with
  | nil => exact iff_of_false (by simp) fun h => List.not_mem_nil h.1
  | cons first keys ih =>
    obtain ⟨hfirst, hrest⟩ := List.pairwise_cons.mp h
    rw [List.find?_cons]
    by_cases hp : p first = true
    · rw [hp]
      -- the keys are in order, so that the first that passes is the least
      constructor
      · rintro heq
        cases heq
        refine ⟨List.mem_cons_self, hp, fun other hother _ => ?_⟩
        obtain rfl | hother := List.mem_cons.mp hother
        · exact le_rfl
        · exact (hfirst other hother).le
      · rintro ⟨hmem, -, hleast⟩
        have hle := hleast first List.mem_cons_self hp
        obtain rfl | hmem := List.mem_cons.mp hmem
        · rfl
        · exact absurd hle (not_le.mpr (hfirst key hmem))
    · rw [Bool.not_eq_true] at hp
      rw [hp]
      dsimp only
      rw [ih hrest, List.mem_cons, List.forall_mem_cons]
      constructor
      · rintro ⟨hmem, hkey, hleast⟩
        exact ⟨Or.inr hmem, hkey, fun htrue => absurd htrue (by simp [hp]), hleast⟩
      · rintro ⟨rfl | hmem, hkey, -, hleast⟩
        · exact absurd hkey (by simp [hp])
        · exact ⟨hmem, hkey, hleast⟩

theorem find?_hostKeys (hname : username.isEmpty = false) :
    ((hostKeys keys hostname).find? fun (_, parsed) => parsed = username).map Prod.fst
      = keys.find? (forLogin username hostname) := by
  induction keys with
  | nil => rfl
  | cons key keys ih =>
    unfold hostKeys forLogin at ih ⊢
    simp only [hname, Bool.false_or] at ih ⊢
    rw [List.find?_cons]
    cases hparsed : parsePasswordKey key with
    | none =>
      rw [List.filterMap_cons_none (by rw [hparsed])]
      exact ih
    | some parsed =>
      obtain ⟨user, host⟩ := parsed
      dsimp only
      -- keys of another host are left out before the search
      by_cases hhost : sameHost host hostname = true
      · rw [List.filterMap_cons_some (by rw [hparsed]; exact if_pos hhost), List.find?_cons, hhost,
          Bool.true_and]
        by_cases huser : user = username
        · rw [decide_eq_true huser]
          rfl
        · rw [decide_eq_false huser]
          exact ih
      · rw [List.filterMap_cons_none (by rw [hparsed]; exact if_neg hhost),
          (Bool.not_eq_true _).mp hhost, Bool.false_and]
        exact ih

theorem map_hostKeys : (hostKeys keys hostname).map Prod.fst = keys.filter (forLogin [] hostname) := by
  induction keys with
  | nil => rfl
  | cons key keys ih =>
    unfold hostKeys forLogin at ih ⊢
    rw [List.filter_cons]
    cases hparsed : parsePasswordKey key with
    | none =>
      rw [List.filterMap_cons_none (by rw [hparsed]), if_neg (by simp)]
      exact ih
    | some parsed =>
      obtain ⟨user, host⟩ := parsed
      dsimp only
      by_cases hhost : sameHost host hostname = true
      · rw [List.filterMap_cons_some (by rw [hparsed]; exact if_pos hhost), List.map_cons, ih,
          if_pos (by rw [hhost]; rfl)]
      · rw [List.filterMap_cons_none (by rw [hparsed]; exact if_neg hhost), ih,
          if_neg (by rw [(Bool.not_eq_true _).mp hhost]; exact Bool.false_ne_true)]

/-- A key is the first for a login: the least one of its user, or the only one if no user is named. -/
def FirstFor (username hostname : Str) (keys : List Str) (key : Str) : Prop :=
  key ∈ keys ∧ forLogin username hostname key = true ∧
    ∀ other ∈ keys, forLogin username hostname other = true →
      if username.isEmpty then other = key else key ≤ other

/-- **The key that the scan finds.** -/
theorem scanMatching_eq_some (h : keys.Pairwise (· < ·)) :
    scanMatching keys username hostname = some key ↔ FirstFor username hostname keys key := by
  unfold scanMatching FirstFor
  by_cases hname : username.isEmpty = true
  · obtain rfl : username = [] := by simpa using hname
    have hnodup : (keys.filter (forLogin [] hostname)).Nodup :=
      (h.imp fun hlt => hlt.ne).filter _
    have hmem : ∀ other, other ∈ keys.filter (forLogin [] hostname) ↔
        other ∈ keys ∧ forLogin [] hostname other = true := fun other => List.mem_filter
    rw [← map_hostKeys] at hnodup hmem
    simp only [List.isEmpty_nil, ↓reduceIte]
    rcases hkeys : hostKeys keys hostname with _ | ⟨⟨only, parsed⟩, _ | ⟨second, rest⟩⟩
    · rw [hkeys] at hmem
      exact iff_of_false (by simp) fun hfirst =>
        List.not_mem_nil ((hmem key).mpr ⟨hfirst.1, hfirst.2.1⟩)
    · rw [hkeys] at hmem
      have honly : ∀ other, other ∈ keys ∧ forLogin [] hostname other = true ↔ other = only := by
        intro other
        rw [← hmem]
        exact List.mem_singleton
      constructor
      · intro heq
        rw [← Option.some.inj heq]
        have hself := (honly only).mpr rfl
        exact ⟨hself.1, hself.2, fun other hother hlogin => (honly other).mp ⟨hother, hlogin⟩⟩
      · rintro ⟨hin, hlogin, -⟩
        rw [(honly key).mp ⟨hin, hlogin⟩]
    · rw [hkeys] at hmem hnodup
      refine iff_of_false (by simp) ?_
      rintro ⟨hin, hlogin, hunique⟩
      -- the first two keys would be the same
      have hboth : ∀ other ∈ only :: second.1 :: rest.map Prod.fst, other = key := fun other hother =>
        hunique other ((hmem other).mp hother).1 ((hmem other).mp hother).2
      have hne := (List.nodup_cons.mp hnodup).1
      refine hne ?_
      rw [hboth only List.mem_cons_self, ← hboth second.1 (List.mem_cons_of_mem _ List.mem_cons_self)]
      exact List.mem_cons_self
  · rw [Bool.not_eq_true] at hname
    rw [if_neg (by rw [hname]; exact Bool.false_ne_true), find?_hostKeys hname,
      find?_eq_some_of_ordered h]
    simp only [hname, Bool.false_eq_true, ↓reduceIte]

end Scan

end Mobaxterm
end Navop
