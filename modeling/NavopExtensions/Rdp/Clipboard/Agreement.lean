import NavopExtensions.Rdp.Clipboard.Collect

/-!
# Sender and receiver agree on file lists

The descriptors `collect` advertises, read by `RemoteClipboardLayout::validate`. Everything the
receiver checks the sender has ensured (limits, path rules, parents before children), with one
exception: the receiver refuses two entries whose paths are the same but for case, and the sender
ensures that for the top-level names only. The list is accepted exactly when no directory that was
walked has two children whose names are equal after lowercasing (`validate_collected_iff`).

The receiver's loop is followed entry by entry. `Validated` says what its variables hold after a
prefix of the list; the layout it ends with is the one `layoutFiles` reads off the entries.
-/

namespace Navop
namespace Rdp
namespace Clipboard

open Checks

variable {P N : Type} {rules : NameRules} {fs : SourceFs P N}

/-! ### The layout of a list of entries -/

/-- The files of a list of entries, with their positions, from `index` on. -/
def layoutFiles (index : Nat) : List (LocalClipboardEntry P rules) → List RemoteFile
  | [] => []
  | entry :: rest =>
    match entry.kind with
    | .file =>
      ⟨index, entry.relativePath.components, some entry.size⟩ :: layoutFiles (index + 1) rest
    | .directory => layoutFiles (index + 1) rest

/-- The directories of a list of entries. -/
def layoutDirectories (entries : List (LocalClipboardEntry P rules)) : List (List String) :=
  (entries.filter fun e => e.kind = .directory).map fun e => e.relativePath.components

theorem layoutFiles_append (index : Nat) (xs ys : List (LocalClipboardEntry P rules)) :
    layoutFiles index (xs ++ ys) = layoutFiles index xs ++ layoutFiles (index + xs.length) ys := by
  induction xs generalizing index with
  | nil => simp [layoutFiles]
  | cons x xs ih =>
    have hindex : index + 1 + xs.length = index + (xs.length + 1) := by omega
    simp only [List.cons_append, layoutFiles, List.length_cons, ih, hindex]
    cases x.kind <;> rfl

/-- The keys the receiver compares. -/
def normalizedKeys (entries : List (LocalClipboardEntry P rules)) : List String :=
  entries.map fun e => e.relativePath.normalizedKey

/-- The keys are distinct when the case-folded paths are. -/
theorem normalizedKeys_nodup_iff (entries : List (LocalClipboardEntry P rules)) :
    (normalizedKeys entries).Nodup ↔
      ((entries.map LocalClipboardEntry.node).map (foldedKey rules)).Nodup := by
  rw [normalizedKeys, List.map_map, List.Nodup, List.Nodup, List.pairwise_map, List.pairwise_map]
  refine List.Pairwise.iff fun a b => not_congr ?_
  exact RelativeClipboardPath.normalizedKey_eq_iff a.relativePath b.relativePath

/-! ### The receiver's loop -/

/-- The variables of the receiver's loop after the entries `done`. -/
structure Validated (done : List (LocalClipboardEntry P rules)) (v : Validation) : Prop where
  hierarchy : v.hierarchy = (done.map fun e =>
    (e.relativePath.normalizedKey, decide (e.kind = .directory))).reverse
  total : v.advertisedTotal = (done.map LocalClipboardEntry.fileBytes).sum
  files : v.layout.files = layoutFiles 0 done
  directories : v.layout.directories = layoutDirectories done

theorem Validated.initial : Validated ([] : List (LocalClipboardEntry P rules)) .initial :=
  ⟨rfl, rfl, rfl, rfl⟩

variable {done : List (LocalClipboardEntry P rules)} {v : Validation}
  {entry : LocalClipboardEntry P rules}

theorem Validated.lookup_eq_none_iff (h : Validated done v) (key : String) :
    v.hierarchy.lookup key = none ↔ key ∉ normalizedKeys done := by
  rw [h.hierarchy, List.lookup_eq_none_iff]
  constructor
  · intro hall hmem
    obtain ⟨e, he, rfl⟩ := List.mem_map.mp hmem
    have hne := hall (e.relativePath.normalizedKey, decide (e.kind = .directory))
      (List.mem_reverse.mpr (List.mem_map_of_mem he))
    simp at hne
  · intro hnot p hp
    obtain ⟨e, he, rfl⟩ := List.mem_map.mp (List.mem_reverse.mp hp)
    simp only [bne_iff_ne, ne_eq]
    exact fun heq => hnot (heq ▸ List.mem_map_of_mem he)

/-- A key that occurs once is looked up with its own value. -/
theorem Validated.lookup_of_mem (h : Validated done v) (hnodup : (normalizedKeys done).Nodup)
    {d : LocalClipboardEntry P rules} (hd : d ∈ done) :
    v.hierarchy.lookup d.relativePath.normalizedKey = some (decide (d.kind = .directory)) := by
  cases hlookup : v.hierarchy.lookup d.relativePath.normalizedKey with
  | none =>
    exact absurd (List.mem_map_of_mem hd) ((h.lookup_eq_none_iff _).mp hlookup)
  | some b =>
    obtain ⟨l₁, l₂, hsplit, -⟩ := List.lookup_eq_some_iff.mp hlookup
    have hmem : (d.relativePath.normalizedKey, b) ∈ v.hierarchy := by
      rw [hsplit]
      simp
    rw [h.hierarchy] at hmem
    obtain ⟨e, he, heq⟩ := List.mem_map.mp (List.mem_reverse.mp hmem)
    have hkey : e.relativePath.normalizedKey = d.relativePath.normalizedKey :=
      congrArg Prod.fst heq
    -- the keys are distinct, so what is found is what was inserted for this entry
    have hsame : e = d := List.inj_on_of_nodup_map hnodup he hd hkey
    rw [← hsame]
    exact congrArg some (congrArg Prod.snd heq).symm

theorem isDirectory_descriptor (entry : LocalClipboardEntry P rules) :
    isDirectory entry.descriptor = .ok (decide (entry.kind = .directory)) := by
  cases hkind : entry.kind <;> simp [isDirectory, LocalClipboardEntry.descriptor, hkind] <;> decide

/-- The parent of an entry is found, as it was inserted before. -/
theorem Validated.validateParent_ok (h : Validated done v) (hnodup : (normalizedKeys done).Nodup)
    (hparent : HasParent done entry.relativePath.components) :
    validateParent entry.relativePath v.hierarchy = .ok () := by
  unfold validateParent
  rcases hparent with htop | ⟨d, hd, hkind, hcomponents⟩
  · rw [entry.relativePath.parentKey_eq_none htop]
  · rw [entry.relativePath.parentKey_eq hcomponents]
    refine ensure_eq_ok.mpr ?_
    rw [h.lookup_of_mem hnodup hd, hkind]
    rfl

/-- An entry within the limits is added to the layout. -/
theorem Validated.addToLayout_ok (h : Validated done v)
    (htotal : (done.map LocalClipboardEntry.fileBytes).sum + entry.fileBytes
      ≤ maxTotalTransferBytes)
    (hsingle : entry.fileBytes ≤ maxSingleFileBytes) (names : List String) :
    ∃ added, addToLayout { v.layout with topLevelNames := names } entry.descriptor
        entry.relativePath (done.length : Int) (decide (entry.kind = .directory))
        v.advertisedTotal = .ok added ∧
      added.2 = ((done ++ [entry]).map LocalClipboardEntry.fileBytes).sum ∧
      added.1.files = layoutFiles 0 (done ++ [entry]) ∧
      added.1.directories = layoutDirectories (done ++ [entry]) := by
  unfold LocalClipboardEntry.fileBytes at htotal hsingle
  cases hkind : entry.kind with
  | directory =>
    refine ⟨_, by simp [addToLayout]; rfl, ?_, ?_, ?_⟩
    · simp [h.total, LocalClipboardEntry.fileBytes, hkind]
    · simp [h.files, layoutFiles_append, layoutFiles, hkind]
    · simp [h.directories, layoutDirectories, hkind, RelativeClipboardPath.asPathBuf]
  | file =>
    rw [hkind] at htotal hsingle
    simp only at htotal hsingle
    -- both sides add up the same sizes against the same limits
    have haccount : accountAdvertisedSize entry.descriptor.fileSize v.advertisedTotal
        = .ok (v.advertisedTotal + entry.size) := by
      have hfits : v.advertisedTotal + entry.size ≤ maxTotalTransferBytes := by
        rw [h.total]
        exact htotal
      have hbound : maxTotalTransferBytes < 2 ^ 64 := by decide
      simp only [LocalClipboardEntry.descriptor, hkind, accountAdvertisedSize]
      refine bind_eq_ok.mpr ⟨(), ensure_eq_ok.mpr hsingle, bind_eq_ok.mpr ⟨_,
        checkedAddU64_eq_ok.mpr ⟨Nat.lt_of_le_of_lt hfits hbound, rfl⟩, bind_eq_ok.mpr ⟨(),
        ensure_eq_ok.mpr hfits, rfl⟩⟩⟩
    refine ⟨_, by simp only [addToLayout, haccount]; rfl, ?_, ?_, ?_⟩
    · simp [h.total, LocalClipboardEntry.fileBytes, hkind]
    · simp [h.files, layoutFiles_append, layoutFiles, hkind, LocalClipboardEntry.descriptor,
        RelativeClipboardPath.asPathBuf]
    · simp [h.directories, layoutDirectories, hkind]

/-- **One entry.** Everything but the key of an entry is in order: the receiver takes it exactly
when no earlier entry has the same key. -/
theorem Validated.step (h : Validated done v) (hnodup : (normalizedKeys done).Nodup)
    (hparent : HasParent done entry.relativePath.components)
    (hcount : done.length < maxClipboardEntryCount)
    (htotal : (done.map LocalClipboardEntry.fileBytes).sum + entry.fileBytes
      ≤ maxTotalTransferBytes)
    (hsingle : entry.fileBytes ≤ maxSingleFileBytes) :
    if entry.relativePath.normalizedKey ∈ normalizedKeys done then
      ∃ message, validateDescriptor rules v done.length entry.descriptor = .error message
    else
      ∃ v', validateDescriptor rules v done.length entry.descriptor = .ok v' ∧
        Validated (done ++ [entry]) v' := by
  -- everything that is checked before the key has been ensured by the sender
  have hpath : descriptorPath rules entry.descriptor = .ok entry.relativePath :=
    entry.relativePath.fromWire_name_parentWirePath
  have hdirectory := isDirectory_descriptor entry
  have hparentOk := h.validateParent_ok hnodup hparent
  have hkey := h.lookup_eq_none_iff entry.relativePath.normalizedKey
  split
  · next hmem =>
    have hduplicate : ensure (v.hierarchy.lookup entry.relativePath.normalizedKey = none)
        "remote clipboard contains duplicate paths"
        = .error "remote clipboard contains duplicate paths" :=
      if_neg fun hnone => hkey.mp hnone hmem
    refine ⟨"remote clipboard contains duplicate paths", ?_⟩
    simp only [validateDescriptor, hpath, hdirectory, hparentOk, hduplicate, bind, Except.bind]
  · next hnot =>
    have hfresh : ensure (v.hierarchy.lookup entry.relativePath.normalizedKey = none)
        "remote clipboard contains duplicate paths" = .ok () :=
      ensure_eq_ok.mpr (hkey.mpr hnot)
    -- the index of an entry is far below the limit of `i32`
    have hindex : i32TryFrom done.length = .ok (done.length : Int) := by
      have hbound : maxClipboardEntryCount < 2 ^ 31 := by decide
      exact if_pos (Nat.lt_trans hcount hbound)
    obtain ⟨added, hadded, haddedTotal, haddedFiles, haddedDirectories⟩ :=
      h.addToLayout_ok htotal hsingle (if entry.relativePath.topLevelKey ∈ v.topLevels then
        v.layout.topLevelNames else v.layout.topLevelNames ++ [entry.relativePath.topLevelName])
    refine ⟨⟨(entry.relativePath.normalizedKey, decide (entry.kind = .directory)) :: v.hierarchy,
      entry.relativePath.topLevelKey :: v.topLevels, added.2, added.1⟩, ?_, ?_⟩
    · simp only [validateDescriptor, hpath, hdirectory, hparentOk, hfresh, hindex, hadded, bind,
        Except.bind, pure, Except.pure]
    · exact ⟨by simp [h.hierarchy], haddedTotal, haddedFiles, haddedDirectories⟩

/-- The receiver's loop, from any entry on: it takes the rest of the list exactly when all keys are
distinct. -/
theorem Validated.loop (h : Validated done v) (rest : List (LocalClipboardEntry P rules))
    (hnodup : (normalizedKeys done).Nodup) (hparents : ParentsPrecede (done ++ rest))
    {totalBytes : Nat} (hlimited : Limited (done ++ rest) totalBytes) :
    if (normalizedKeys (done ++ rest)).Nodup then
      ∃ v', validateDescriptors rules v done.length (rest.map LocalClipboardEntry.descriptor)
          = .ok v' ∧ Validated (done ++ rest) v'
    else
      ∃ message, validateDescriptors rules v done.length
        (rest.map LocalClipboardEntry.descriptor) = .error message := by
  induction rest generalizing done v with
  | nil =>
    rw [List.append_nil, if_pos hnodup]
    exact ⟨v, rfl, h⟩
  | cons entry rest ih =>
    have hassoc : done ++ entry :: rest = (done ++ [entry]) ++ rest := by simp
    have hentry := h.step hnodup (hparents done entry rest rfl)
      (by have hcount := hlimited.count
          simp only [List.length_append, List.length_cons] at hcount
          omega)
      (by have htotal := hlimited.total
          have hle := hlimited.total_le
          simp only [List.map_append, List.map_cons, List.sum_append, List.sum_cons] at htotal
          omega)
      (hlimited.single entry (by simp))
    split at hentry
    · next hmem =>
      obtain ⟨message, hmessage⟩ := hentry
      -- the list is refused here, whatever follows
      have hduplicate : ¬ (normalizedKeys (done ++ entry :: rest)).Nodup := by
        intro hall
        rw [normalizedKeys, List.map_append, List.map_cons] at hall
        exact (List.nodup_append.mp hall).2.2 _ hmem _ List.mem_cons_self rfl
      rw [if_neg hduplicate]
      refine ⟨message, ?_⟩
      simp only [List.map_cons, validateDescriptors, hmessage, bind, Except.bind]
    · next hnot =>
      obtain ⟨v', hv', hvalidated⟩ := hentry
      -- the entry is taken, and the loop goes on behind it
      have hnodup' : (normalizedKeys (done ++ [entry])).Nodup := by
        rw [normalizedKeys, List.map_append, List.map_singleton]
        refine List.nodup_append.mpr ⟨hnodup, List.nodup_singleton _, fun a ha b hb hab => ?_⟩
        rw [List.mem_singleton.mp hb] at hab
        exact hnot (hab ▸ ha)
      rw [hassoc] at hparents hlimited
      have hrest := ih hvalidated hnodup' hparents hlimited
      have hunfold : validateDescriptors rules v done.length
          ((entry :: rest).map LocalClipboardEntry.descriptor)
          = validateDescriptors rules v' (done ++ [entry]).length
              (rest.map LocalClipboardEntry.descriptor) := by
        simp only [List.map_cons, validateDescriptors, hv', bind, Except.bind, List.length_append,
          List.length_singleton]
      rw [hassoc, hunfold]
      exact hrest

/-! ### The whole list -/

variable {tops : List P} {transfer : LocalClipboardTransfer P rules}

/-- The receiver on a collected list. -/
theorem Collected.validate (h : Collected fs tops transfer) :
    if (normalizedKeys transfer.entries).Nodup then
      ∃ layout, RemoteClipboardLayout.validate rules transfer.descriptors = .ok layout ∧
        layout.files = layoutFiles 0 transfer.entries ∧
        layout.directories = layoutDirectories transfer.entries
    else
      ∃ message, RemoteClipboardLayout.validate rules transfer.descriptors = .error message := by
  obtain ⟨totalBytes, hlimited⟩ := h.limited
  -- the loop over the descriptors accepts each one exactly if its key is new
  have hloop := Validated.initial.loop transfer.entries (by simp [normalizedKeys])
    h.walk.parents hlimited
  have hne : ensure (transfer.descriptors ≠ []) "remote clipboard file list is empty" = .ok () :=
    ensure_eq_ok.mpr (by rw [h.descriptors]; simpa using h.nonempty)
  have hlen : ensure (transfer.descriptors.length ≤ maxClipboardEntryCount)
      "remote clipboard entry count exceeds the limit" = .ok () :=
    ensure_eq_ok.mpr (by rw [h.descriptors, List.length_map]; exact hlimited.count)
  rw [List.nil_append, List.length_nil, ← h.descriptors] at hloop
  split at hloop
  · next hnodup =>
    obtain ⟨v, hv, hvalidated⟩ := hloop
    rw [if_pos hnodup]
    refine ⟨v.layout, ?_, hvalidated.files, hvalidated.directories⟩
    simp only [RemoteClipboardLayout.validate, hne, hlen, hv, bind, Except.bind, pure, Except.pure]
  · next hnodup =>
    obtain ⟨message, hmessage⟩ := hloop
    rw [if_neg hnodup]
    refine ⟨message, ?_⟩
    simp only [RemoteClipboardLayout.validate, hne, hlen, hmessage, bind, Except.bind]

/-- **Agreement on file lists.** The descriptors of a list that was collected are accepted, and each
rebuilds the path of its entry, exactly when no directory below the copied paths has two children
whose names are equal after lowercasing. -/
theorem validate_collected_iff (rules : NameRules) (fs : SourceFs P N) (transferId : UInt64)
    (paths : List String) (transfer : LocalClipboardTransfer P rules)
    (hcollect : LocalClipboardTransfer.collect rules fs transferId paths = .ok transfer) :
    ((∃ layout, RemoteClipboardLayout.validate rules transfer.descriptors = .ok layout) ∧
      ∀ entry ∈ transfer.entries,
        RelativeClipboardPath.fromWire rules entry.relativePath.name
          entry.relativePath.parentWirePath = .ok entry.relativePath) ↔
    CaseFoldDistinct rules fs (paths.map fs.pathFrom) := by
  have hcollected := collect_ok hcollect
  have hvalidate := hcollected.validate
  rw [← hcollected.walk.nodup_iff, ← normalizedKeys_nodup_iff]
  constructor
  · rintro ⟨⟨layout, hlayout⟩, -⟩
    by_contra hnodup
    rw [if_neg hnodup] at hvalidate
    obtain ⟨message, hmessage⟩ := hvalidate
    rw [hlayout] at hmessage
    nomatch hmessage
  · intro hnodup
    rw [if_pos hnodup] at hvalidate
    obtain ⟨layout, hlayout, -⟩ := hvalidate
    exact ⟨⟨layout, hlayout⟩, fun entry _ => entry.relativePath.fromWire_name_parentWirePath⟩

/-! ### Two file systems -/

/-- Lowercasing of ASCII letters, and the reserved device names. -/
def asciiRules : NameRules where
  toLowercase s := String.ofList (s.toList.map Char.toLower)
  isWindowsDeviceName s :=
    ["CON", "PRN", "AUX", "NUL"].contains (String.ofList (s.toList.map Char.toUpper))
  toLowercase_backslash s hs hmem := by
    rw [String.toList_ofList] at hmem
    obtain ⟨c, hc, hlower⟩ := List.mem_map.mp hmem
    unfold Char.toLower at hlower
    split at hlower
    · next hupper =>
      -- the lowercase letters are above the backslash
      have hval := congrArg (fun c => c.val.toNat) hlower
      have hlow : 'A'.val.toNat ≤ c.val.toNat := hupper.1
      have hhigh : c.val.toNat ≤ 'Z'.val.toNat := hupper.2
      simp at hval hlow hhigh
      omega
    · exact hs (hlower ▸ hc)

/-- A file system given by its directories, with the names they list, and its files. Paths are
split at their slashes. -/
def forestFs (directories : List (List String × List String))
    (files : List (List String × List UInt8)) : SourceFs (List String) String where
  pathFrom s := (s.toList.splitOn '/').map String.ofList
  isAbsolute path := path.head? == some ""
  fileName path := path.getLast?
  toStr name := some name
  nameLe a b := !b.toList.lex a.toList fun c d => decide (c.toNat < d.toNat)
  symlinkMetadata path :=
    match files.lookup path, directories.lookup path with
    | some contents, _ => .ok ⟨false, false, true, false, contents.length⟩
    | none, some _ => .ok ⟨false, false, false, true, 4096⟩
    | none, none => .error "No such file or directory"
  canonicalize path := .ok path
  startsWith path root := root.isPrefixOf path
  readDir path :=
    match directories.lookup path with
    | some names => .ok (names.map fun name => ⟨path ++ [name], name⟩)
    | none => .error "No such file or directory"
  openFile path :=
    match files.lookup path with
    | some contents => .ok contents
    | none => .error "No such file or directory"

/-- A directory with two files, given by their names. -/
def twoFiles (first second : String) : SourceFs (List String) String :=
  forestFs [(["", "d"], [first, second])]
    [(["", "d", first], [1, 2, 3]), (["", "d", second], [])]

theorem exists_of_isOk {ε α : Type} {x : Except ε α} (h : x.isOk = true) : ∃ a, x = .ok a := by
  cases x with
  | error e => nomatch h
  | ok a => exact ⟨a, rfl⟩

/-- Names that differ are accepted, so no directory lists two names equal but for case. -/
theorem validate_collected_iff_twoFiles :
    ∃ transfer, LocalClipboardTransfer.collect asciiRules (twoFiles "a" "b") 1 ["/d"]
        = .ok transfer ∧
      (∃ layout, RemoteClipboardLayout.validate asciiRules transfer.descriptors = .ok layout) ∧
      CaseFoldDistinct asciiRules (twoFiles "a" "b") [["", "d"]] := by
  obtain ⟨transfer, hcollect⟩ := exists_of_isOk (x := LocalClipboardTransfer.collect asciiRules
    (twoFiles "a" "b") 1 ["/d"]) (by decide +kernel)
  have hvalidate : (do
      let transfer ← LocalClipboardTransfer.collect asciiRules (twoFiles "a" "b") 1 ["/d"]
      RemoteClipboardLayout.validate asciiRules transfer.descriptors).isOk = true := by
    decide +kernel
  rw [hcollect] at hvalidate
  have hlayout := exists_of_isOk hvalidate
  have hiff := validate_collected_iff asciiRules (twoFiles "a" "b") 1 ["/d"] transfer hcollect
  exact ⟨transfer, hcollect, hlayout,
    hiff.mp ⟨hlayout, fun entry _ => entry.relativePath.fromWire_name_parentWirePath⟩⟩

/-- A directory with the files `a` and `A` is collected, and its list is refused. -/
theorem collected_case_siblings_refused :
    ∃ transfer, LocalClipboardTransfer.collect asciiRules (twoFiles "a" "A") 1 ["/d"]
        = .ok transfer ∧
      RemoteClipboardLayout.validate asciiRules transfer.descriptors
        = .error "remote clipboard contains duplicate paths" := by
  obtain ⟨transfer, hcollect⟩ := exists_of_isOk (x := LocalClipboardTransfer.collect asciiRules
    (twoFiles "a" "A") 1 ["/d"]) (by decide +kernel)
  have hvalidate : (do
      let transfer ← LocalClipboardTransfer.collect asciiRules (twoFiles "a" "A") 1 ["/d"]
      RemoteClipboardLayout.validate asciiRules transfer.descriptors)
        = .error "remote clipboard contains duplicate paths" := by
    decide +kernel
  rw [hcollect] at hvalidate
  exact ⟨transfer, hcollect, hvalidate⟩

end Clipboard
end Rdp
end Navop
