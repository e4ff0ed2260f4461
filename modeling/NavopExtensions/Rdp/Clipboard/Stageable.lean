import NavopExtensions.Rdp.Clipboard.EndToEnd

/-!
# What an accepted file list leaves on disk

`RemoteClipboardLayout::validate` checks the hierarchy of a list through keys: the lowercased
components of a path, joined by backslashes. `create_directories` and `create_output_file` use the
components as they were spelled. On a file system that tells spellings apart the two views differ in
one point. Distinct keys are distinct paths, and no path leaves the staging directory; but a key
that is found for a parent may have been inserted under another spelling, and then the parent that
is asked for was never created.

So a list that was accepted can be staged exactly when every entry spells its parent as the entry of
the parent does (`stageable_iff`).
-/

namespace Navop
namespace Rdp
namespace Clipboard

open Checks

/-! ### Staging a layout -/

/-- `create_output_file`: the staging directory with the new file in it. -/
def createOutputFile (fs : StagingFs) (staging : Staging) (relativePath : List String) :
    Except String Staging :=
  match fs.createNew staging relativePath with
  | .error _ => .error "remote clipboard staging file could not be created"
  | .ok () => .ok { staging with files := staging.files ++ [⟨relativePath, []⟩] }

/-- `create_output_file` for one file after another. -/
def createOutputFiles (fs : StagingFs) (staging : Staging) : List RemoteFile → Except String Staging
  | [] => .ok staging
  | file :: rest => do
    let staging ← createOutputFile fs staging file.relativePath
    createOutputFiles fs staging rest

/-- The directories of a layout, and then its files. -/
def RemoteClipboardLayout.stage (fs : StagingFs) (stagingPath : String)
    (layout : RemoteClipboardLayout) : Except String Staging := do
  let staging ← createDirectories fs ⟨stagingPath, [], [], false⟩ layout.directories
  createOutputFiles fs staging layout.files

/-- All paths of a layout. -/
def RemoteClipboardLayout.paths (layout : RemoteClipboardLayout) : List (List String) :=
  layout.directories ++ layout.files.map RemoteFile.relativePath

/-- Where a path leads from a directory: empty components and `.` stay, `..` goes up. -/
def resolve (base path : List String) : List String :=
  path.foldl (fun reached component =>
    if component = "" ∨ component = "." then reached
    else if component = ".." then reached.dropLast else reached ++ [component]) base

/-- A component that names an entry of a directory. -/
def PlainComponent (component : String) : Prop :=
  component ≠ "" ∧ component ≠ "." ∧ component ≠ ".." ∧ '/' ∉ component.toList ∧
    '\\' ∉ component.toList

/-- What a layout has to fulfil to be staged on a file system that tells spellings apart. -/
structure Stageable (layout : RemoteClipboardLayout) : Prop where
  plain : ∀ path ∈ layout.paths, path ≠ [] ∧ ∀ component ∈ path, PlainComponent component
  /-- Joining a path to the staging root stays below the root. -/
  below : ∀ root, ∀ path ∈ layout.paths, resolve root path = root ++ path
  distinct : layout.paths.Nodup
  /-- A directory comes after its parent. -/
  directoryParent : ∀ before directory after, layout.directories = before ++ directory :: after →
    directory.dropLast = [] ∨ directory.dropLast ∈ before
  fileParent : ∀ file ∈ layout.files,
    file.relativePath.dropLast = [] ∨ file.relativePath.dropLast ∈ layout.directories
  /-- Nothing that is created exists already, and no parent is missing. -/
  staged : ∀ stagingPath, ∃ staging, layout.stage exactFs stagingPath = .ok staging

/-- When one path is the parent of the other but for case, it is the parent as spelled. -/
def SpelledAlike {rules : NameRules} :
    Except String (RelativeClipboardPath rules) → Except String (RelativeClipboardPath rules) → Prop
  | .ok parent, .ok child => child.parentKey = some parent.normalizedKey →
    child.components.dropLast = parent.components
  | _, _ => True

instance {rules : NameRules} : (parent child : Except String (RelativeClipboardPath rules)) →
    Decidable (SpelledAlike parent child)
  | .ok _, .ok _ => inferInstanceAs (Decidable (_ → _))
  | .ok _, .error _ => isTrue trivial
  | .error _, _ => isTrue trivial

/-- No entry of the list spells its parent otherwise than the parent's own entry does. -/
def ParentsSpelledAlike (rules : NameRules) (descriptors : List FileDescriptor) : Prop :=
  ∀ d ∈ descriptors, ∀ e ∈ descriptors,
    SpelledAlike (descriptorPath rules d) (descriptorPath rules e)

instance (rules : NameRules) (descriptors : List FileDescriptor) :
    Decidable (ParentsSpelledAlike rules descriptors) :=
  inferInstanceAs (Decidable (∀ d ∈ descriptors, ∀ e ∈ descriptors, _))

variable {rules : NameRules}

/-! ### What the loop has read -/

/-- What the loop reads off a descriptor. -/
structure ReadEntry (rules : NameRules) where
  path : RelativeClipboardPath rules
  directory : Bool

/-- The descriptor was read as this entry. -/
def ReadAs (descriptor : FileDescriptor) (entry : ReadEntry rules) : Prop :=
  descriptorPath rules descriptor = .ok entry.path ∧ isDirectory descriptor = .ok entry.directory

/-- The entries whose key is a parent key are directories that came before. -/
def KeysPrecede (entries : List (ReadEntry rules)) : Prop :=
  ∀ before e after, entries = before ++ e :: after → e.path.parentKey = none ∨
    ∃ d ∈ before, d.directory = true ∧ e.path.parentKey = some d.path.normalizedKey

/-- The variables of the loop after the entries `done`, all of them accepted. -/
structure Accepted (done : List (ReadEntry rules)) (v : Validation) : Prop where
  hierarchy : v.hierarchy = (done.map fun e => (e.path.normalizedKey, e.directory)).reverse
  directories : v.layout.directories
    = (done.filter ReadEntry.directory).map fun e => e.path.components
  files : v.layout.files.map RemoteFile.relativePath
    = (done.filter fun e => !e.directory).map fun e => e.path.components
  distinct : (done.map fun e => e.path.normalizedKey).Nodup
  parents : KeysPrecede done

theorem Accepted.initial : Accepted ([] : List (ReadEntry rules)) .initial := by
  refine ⟨rfl, rfl, rfl, .nil, fun before e after h => ?_⟩
  exact absurd h (by simp)

variable {done : List (ReadEntry rules)} {v v' : Validation} {entry : ReadEntry rules}

theorem KeysPrecede.concat (h : KeysPrecede done)
    (hentry : entry.path.parentKey = none ∨
      ∃ d ∈ done, d.directory = true ∧ entry.path.parentKey = some d.path.normalizedKey) :
    KeysPrecede (done ++ [entry]) := by
  intro before e after hsplit
  -- the entry that is looked at is an old one or the new one
  rcases List.eq_nil_or_concat after with rfl | ⟨init, last, rfl⟩
  · obtain ⟨rfl, hlast⟩ := List.append_inj' hsplit rfl
    obtain ⟨rfl, -⟩ := List.cons.inj hlast
    exact hentry
  · rw [List.concat_eq_append, ← List.cons_append, ← List.append_assoc] at hsplit
    obtain ⟨hdone, -⟩ := List.append_inj' hsplit rfl
    exact h before e init hdone

/-- A parent key that is found was inserted for a directory. -/
theorem Accepted.exists_directory (h : Accepted done v) {key : String}
    (hlookup : v.hierarchy.lookup key = some true) :
    ∃ d ∈ done, d.directory = true ∧ key = d.path.normalizedKey := by
  obtain ⟨l₁, l₂, hsplit, -⟩ := List.lookup_eq_some_iff.mp hlookup
  have hmem : (key, true) ∈ v.hierarchy := by
    rw [hsplit]
    simp
  rw [h.hierarchy] at hmem
  obtain ⟨d, hd, heq⟩ := List.mem_map.mp (List.mem_reverse.mp hmem)
  exact ⟨d, hd, congrArg Prod.snd heq, (congrArg Prod.fst heq).symm⟩

theorem validateParent_cases {path : RelativeClipboardPath rules}
    {hierarchy : List (String × Bool)} (h : validateParent path hierarchy = .ok ()) :
    path.parentKey = none ∨ ∃ key, path.parentKey = some key ∧
      hierarchy.lookup key = some true := by
  unfold validateParent at h
  split at h
  · exact .inl (by assumption)
  · next key hkey => exact .inr ⟨key, hkey, ensure_eq_ok.mp h⟩

/-- What `add_to_layout` adds: a directory, or a file under its index. -/
theorem addToLayout_paths {layout : RemoteClipboardLayout} {descriptor : FileDescriptor}
    {path : RelativeClipboardPath rules} {index : Int} {directory : Bool} {total : Nat}
    {added : RemoteClipboardLayout × Nat}
    (h : addToLayout layout descriptor path index directory total = .ok added) :
    added.1.directories
        = layout.directories ++ (if directory then [path.components] else []) ∧
      added.1.files.map RemoteFile.relativePath = layout.files.map RemoteFile.relativePath
        ++ (if directory then [] else [path.components]) := by
  unfold addToLayout at h
  cases directory with
  | true =>
    rw [if_pos rfl] at h
    rw [← Except.ok.inj h]
    simp [RelativeClipboardPath.asPathBuf]
  | false =>
    obtain ⟨total', -, h⟩ := bind_eq_ok.mp h
    rw [← Except.ok.inj h]
    simp [RelativeClipboardPath.asPathBuf]

/-- **One descriptor.** What it is read as joins what has been accepted. -/
theorem Accepted.step (h : Accepted done v) {index : Nat} {descriptor : FileDescriptor}
    (hok : validateDescriptor rules v index descriptor = .ok v') :
    ∃ entry, ReadAs descriptor entry ∧ Accepted (done ++ [entry]) v' := by
  obtain ⟨path, hpath, hok⟩ := bind_eq_ok.mp hok
  obtain ⟨directory, hdirectory, hok⟩ := bind_eq_ok.mp hok
  obtain ⟨⟨⟩, hparent, hok⟩ := bind_eq_ok.mp hok
  obtain ⟨⟨⟩, hfresh, hok⟩ := bind_eq_ok.mp hok
  obtain ⟨descriptorIndex, -, hok⟩ := bind_eq_ok.mp hok
  obtain ⟨added, hadded, hok⟩ := bind_eq_ok.mp hok
  obtain ⟨haddedDirectories, haddedFiles⟩ := addToLayout_paths hadded
  rw [← Except.ok.inj hok]
  refine ⟨⟨path, directory⟩, ⟨hpath, hdirectory⟩, ?_, ?_, ?_, ?_, ?_⟩
  · simp [h.hierarchy]
  · rw [haddedDirectories, h.directories]
    cases directory <;> simp
  · rw [haddedFiles, h.files]
    cases directory <;> simp
  · -- the key was looked up and not found
    rw [List.map_append, List.map_singleton]
    refine List.nodup_append.mpr ⟨h.distinct, List.nodup_singleton _, fun a ha b hb hab => ?_⟩
    rw [List.mem_singleton.mp hb] at hab
    obtain ⟨d, hd, hkey⟩ := List.mem_map.mp ha
    have hnone := List.lookup_eq_none_iff.mp (ensure_eq_ok.mp hfresh)
      (d.path.normalizedKey, d.directory)
      (by rw [h.hierarchy]; exact List.mem_reverse.mpr (List.mem_map.mpr ⟨d, hd, rfl⟩))
    simp [hkey, hab] at hnone
  · refine h.parents.concat ?_
    -- the parent was found among the entries before, as a directory
    rcases validateParent_cases hparent with hnone | ⟨key, hkey, hlookup⟩
    · exact .inl hnone
    · obtain ⟨d, hd, hdir, rfl⟩ := h.exists_directory hlookup
      exact .inr ⟨d, hd, hdir, hkey⟩

/-- The loop, from any descriptor on. -/
theorem Accepted.loop (h : Accepted done v) {index : Nat} {rest : List FileDescriptor}
    (hok : validateDescriptors rules v index rest = .ok v') :
    ∃ entries, List.Forall₂ ReadAs rest entries ∧ Accepted (done ++ entries) v' := by
  induction rest generalizing done v index with
  | nil =>
    rw [← Except.ok.inj hok]
    exact ⟨[], .nil, by simpa using h⟩
  | cons descriptor rest ih =>
    obtain ⟨next, hnext, hrest⟩ := bind_eq_ok.mp hok
    obtain ⟨entry, hread, haccepted⟩ := h.step hnext
    obtain ⟨entries, hreads, haccepted'⟩ := ih haccepted hrest
    exact ⟨entry :: entries, .cons hread hreads, by simpa using haccepted'⟩

/-- What a list that was accepted has been read as. -/
theorem validate_accepted {descriptors : List FileDescriptor} {layout : RemoteClipboardLayout}
    (hok : RemoteClipboardLayout.validate rules descriptors = .ok layout) :
    ∃ (entries : List (ReadEntry rules)) (v : Validation),
      List.Forall₂ ReadAs descriptors entries ∧ Accepted entries v ∧ v.layout = layout := by
  obtain ⟨-, -, hok⟩ := bind_eq_ok.mp hok
  obtain ⟨-, -, hok⟩ := bind_eq_ok.mp hok
  obtain ⟨v, hv, hok⟩ := bind_eq_ok.mp hok
  obtain ⟨entries, hreads, haccepted⟩ := Accepted.initial.loop hv
  exact ⟨entries, v, hreads, by simpa using haccepted, Except.ok.inj hok⟩

/-! ### Spelling -/

variable {entries : List (ReadEntry rules)} {descriptors : List FileDescriptor}

private theorem exists_of_forall₂ {α β : Type} {R : α → β → Prop} {xs : List α} {ys : List β}
    (h : List.Forall₂ R xs ys) {x : α} (hx : x ∈ xs) : ∃ y ∈ ys, R x y := by
  induction h with
  | nil => exact absurd hx (by simp)
  | cons hrel _ ih =>
    rcases List.mem_cons.mp hx with rfl | hx
    · exact ⟨_, List.mem_cons_self, hrel⟩
    · obtain ⟨y, hy, hrel'⟩ := ih hx
      exact ⟨y, List.mem_cons_of_mem _ hy, hrel'⟩

/-- The condition on the descriptors, on what they were read as. -/
theorem parentsSpelledAlike_iff (h : List.Forall₂ ReadAs descriptors entries) :
    ParentsSpelledAlike rules descriptors ↔
      ∀ d ∈ entries, ∀ e ∈ entries, e.path.parentKey = some d.path.normalizedKey →
        e.path.components.dropLast = d.path.components := by
  constructor
  · intro halike d hd e he
    obtain ⟨d', hd', hreadd, -⟩ := exists_of_forall₂ h.flip hd
    obtain ⟨e', he', hreade, -⟩ := exists_of_forall₂ h.flip he
    have hspelled := halike d' hd' e' he'
    rw [hreadd, hreade] at hspelled
    exact hspelled
  · intro halike d hd e he
    obtain ⟨d', hd', hreadd, -⟩ := exists_of_forall₂ h hd
    obtain ⟨e', he', hreade, -⟩ := exists_of_forall₂ h he
    rw [hreadd, hreade]
    exact halike d' hd' e' he'

/-- Where parents are spelled alike, an entry comes after the directory it lies in. -/
theorem Accepted.parent_precedes (h : Accepted entries v)
    (halike : ∀ d ∈ entries, ∀ e ∈ entries, e.path.parentKey = some d.path.normalizedKey →
      e.path.components.dropLast = d.path.components)
    {before after : List (ReadEntry rules)} {e : ReadEntry rules}
    (hsplit : entries = before ++ e :: after) :
    e.path.components.dropLast = [] ∨
      ∃ d ∈ before, d.directory = true ∧ d.path.components = e.path.components.dropLast := by
  have he : e ∈ entries := by rw [hsplit]; simp
  rcases h.parents before e after hsplit with hnone | ⟨d, hd, hdir, hkey⟩
  · left
    by_contra hne
    simp [RelativeClipboardPath.parentKey, hne] at hnone
  · right
    have hd' : d ∈ entries := by rw [hsplit]; exact List.mem_append_left _ hd
    exact ⟨d, hd, hdir, (halike d hd' e he hkey).symm⟩

/-- The entries of a directory that is its own spelling are the ones that name it. -/
theorem Accepted.spelled_of_parent (h : Accepted entries v) {d e : ReadEntry rules}
    (hd : d ∈ entries) (hkey : e.path.parentKey = some d.path.normalizedKey)
    (hparent : e.path.components.dropLast = [] ∨
      e.path.components.dropLast ∈ v.layout.directories) :
    e.path.components.dropLast = d.path.components := by
  rcases hparent with hnil | hmem
  · rw [e.path.parentKey_eq_none hnil] at hkey
    exact absurd hkey (by simp)
  · rw [h.directories] at hmem
    obtain ⟨r, hr, hcomponents⟩ := List.mem_map.mp hmem
    have hr' : r ∈ entries := (List.mem_filter.mp hr).1
    rw [e.path.parentKey_eq hcomponents] at hkey
    -- the keys are distinct, so the directory found is the entry itself
    have hsame : r = d := List.inj_on_of_nodup_map h.distinct hr' hd (Option.some.inj hkey)
    rw [← hcomponents, hsame]

/-! ### Paths -/

theorem validateComponent_plain {component : String}
    (h : validateComponent rules component = .ok ()) : PlainComponent component := by
  have hfacts := validateComponent_facts h
  obtain ⟨⟨⟩, hname, -⟩ := bind_eq_ok.mp h
  obtain ⟨hempty, hdot, hdots⟩ := ensure_eq_ok.mp hname
  exact ⟨hempty, hdot, hdots, hfacts.2.2, hfacts.2.1⟩

theorem resolve_plain {path : List String} (h : ∀ component ∈ path, PlainComponent component)
    (root : List String) : resolve root path = root ++ path := by
  induction path generalizing root with
  | nil => simp [resolve]
  | cons component path ih =>
    obtain ⟨hempty, hdot, hdots, -⟩ := h component List.mem_cons_self
    have hrest := ih (fun c hc => h c (List.mem_cons_of_mem _ hc)) (root ++ [component])
    rw [resolve, List.foldl_cons, if_neg (by simp [hempty, hdot]), if_neg hdots]
    simpa [resolve] using hrest

/-- Directories and files together are the entries. -/
theorem Accepted.paths_perm (h : Accepted entries v) :
    v.layout.paths.Perm (entries.map fun e => e.path.components) := by
  rw [RemoteClipboardLayout.paths, h.directories, h.files, ← List.map_append]
  exact (List.filter_append_perm _ entries).map _

theorem Accepted.paths_nodup (h : Accepted entries v) : v.layout.paths.Nodup := by
  refine h.paths_perm.nodup_iff.mpr ?_
  -- paths with the same components have the same key
  refine List.Nodup.of_map (fun components => joinWire (components.map rules.toLowercase)) ?_
  rw [List.map_map]
  exact h.distinct

theorem Accepted.paths_plain (h : Accepted entries v) {path : List String}
    (hpath : path ∈ v.layout.paths) :
    path ≠ [] ∧ ∀ component ∈ path, PlainComponent component := by
  obtain ⟨e, -, rfl⟩ := List.mem_map.mp (h.paths_perm.mem_iff.mp hpath)
  exact ⟨e.path.components_ne_nil, fun c hc => validateComponent_plain (e.path.component_ok hc)⟩

/-! ### Staging step by step -/

theorem exactFs_createIn {staging : Staging} {path : List String}
    (hfree : path ∉ staging.directories ++ staging.files.map StagedFile.path)
    (hparent : path.dropLast = [] ∨ path.dropLast ∈ staging.directories) :
    exactFs.createIn staging path = .ok () :=
  bind_eq_ok.mpr ⟨(), ensure_eq_ok.mpr hfree, ensure_eq_ok.mpr hparent⟩

/-- The directories that are left are created, each after its parent. -/
theorem createDirectories_exactFs {staging : Staging} (hfiles : staging.files = [])
    {rest : List (List String)} (hnodup : (staging.directories ++ rest).Nodup)
    (hparents : ∀ before directory after,
      staging.directories ++ rest = before ++ directory :: after →
      directory.dropLast = [] ∨ directory.dropLast ∈ before) :
    createDirectories exactFs staging rest
      = .ok { staging with directories := staging.directories ++ rest } := by
  induction rest generalizing staging with
  | nil => simp [createDirectories]
  | cons directory rest ih =>
    have hcreate : exactFs.createDir staging directory = .ok () := by
      refine exactFs_createIn ?_ (hparents _ directory rest rfl)
      rw [hfiles, List.map_nil, List.append_nil]
      exact fun hmem => (List.nodup_append.mp hnodup).2.2 _ hmem _ List.mem_cons_self rfl
    have hassoc : staging.directories ++ directory :: rest
        = (staging.directories ++ [directory]) ++ rest := by simp
    rw [createDirectories, hcreate, hassoc]
    rw [hassoc] at hnodup hparents
    exact ih hfiles hnodup hparents

/-- The files that are left are created in directories that exist. -/
theorem createOutputFiles_exactFs {staging : Staging} {rest : List RemoteFile}
    (hnodup : (staging.directories ++ (staging.files.map StagedFile.path
      ++ rest.map RemoteFile.relativePath)).Nodup)
    (hparents : ∀ file ∈ rest, file.relativePath.dropLast = [] ∨
      file.relativePath.dropLast ∈ staging.directories) :
    ∃ staging', createOutputFiles exactFs staging rest = .ok staging' := by
  induction rest generalizing staging with
  | nil => exact ⟨staging, rfl⟩
  | cons file rest ih =>
    have hcreate : exactFs.createNew staging file.relativePath = .ok () := by
      refine exactFs_createIn ?_ (hparents file List.mem_cons_self)
      rw [← List.append_assoc] at hnodup
      exact fun hmem => (List.nodup_append.mp hnodup).2.2 _ hmem _ (by simp) rfl
    obtain ⟨staging', hrest⟩ :=
      @ih { staging with files := staging.files ++ [⟨file.relativePath, []⟩] }
        (by simpa using hnodup) fun f hf => hparents f (List.mem_cons_of_mem _ hf)
    refine ⟨staging', bind_eq_ok.mpr ⟨_, ?_, hrest⟩⟩
    rw [createOutputFile, hcreate]

theorem stage_exactFs {layout : RemoteClipboardLayout} (hnodup : layout.paths.Nodup)
    (hdirectories : ∀ before directory after, layout.directories = before ++ directory :: after →
      directory.dropLast = [] ∨ directory.dropLast ∈ before)
    (hfiles : ∀ file ∈ layout.files,
      file.relativePath.dropLast = [] ∨ file.relativePath.dropLast ∈ layout.directories)
    (stagingPath : String) : ∃ staging, layout.stage exactFs stagingPath = .ok staging := by
  have hcreated := @createDirectories_exactFs ⟨stagingPath, [], [], false⟩ rfl
    layout.directories (by simpa using (List.nodup_append.mp hnodup).1) (by simpa using hdirectories)
  obtain ⟨staging, hstaging⟩ := @createOutputFiles_exactFs
    ⟨stagingPath, layout.directories, [], false⟩ layout.files
    (by simpa [RemoteClipboardLayout.paths] using hnodup) hfiles
  exact ⟨staging, bind_eq_ok.mpr ⟨_, hcreated, hstaging⟩⟩

/-! ### Accepted lists -/

/-- Where parents are spelled alike, the layout can be staged. -/
theorem Accepted.stageable (h : Accepted entries v)
    (halike : ∀ d ∈ entries, ∀ e ∈ entries, e.path.parentKey = some d.path.normalizedKey →
      e.path.components.dropLast = d.path.components) : Stageable v.layout := by
  have hdirectories : ∀ before directory after,
      v.layout.directories = before ++ directory :: after →
      directory.dropLast = [] ∨ directory.dropLast ∈ before := by
    intro before directory after hsplit
    -- the entries that were read before the directory contain the directories before it
    rw [h.directories] at hsplit
    obtain ⟨dirs, rest, hfilter, rfl, hrest⟩ := List.map_eq_append_iff.mp hsplit
    obtain ⟨e, dirs', rfl, rfl, -⟩ := List.map_eq_cons_iff.mp hrest
    obtain ⟨pre, post, rfl, rfl, hpost⟩ := List.filter_eq_append_iff.mp hfilter
    obtain ⟨skipped, post', rfl, hskipped, -, -⟩ := List.filter_eq_cons_iff.mp hpost
    have hentries : pre ++ (skipped ++ e :: post') = (pre ++ skipped) ++ e :: post' := by simp
    have hparent := h.parent_precedes halike hentries
    rcases hparent with hnil | ⟨d, hd, hdir, hcomponents⟩
    · exact .inl hnil
    · refine .inr (List.mem_map.mpr ⟨d, ?_, hcomponents⟩)
      rcases List.mem_append.mp hd with hd | hd
      · exact List.mem_filter.mpr ⟨hd, hdir⟩
      · exact absurd hdir (hskipped d hd)
  have hfiles : ∀ file ∈ v.layout.files,
      file.relativePath.dropLast = [] ∨ file.relativePath.dropLast ∈ v.layout.directories := by
    intro file hfile
    have hmem := List.mem_map_of_mem (f := RemoteFile.relativePath) hfile
    rw [h.files] at hmem
    obtain ⟨e, he, hcomponents⟩ := List.mem_map.mp hmem
    obtain ⟨before, after, hsplit⟩ := List.append_of_mem (List.mem_filter.mp he).1
    rw [← hcomponents]
    rcases h.parent_precedes halike hsplit with hnil | ⟨d, hd, hdir, hparent⟩
    · exact .inl hnil
    · refine .inr ?_
      rw [h.directories, ← hparent]
      refine List.mem_map.mpr ⟨d, List.mem_filter.mpr ⟨?_, hdir⟩, rfl⟩
      rw [hsplit]
      exact List.mem_append_left _ hd
  exact ⟨fun path => h.paths_plain, fun root path hpath => resolve_plain (h.paths_plain hpath).2 root,
    h.paths_nodup, hdirectories, hfiles, stage_exactFs h.paths_nodup hdirectories hfiles⟩

/-- The path of an entry is a path of the layout, with its parent among the directories. -/
theorem Accepted.parent_mem (h : Accepted entries v) (hstageable : Stageable v.layout)
    {e : ReadEntry rules} (he : e ∈ entries) :
    e.path.components.dropLast = [] ∨ e.path.components.dropLast ∈ v.layout.directories := by
  have hmem := h.paths_perm.mem_iff.mpr (List.mem_map_of_mem he)
  rcases List.mem_append.mp hmem with hdir | hfile
  · obtain ⟨before, after, hsplit⟩ := List.append_of_mem hdir
    rcases hstageable.directoryParent before _ after hsplit with hnil | hbefore
    · exact .inl hnil
    · rw [hsplit]
      exact .inr (List.mem_append_left _ hbefore)
  · obtain ⟨file, hfile, hpath⟩ := List.mem_map.mp hfile
    rw [← hpath]
    exact hstageable.fileParent file hfile

/-- **Accepted lists and the disk.** A list that was accepted can be staged on a file system that
tells spellings apart exactly when no entry spells its parent otherwise than the parent's own entry
does. -/
theorem stageable_iff (rules : NameRules) (descriptors : List FileDescriptor)
    (layout : RemoteClipboardLayout)
    (hvalidate : RemoteClipboardLayout.validate rules descriptors = .ok layout) :
    Stageable layout ↔ ParentsSpelledAlike rules descriptors := by
  obtain ⟨entries, v, hreads, haccepted, rfl⟩ := validate_accepted hvalidate
  rw [parentsSpelledAlike_iff hreads]
  constructor
  · intro hstageable d hd e he hkey
    exact haccepted.spelled_of_parent hd hkey (haccepted.parent_mem hstageable he)
  · exact haccepted.stageable

/-- A directory and a file in it, with the name of the directory as the file spells it. -/
def directoryAndFile (parent : String) : List FileDescriptor :=
  [⟨"D", none, some directoryAttribute, none⟩, ⟨"f", some parent, none, some 0⟩]

/-- Spelled alike, the file is staged in its directory. -/
theorem stageable_iff_directoryAndFile :
    ∃ layout, RemoteClipboardLayout.validate asciiRules (directoryAndFile "D") = .ok layout ∧
      Stageable layout := by
  refine ⟨⟨[["D"]], [⟨1, ["D", "f"], some 0⟩], ["D"]⟩, by decide +kernel, ?_⟩
  exact (stageable_iff asciiRules (directoryAndFile "D") _ (by decide +kernel)).mpr
    (by decide +kernel)

/-- A list that is accepted although the parent of its file is spelled otherwise: the directory `d`
is missing when the file is created. -/
theorem otherwise_spelled_parent_missing :
    ∃ layout, RemoteClipboardLayout.validate asciiRules (directoryAndFile "d") = .ok layout ∧
      layout.directories = [["D"]] ∧ layout.files.map RemoteFile.relativePath = [["d", "f"]] ∧
      layout.stage exactFs "/staging"
        = .error "remote clipboard staging file could not be created" ∧ ¬ Stageable layout := by
  have hstage : RemoteClipboardLayout.stage exactFs "/staging"
      ⟨[["D"]], [⟨1, ["d", "f"], some 0⟩], ["D"]⟩
        = .error "remote clipboard staging file could not be created" := by decide +kernel
  refine ⟨⟨[["D"]], [⟨1, ["d", "f"], some 0⟩], ["D"]⟩, by decide +kernel, rfl, rfl, hstage, ?_⟩
  intro hstageable
  obtain ⟨staging, hok⟩ := hstageable.staged "/staging"
  rw [hstage] at hok
  exact absurd hok (by simp)

end Clipboard
end Rdp
end Navop
