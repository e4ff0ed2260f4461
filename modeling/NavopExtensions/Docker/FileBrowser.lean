import NavopExtensions.Docker.Files

/-!
# A directory as the file browser shows it

The rows of `docker/container/files/list` stand for the entries of the directory, in order, and their
paths lead to them, exactly if the names are plain texts, the entries are of one kind, and no message of
the daemon ends inside a character (`filesShown_iff`). A message that does adds a character to a name, so
that the names in the rows are longer together than those of the entries.
-/

namespace Navop
namespace Docker

open Paths Text Utf8

section Shown

variable {humanSize : ℕ → Str} {dir : List Str} {entries : List FileEntry}

/-- The rows of a directory, by how the names of its entries are read. -/
def rowsNamed (humanSize : ℕ → Str) (dir : List Str) (named : List (FileEntry × Str)) : List Row :=
  (if dir = [] then [] else [parentRow (render dir)])
    ++ named.map fun p => rowNamed p.1 humanSize dir p.2

theorem filesList_eq (hdir : ∀ name ∈ dir, IsName name) (hown : ∀ name ∈ dir.getLast?, Plain name)
    {named : List (FileEntry × Str)}
    (hnamed : ∀ p ∈ named, IsName p.2 ∧ '\n' ∉ p.2 ∧ p.2.getLast? ≠ some '\r')
    {exec : ExecCommand → Except String StartExecResults}
    (hexec : execCollectFor exec (listCommand (render dir)) = .ok (textOf named, [])) :
    filesList humanSize exec (render dir) = .ok (render dir,
      (rowsNamed humanSize dir named).mergeSort fun a b => compareRows a b ≠ .gt) := by
  have hpath := (normalize_render_iff hdir).2 hown
  -- every line is the row of its entry
  have hrows : (lines (textOf named)).filterMap (rowOf humanSize (render dir))
      = named.map fun p => rowNamed p.1 humanSize dir p.2 := by
    rw [lines_textOf hnamed, List.filterMap_map, ← List.filterMap_eq_map]
    exact List.filterMap_congr fun p hp => rowOf_line humanSize hdir p.1 (hnamed p hp).1.slash
  -- the parent is shown but for the root
  have hparent : (if render dir ≠ ['/'] then [parentRow (render dir)] else [])
      = if dir = [] then [] else [parentRow (render dir)] := by
    by_cases hroot : dir = []
    · rw [if_pos hroot, if_neg (not_not.2 ((render_eq_root_iff hdir).2 hroot))]
    · rw [if_neg hroot, if_pos fun h => hroot ((render_eq_root_iff hdir).1 h)]
  unfold filesList
  simp only [hpath, hexec]
  show (if _ then _ else _) = _
  rw [if_neg (by simp [trim, trimStart, trimEnd]), hrows, hparent]
  rfl

/-- What the daemon sends of a listing is collected piece by piece. -/
theorem execCollectFor_listing (listing : Listing entries)
    {exec : ExecCommand → Except String StartExecResults} {command : ExecCommand}
    (h : exec command = .ok (.attached (listing.output.map .ok))) :
    execCollectFor exec command = .ok ((stdoutPieces listing.output).flatMap lossy, []) := by
  rw [execCollectFor, h]
  simp only
  rw [execCollect_eq, listing.stderr]
  rfl

theorem rowFor_type (entry : FileEntry) :
    (rowFor entry humanSize dir).type = .directory ↔ entry.isDirectory = true := by
  unfold rowFor rowNamed
  simp only
  split
  · next h => exact iff_of_true rfl h
  · next h =>
    refine iff_of_false ?_ h
    split
    · simp
    · simp

theorem group_rowFor (entry : FileEntry) :
    (rowFor entry humanSize dir).group = if entry.isDirectory then 1 else 2 := by
  rw [Row.group, if_neg (show (rowFor entry humanSize dir).name ≠ _ from (readAs_text entry).isName.1.ne_dots)]
  by_cases hdirectory : entry.isDirectory = true
  · rw [if_pos (rowFor_type entry |>.2 hdirectory), if_pos hdirectory]
  · rw [if_neg fun h => hdirectory (rowFor_type entry |>.1 h), if_neg hdirectory]

theorem mem_expectedRows {row : Row} (h : row ∈ expectedRows humanSize dir entries) :
    row.name = ['.', '.'] ∨ ∃ entry ∈ entries, row = rowFor entry humanSize dir := by
  rcases List.mem_append.1 h with h | h
  · split at h
    · cases h
    · rw [List.mem_singleton.1 h]
      exact .inl rfl
  · obtain ⟨entry, hentry, rfl⟩ := List.mem_map.1 h
    exact .inr ⟨entry, hentry, rfl⟩

/-- Where all entries are of one kind, the comparison is the order that rows should have. -/
theorem before_of_compare (halike : ∀ entry ∈ entries, ∀ entry' ∈ entries,
      entry.isDirectory = entry'.isDirectory)
    {a b : Row} (ha : a ∈ expectedRows humanSize dir entries)
    (hb : b ∈ expectedRows humanSize dir entries) (h : compareRows a b ≠ .gt) : a.Before b := by
  have hzero : ∀ row : Row, row.name = ['.', '.'] → row.group = 0 :=
    fun row hrow => by rw [Row.group, if_pos hrow]
  rw [compareRows_ne_gt] at h
  -- the parent comes first; two entries are compared by their kind, which is the same, and by their names
  rcases h with hdots | ⟨hdots, horder⟩
  · by_cases hb' : b.name = ['.', '.']
    · exact .inr ⟨by rw [hzero a hdots, hzero b hb'], by rw [hdots, hb']⟩
    · refine .inl ?_
      rw [hzero a hdots, Row.group, if_neg hb']
      split <;> omega
  · rcases mem_expectedRows hb with hb' | ⟨entry', hentry', rfl⟩
    · exact absurd hb' hdots
    · rcases mem_expectedRows ha with ha' | ⟨entry, hentry, rfl⟩
      · refine .inl ?_
        rw [hzero a ha', group_rowFor]
        split <;> omega
      · have hsame := halike entry hentry entry' hentry'
        rw [rowFor_type, rowFor_type, hsame] at horder
        refine .inr ⟨by rw [group_rowFor, group_rowFor, hsame], ?_⟩
        rcases horder with ⟨hno, hyes⟩ | ⟨-, hle⟩
        · exact absurd ((rowFor_type entry).2 (hsame.trans hyes)) hno
        · exact hle

/-- **Directories come last**: rows of both kinds are not in the order that they should have. -/
theorem alike_of_sorted {rows : List Row} (hperm : rows.Perm (expectedRows humanSize dir entries))
    (hsorted : rows.Pairwise fun a b => compareRows a b ≠ .gt) (hbefore : rows.Pairwise Row.Before) :
    ∀ entry ∈ entries, ∀ entry' ∈ entries, entry.isDirectory = entry'.isDirectory := by
  -- It suffices that a directory has no entry of another kind beside it.
  have hmixed : ∀ entry ∈ entries, ∀ entry' ∈ entries, entry.isDirectory = true →
      entry'.isDirectory = true := by
    intro entry hentry entry' hentry' hdirectory
    by_contra hfile
    have hmem : ∀ e ∈ entries, rowFor e humanSize dir ∈ rows := fun e he =>
      hperm.mem_iff.2 (List.mem_append_right _ (List.mem_map_of_mem he))
    have hgroup : (rowFor entry humanSize dir).group = 1 := by rw [group_rowFor, if_pos hdirectory]
    have hgroup' : (rowFor entry' humanSize dir).group = 2 := by rw [group_rowFor, if_neg hfile]
    have hne : rowFor entry humanSize dir ≠ rowFor entry' humanSize dir := by
      intro heq
      rw [heq, hgroup'] at hgroup
      exact absurd hgroup (by decide)
    let either := fun a b : Row =>
      (compareRows a b ≠ .gt ∧ a.Before b) ∨ (compareRows b a ≠ .gt ∧ b.Before a)
    have hsymm : Std.Symm either := ⟨fun _ _ h => h.symm⟩
    have hboth : rows.Pairwise either := (hsorted.and hbefore).imp fun h => .inl h
    rcases hboth.forall (hmem entry hentry) (hmem entry' hentry') hne
      with ⟨hcompare, -⟩ | ⟨-, hlast⟩
    · rw [compareRows_ne_gt] at hcompare
      rcases hcompare with hdots | ⟨-, ⟨hno, -⟩ | ⟨hiff, -⟩⟩
      · exact (readAs_text entry).isName.1.ne_dots hdots
      · exact hno ((rowFor_type entry).2 hdirectory)
      · exact hfile ((rowFor_type entry').1 (hiff.1 ((rowFor_type entry).2 hdirectory)))
    · rcases hlast with hlt | ⟨heq, -⟩
      · omega
      · omega
  intro entry hentry entry' hentry'
  rw [Bool.eq_iff_iff]
  exact ⟨hmixed entry hentry entry' hentry', hmixed entry' hentry' entry hentry⟩

/-- The path that is answered is the normalized one. -/
theorem filesList_path (listing : Listing entries) {path answered : Str} {rows : List Row}
    (h : filesList humanSize (fun _ => .ok (.attached (listing.output.map .ok))) path
      = .ok (answered, rows)) : answered = normalizeContainerPath path := by
  have hexec : execCollectFor (fun _ => .ok (.attached (listing.output.map .ok)))
      (listCommand (normalizeContainerPath path)) = _ := execCollectFor_listing listing rfl
  unfold filesList at h
  simp only [hexec] at h
  change (if _ then _ else _) = _ at h
  rw [if_neg (by simp [trim, trimStart, trimEnd])] at h
  exact (congrArg Prod.fst (Except.ok.inj h)).symm

/-- The pieces of a listing are read as its texts exactly if no message ends inside a character. -/
theorem uncut_iff {listing : Listing entries} (h : ∀ entry ∈ entries, entry.name = utf8 entry.text) :
    (stdoutPieces listing.output).flatMap lossy
        = textOf (entries.map fun entry => (entry, entry.text)) ↔
      AllBetween (stdoutPieces listing.output) := by
  rw [← flatMap_lossy_iff, listing.stdout, scriptOutput_eq h, utf8, lossy_encode]

/-- **A directory is shown** as it is exactly if the names are plain texts, its entries are of one kind and
no message ends inside a character. -/
theorem filesShown_iff (hdir : ∀ name ∈ dir, IsName name) (listing : Listing entries) :
    FilesShown humanSize dir entries listing ↔ AllPlain dir entries listing := by
  have hnames : ∀ entry ∈ entries, ∀ name ∈ dir ++ [entry.text], IsName name := by
    intro entry _ name hname
    rcases List.mem_append.1 hname with hname | hname
    · exact hdir name hname
    · rw [List.mem_singleton.1 hname]
      exact (readAs_text entry).isName.1
  have hentered : ∀ entry ∈ entries,
      normalizeContainerPath (render (dir ++ [entry.text])) = render (dir ++ [entry.text])
        ↔ Plain entry.text := by
    intro entry hentry
    rw [normalize_render_iff (hnames entry hentry)]
    simp
  have hcommand : ∀ {path path' : Str}, listCommand path = listCommand path' ↔ path = path' := by
    intro path path'
    simp [listCommand]
  have hleft : (dir ≠ [] → normalizeContainerPath (parentPath (render dir)) = render dir.dropLast)
      ↔ ∀ name ∈ dir.dropLast.getLast?, Plain name := by
    rcases List.eq_nil_or_concat' dir with rfl | ⟨dir, name, rfl⟩
    · simp
    · rw [parentPath_render (hdir name (by simp)).slash, List.dropLast_concat,
        ← normalize_render_iff fun n hn => hdir n (List.mem_append_left _ hn)]
      exact ⟨fun h => h (by simp), fun h _ => h⟩
  constructor
  · intro h
    have hvalid : ∀ entry ∈ entries, entry.name = utf8 entry.text := fun entry hentry =>
      (h.named entry hentry).symm
    have hplain : ∀ entry ∈ entries, Plain entry.text := fun entry hentry =>
      (hentered entry hentry).1 (hcommand.1 (h.entered entry hentry))
    obtain ⟨rows, hrows, hperm, hbefore⟩ := h.listed (fun _ => .ok (.attached (listing.output.map .ok))) rfl
    have hown : ∀ name ∈ dir.getLast?, Plain name := by
      rw [← normalize_render_iff hdir]
      exact (filesList_path listing hrows).symm
    -- the names are read from their own bytes, and so are no shorter than their texts
    obtain ⟨named, hfst, hread, htext⟩ := exists_named listing.stdout
    have hmem : ∀ p ∈ named, p.1 ∈ entries := fun p hp => hfst ▸ List.mem_map_of_mem hp
    have hnamed : ∀ p ∈ named, IsName p.2 ∧ '\n' ∉ p.2 ∧ p.2.getLast? ≠ some '\r' := fun p hp =>
      ⟨(hread p hp).isName.1, (hread p hp).isName.2,
        (hread p hp).getLast? (hvalid _ (hmem p hp)) (hplain _ (hmem p hp))⟩
    have hexec : execCollectFor (fun _ => .ok (.attached (listing.output.map .ok)))
        (listCommand (render dir)) = _ := execCollectFor_listing listing rfl
    rw [htext] at hexec
    rw [filesList_eq hdir hown hnamed hexec] at hrows
    obtain rfl := congrArg Prod.snd (Except.ok.inj hrows)
    refine ⟨hown, hleft.1 fun hne => hcommand.1 (h.left hne),
      fun entry hentry => ⟨_, hvalid entry hentry, hplain entry hentry⟩,
      alike_of_sorted hperm (pairwise_sorted _) hbefore, allBetween_of_length ?_⟩
    -- the rows have the names of the entries, so that nothing was cut
    have hnames := (List.perm_append_left_iff _).1 ((List.mergeSort_perm _ _).symm.trans hperm)
    have hlengths := (hnames.map fun row => row.name.length).sum_eq
    rw [List.map_map, List.map_map] at hlengths
    rw [htext, listing.stdout, scriptOutput_eq hvalid, utf8, lossy_encode, length_textOf, length_textOf,
      hfst, List.map_map, List.map_map, List.map_map]
    exact congrArg₂ (· + ·) rfl hlengths
  · intro h
    have hentry : ∀ entry ∈ entries, entry.name = utf8 entry.text ∧ Plain entry.text := by
      intro entry hentry
      obtain ⟨text, htext, hplain⟩ := h.entry entry hentry
      rw [text_of_utf8 htext]
      exact ⟨htext, hplain⟩
    have hnamed : ∀ p ∈ entries.map fun entry => (entry, entry.text),
        IsName p.2 ∧ '\n' ∉ p.2 ∧ p.2.getLast? ≠ some '\r' := by
      intro p hp
      obtain ⟨entry, hmem, rfl⟩ := List.mem_map.1 hp
      have hread := readAs_text entry
      exact ⟨hread.isName.1, hread.isName.2, hread.getLast? (hentry entry hmem).1 (hentry entry hmem).2⟩
    have hexpected : rowsNamed humanSize dir (entries.map fun entry => (entry, entry.text))
        = expectedRows humanSize dir entries := by
      rw [rowsNamed, List.map_map]
      rfl
    refine ⟨fun exec hexec => ?_, fun entry hmem => (hentry entry hmem).1.symm,
      fun entry hmem => deleteCommand_render hdir (readAs_text entry).isName.1 (hentry entry hmem).2,
      fun entry hmem => hcommand.2 ((hentered entry hmem).2 (hentry entry hmem).2),
      fun hne => hcommand.2 (hleft.2 h.parent hne)⟩
    have hcollect := execCollectFor_listing listing hexec
    rw [(uncut_iff fun entry hmem => (hentry entry hmem).1).2 h.uncut] at hcollect
    have hlist := @filesList_eq humanSize dir hdir h.own _ hnamed _ hcollect
    rw [hexpected] at hlist
    refine ⟨_, hlist, List.mergeSort_perm _ _, (pairwise_sorted _).imp_of_mem fun ha hb hab => ?_⟩
    exact before_of_compare h.alike ((List.mergeSort_perm _ _).mem_iff.1 ha)
      ((List.mergeSort_perm _ _).mem_iff.1 hb) hab

/-- **The files of a container** are shown as they are exactly if names are plain texts, entries of one kind
and no message ends inside a character, and a path to the root is refused exactly if it does not end in a
dot. -/
theorem files_iff (hdir : ∀ name ∈ dir, IsName name) (listing : Listing entries) (rawPath : Str) :
    (FilesShown humanSize dir entries listing ↔ AllPlain dir entries listing) ∧
    (RootRefused rawPath ↔ (resolve (normalizeContainerPath rawPath) = [] →
      basename (normalizeContainerPath rawPath) ≠ ['.'])) :=
  ⟨filesShown_iff hdir listing, rootRefused_iff rawPath⟩

end Shown

/-- A directory `été`. -/
def summerEntry : FileEntry where
  type := "directory".toList
  size := "4096".toList
  mtime := "1700000000".toList
  name := utf8 "été".toList
  slash := true
  type_ok := by decide
  size_ok := by decide
  mtime_ok := by decide
  name_ok := by decide
  no_slash := by decide
  no_newline := by decide
  slash_of_directory _ := rfl

/-- A file `init`. -/
def initEntry : FileEntry where
  type := "regular file".toList
  size := "12".toList
  mtime := "1700000000".toList
  name := utf8 "init".toList
  slash := false
  type_ok := by decide
  size_ok := by decide
  mtime_ok := by decide
  name_ok := by decide
  no_slash := by decide
  no_newline := by decide
  slash_of_directory h := absurd h (by decide)

theorem stdoutPieces_stdOut (pieces : List (List UInt8)) :
    stdoutPieces (pieces.map .stdOut) = pieces := by
  induction pieces with
  | nil => rfl
  | cons piece pieces ih => exact congrArg (piece :: ·) ih

theorem flatten_stdOut {entries : List FileEntry} {pieces : List (List UInt8)}
    (h : pieces.flatten = scriptOutput entries) :
    (stdoutPieces (pieces.map .stdOut)).flatten = scriptOutput entries := by
  rw [stdoutPieces_stdOut, h]

theorem stderrPieces_stdOut (pieces : List (List UInt8)) :
    stderrPieces (pieces.map .stdOut) = [] := by
  induction pieces with
  | nil => rfl
  | cons piece pieces ih => exact ih

/-- A listing that arrives in these pieces. -/
def sentIn (entries : List FileEntry) (pieces : List (List UInt8))
    (h : pieces.flatten = scriptOutput entries) : Listing entries where
  output := pieces.map .stdOut
  stdout := flatten_stdOut h
  stderr := stderrPieces_stdOut pieces

theorem summer_flatten : [utf8 (summerEntry.columns ++ "ét".toList), utf8 "é/\n".toList].flatten
    = scriptOutput [summerEntry] := by
  decide +kernel

/-- The directory `/srv` with the directory `été`, whose listing arrives in two messages, is shown, and its
path with `..` behind it is refused. -/
theorem files_summer :
    FilesShown (fun _ => []) ["srv".toList] [summerEntry] (sentIn _ _ summer_flatten) ∧
      RootRefused "/srv/..".toList := by
  -- the path is plain, and so is the entry, whose name is cut between two letters and not inside one
  have hname : ∀ name ∈ ["srv".toList], IsName name := by
    intro name hname
    rw [List.mem_singleton.1 hname]
    exact ⟨by decide, by decide, by decide, by decide⟩
  have hplain : AllPlain ["srv".toList] [summerEntry] (sentIn _ _ summer_flatten) := by
    refine ⟨?_, by simp, ?_, ?_, ?_⟩
    · intro name hname
      obtain rfl : "srv".toList = name := by simpa using hname
      decide
    · intro entry hentry
      rw [List.mem_singleton.1 hentry]
      exact ⟨"été".toList, rfl, by decide⟩
    · intro entry hentry entry' hentry'
      rw [List.mem_singleton.1 hentry, List.mem_singleton.1 hentry']
    · -- the first message ends between two letters
      rw [sentIn, stdoutPieces_stdOut, ← flatMap_lossy_iff]
      simp only [List.flatMap_cons, List.flatMap_nil, List.flatten_cons, List.flatten_nil,
        List.append_nil]
      rw [utf8, utf8, lossy_encode, lossy_encode, ← List.flatMap_append, lossy_encode]
  have hfiles := @files_iff (fun _ => []) _ _ hname (sentIn _ _ summer_flatten) "/srv/..".toList
  exact ⟨hfiles.1.2 hplain, hfiles.2.2 fun _ => by decide +kernel⟩

/-- **A directory comes behind a file**, and `/.` is not refused. -/
theorem directory_last :
    ¬ FilesShown (fun _ => []) [] [summerEntry, initEntry]
      (sentIn _ [scriptOutput [summerEntry, initEntry]] (List.flatten_singleton ..)) ∧
    ¬ RootRefused "/.".toList := by
  constructor
  · intro h
    have hplain := (filesShown_iff (by simp) _).1 h
    exact absurd (hplain.alike summerEntry (by simp) initEntry (by simp)) (by decide)
  · rw [rootRefused_iff]
    intro h
    exact h (by decide +kernel) (by decide +kernel)

end Docker
end Navop
