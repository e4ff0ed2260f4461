import NavopExtensions.Composite.Timestamps
import NavopExtensions.Docker.Output
import NavopExtensions.Lib.Paths

/-!
# The files of a container

`docker/container/files/list` runs a script in a directory of a container, which writes a line for every
entry, and sorts the rows that it makes of them; `docker/container/files/delete` removes what a path names.
The paths of both are normalized first, which takes white space away from their ends.

So a name that ends in white space is lost on the way (`normalize_render_iff`), and a blank name stands for
the directory that it is in. A name is bytes, of which the row has a text: it is the name's own where these
are UTF-8 and the daemon does not cut them inside a character (`exists_named`). The rows are sorted by
whether they are directories, and since `false` comes before `true`, the directories come last
(`compareRows_ne_gt`). The root is recognized by how its path is written, and `/.` is not one of the ways
(`deleteCommand_eq`).
-/

namespace Navop
namespace Docker

open Paths Text Utf8

/-- Texts are lists of characters. -/
abbrev Str := List Char

/-! ### Paths -/

/-- The loop of `normalize_container_path`, on a path that is turned around. -/
def popSlashes : Str → Str
  | '/' :: c :: path => popSlashes (c :: path)
  | path => path

/-- `normalize_container_path`: with a slash in front, and with none at the end. -/
def normalizeContainerPath (raw : Str) : Str :=
  let trimmed := trim raw
  if trimmed.isEmpty then ['/']
  else
    let path := if trimmed.head? = some '/' then trimmed else '/' :: trimmed
    (popSlashes path.reverse).reverse

/-- `parent_path`: what stands in front of the last slash, or the root. -/
def parentPath (path : Str) : Str :=
  match rsplitOnce '/' path with
  | none => ['/']
  | some (before, _) => if before = [] then ['/'] else before

/-- What is behind the last slash of a path. -/
def basename (path : Str) : Str :=
  match rsplitOnce '/' path with
  | none => path
  | some (_, name) => name

/-! ### Rows -/

/-- The type of a row. -/
inductive EntryType
  | directory
  | unknown
  | file
  deriving DecidableEq

/-- A row of `docker/container/files/list`: an entry as the file browser shows it. -/
structure Row where
  name : Str
  type : EntryType
  size : Str
  modified : Str
  path : Str
  deriving DecidableEq

/-- A command that is run in a container. -/
structure ExecCommand where
  cmd : List String
  workingDir : Option Str
  deriving DecidableEq

/-- What the daemon does with a command: it attaches to what the command writes, or it does not. -/
inductive StartExecResults
  | attached (output : List (Except String LogOutput))
  | detached

/-- `exec_collect`, by how the daemon runs commands: an error is one of creating or of starting it. -/
def execCollectFor (exec : ExecCommand → Except String StartExecResults) (command : ExecCommand) :
    Except ProtocolError (Str × Str) :=
  match exec command with
  | .error error => .error (unavailable error)
  | .ok .detached => .error (unavailable "exec returned detached")
  | .ok (.attached output) => execCollect output

/-- The script that writes a line for every entry of a directory. -/
def listScript : String :=
  "ls -Ap | while IFS= read -r n; do stat -c \"%F\t%s\t%Y\t%n\" -- \"$n\" 2>/dev/null || printf \"unknown\t0\t0\t%s\n\" \"$n\"; done"

/-- The script in a directory. -/
def listCommand (path : Str) : ExecCommand := ⟨["sh", "-c", listScript], some path⟩

/-- The row of the directory above. -/
def parentRow (path : Str) : Row := ⟨['.', '.'], .directory, ['-'], ['-'], parentPath path⟩

section List

-- `human_size`, which prints floating-point numbers.
variable (humanSize : ℕ → Str)

/-- The row of a line; it has four parts, and tabs in the last one stay. -/
def rowOf (path line : Str) : Option Row := do
  let (typeRaw, rest) ← splitOnce '\t' line
  let (sizeRaw, rest) ← splitOnce '\t' rest
  let (mtimeRaw, nameRaw) ← splitOnce '\t' rest
  let isDir := asciiLower typeRaw = asciiLower "directory".toList
  let name := if nameRaw.getLast? = some '/' then nameRaw.dropLast else nameRaw
  return {
    name
    type :=
      if isDir then .directory else if typeRaw = "unknown".toList then .unknown else .file
    size := if isDir then ['-'] else humanSize ((parseU64 sizeRaw).getD 0)
    modified := if isDir then ['-'] else utcFormat ((parseI64 mtimeRaw).getD 0)
    path := if path = ['/'] then path ++ name else path ++ '/' :: name }

/-- The comparison of rows: `..` is first, and `false` is less than `true`. -/
def compareRows (a b : Row) : Ordering :=
  if a.name = ['.', '.'] then .lt
  else if b.name = ['.', '.'] then .gt
  else (compare (decide (a.type = .directory)) (decide (b.type = .directory))).then
    (compareOfLessAndEq a.name b.name)

/-- `docker/container/files/list`, by how the daemon runs commands. -/
def filesList (exec : ExecCommand → Except String StartExecResults) (rawPath : Str) :
    Except ProtocolError (Str × List Row) := do
  let path := normalizeContainerPath rawPath
  let (stdout, stderr) ← execCollectFor exec (listCommand path)
  if (trim stdout).isEmpty && !(trim stderr).isEmpty then
    .error (unavailable (String.ofList (trim stderr)))
  else
    let entries := (if path ≠ ['/'] then [parentRow path] else [])
      ++ (lines stdout).filterMap (rowOf humanSize path)
    .ok (path, entries.mergeSort fun a b => compareRows a b ≠ .gt)

end List

/-- `rm`, with what it removes. -/
def removeCommand (path : Str) : ExecCommand :=
  ⟨["rm", "-rf", "--", String.ofList path], none⟩

/-- The command of `docker/container/files/delete`, unless that refuses the path. -/
def deleteCommand (rawPath : Str) : Except ProtocolError ExecCommand :=
  let path := normalizeContainerPath rawPath
  if path = ['/'] ∨ ['/', '.', '.'] <:+ path ∨ basename path = ['.', '.'] then
    .error (invalid "refusing to delete '..' or root")
  else .ok (removeCommand path)

/-! ### What the script writes -/

/-- The bytes of a text. -/
def utf8 (text : Str) : List UInt8 := text.flatMap encode

/-- A column of a line: the type of a file in the words of `stat`, or a number. -/
def IsColumn (text : Str) : Prop := ∀ c ∈ text, c.toNat < 128 ∧ c ≠ '\t' ∧ c ≠ '\n'

instance : DecidablePred IsColumn := fun text =>
  decidable_of_iff ((text.all fun c => decide (c.toNat < 128 ∧ c ≠ '\t' ∧ c ≠ '\n')) = true)
    (by simp [IsColumn])

/-- An entry of a directory, with what the script writes of it. Its name is bytes, which need not be a
text. -/
structure FileEntry where
  type : Str
  size : Str
  mtime : Str
  name : List UInt8
  slash : Bool
  type_ok : IsColumn type
  size_ok : IsColumn size
  mtime_ok : IsColumn mtime
  name_ok : name ≠ [] ∧ name ≠ utf8 ['.'] ∧ name ≠ utf8 ['.', '.']
  no_slash : 0x2F ∉ name
  no_newline : 0x0A ∉ name
  slash_of_directory : asciiLower type = asciiLower "directory".toList → slash = true

section Entry

variable (entry : FileEntry)

/-- An entry is a directory. -/
def FileEntry.isDirectory : Bool :=
  decide (asciiLower entry.type = asciiLower "directory".toList)

/-- What is in front of the name of an entry. -/
def FileEntry.columns : Str :=
  entry.type ++ '\t' :: (entry.size ++ '\t' :: (entry.mtime ++ ['\t']))

/-- What is behind the name of an entry. -/
def FileEntry.mark : Str := if entry.slash then ['/'] else []

/-- The line of an entry, by how its name is read. -/
def FileEntry.line (name : Str) : Str := entry.columns ++ (name ++ entry.mark)

/-- The bytes of the line of an entry, with the newline. -/
def FileEntry.bytes : List UInt8 :=
  utf8 entry.columns ++ (entry.name ++ utf8 (entry.mark ++ ['\n']))

/-- The text of the name of an entry. -/
def FileEntry.text : Str := lossy entry.name

/-- The row of an entry, by how its name is read. -/
def rowNamed (humanSize : ℕ → Str) (dir : List Str) (name : Str) : Row where
  name := name
  type :=
    if entry.isDirectory then .directory
    else if entry.type = "unknown".toList then .unknown
    else .file
  size := if entry.isDirectory then ['-'] else humanSize ((parseU64 entry.size).getD 0)
  modified := if entry.isDirectory then ['-'] else utcFormat ((parseI64 entry.mtime).getD 0)
  path := render (dir ++ [name])

/-- The row that an entry of a directory should have. -/
def rowFor (humanSize : ℕ → Str) (dir : List Str) : Row := rowNamed entry humanSize dir entry.text

end Entry

/-- What the script writes in a directory. -/
def scriptOutput (entries : List FileEntry) : List UInt8 := entries.flatMap FileEntry.bytes

/-- What the daemon sends of what the script writes in a directory, cut into messages anywhere. -/
structure Listing (entries : List FileEntry) where
  output : List LogOutput
  stdout : (stdoutPieces output).flatten = scriptOutput entries
  stderr : stderrPieces output = []

/-- The rows that a directory should have. -/
def expectedRows (humanSize : ℕ → Str) (dir : List Str) (entries : List FileEntry) : List Row :=
  (if dir = [] then [] else [parentRow (render dir)]) ++ entries.map (rowFor · humanSize dir)

/-- The group of a row. -/
def Row.group (row : Row) : ℕ :=
  if row.name = ['.', '.'] then 0 else if row.type = .directory then 1 else 2

/-- The order in which rows should be: `..`, the directories, the others, each by name. -/
def Row.Before (a b : Row) : Prop := a.group < b.group ∨ a.group = b.group ∧ a.name ≤ b.name

/-- A directory is shown, and its rows stand for its entries. -/
structure FilesShown (humanSize : ℕ → Str) (dir : List Str) (entries : List FileEntry)
    (listing : Listing entries) : Prop where
  listed : ∀ exec,
    exec (listCommand (render dir)) = .ok (.attached (listing.output.map .ok)) →
    ∃ rows, filesList humanSize exec (render dir) = .ok (render dir, rows) ∧
      rows.Perm (expectedRows humanSize dir entries) ∧ rows.Pairwise Row.Before
  named : ∀ entry ∈ entries, utf8 (rowFor entry humanSize dir).name = entry.name
  removed : ∀ entry ∈ entries,
    deleteCommand (rowFor entry humanSize dir).path = .ok (removeCommand (render (dir ++ [entry.text])))
  entered : ∀ entry ∈ entries,
    listCommand (normalizeContainerPath (rowFor entry humanSize dir).path)
      = listCommand (render (dir ++ [entry.text]))
  left : dir ≠ [] → listCommand (normalizeContainerPath (parentRow (render dir)).path)
    = listCommand (render dir.dropLast)

/-- A name does not end in white space. -/
def Plain (name : Str) : Prop := ∀ c ∈ name.getLast?, isWhitespace c = false

theorem plain_iff (name : Str) :
    (name.getLast?.all fun c => !isWhitespace c) = true ↔ Plain name := by
  cases h : name.getLast? with
  | none => simp [Plain, h]
  | some c => simp [Plain, h]

instance : DecidablePred Plain := fun name => decidable_of_iff _ (plain_iff name)

/-- The names of a directory, of the one above and of its entries are plain texts, either all entries are
directories or none is, and no message of the daemon ends inside a character. -/
structure AllPlain (dir : List Str) (entries : List FileEntry) (listing : Listing entries) : Prop where
  own : ∀ name ∈ dir.getLast?, Plain name
  parent : ∀ name ∈ dir.dropLast.getLast?, Plain name
  entry : ∀ entry ∈ entries, ∃ text, entry.name = utf8 text ∧ Plain text
  alike : ∀ entry ∈ entries, ∀ entry' ∈ entries, entry.isDirectory = entry'.isDirectory
  uncut : AllBetween (stdoutPieces listing.output)

/-- A path that leads to the root is refused. -/
def RootRefused (rawPath : Str) : Prop :=
  resolve (normalizeContainerPath rawPath) = [] → ∃ error, deleteCommand rawPath = .error error

/-! ### Normalized paths -/

theorem isWhitespace_slash : isWhitespace '/' = false := by decide

theorem trim_of_head {text : Str} (h : text.head? = some '/') : trim text = trimEnd text := by
  cases text with
  | nil => cases h
  | cons c text =>
    obtain rfl := Option.some.inj h
    rw [trim, trimStart, List.dropWhile_cons_of_neg (by rw [isWhitespace_slash]; simp)]

theorem trimEnd_concat (text : Str) (c : Char) :
    trimEnd (text ++ [c]) = if isWhitespace c then trimEnd text else text ++ [c] := by
  unfold trimEnd
  rw [List.reverse_append, List.reverse_singleton, List.singleton_append]
  split
  · next hc => rw [List.dropWhile_cons_of_pos hc]
  · next hc => rw [List.dropWhile_cons_of_neg hc, List.reverse_cons, List.reverse_reverse]

theorem length_trimEnd_le (text : Str) : (trimEnd text).length ≤ text.length := by
  rw [trimEnd, List.length_reverse]
  exact (List.dropWhile_suffix _).length_le.trans (by rw [List.length_reverse])

theorem length_popSlashes_le (path : Str) : (popSlashes path).length ≤ path.length := by
  fun_induction popSlashes path with
  | case1 c path ih => exact ih.trans (Nat.le_succ _)
  | case2 path => exact Nat.le_refl _

theorem popSlashes_of_ne {c : Char} (hc : c ≠ '/') (path : Str) :
    popSlashes (c :: path) = c :: path := by
  unfold popSlashes
  split
  · next heq => exact absurd (List.cons.inj heq).1 hc
  · rfl

/-- **A path** that begins at the root is normalized to itself if it does not end in white space or a
slash. -/
theorem normalize_concat {path : Str} {c : Char} (hpath : path.head? = some '/')
    (hc : isWhitespace c = false) (hslash : c ≠ '/') :
    normalizeContainerPath (path ++ [c]) = path ++ [c] := by
  have hhead : (path ++ [c]).head? = some '/' := by
    rw [List.head?_append, hpath]
    rfl
  have htrim : trim (path ++ [c]) = path ++ [c] := by
    rw [trim_of_head hhead, trimEnd_concat, hc, if_neg (by simp)]
  unfold normalizeContainerPath
  simp only [htrim, hhead, if_true]
  rw [if_neg (by simp), List.reverse_append, List.reverse_singleton, List.singleton_append,
    popSlashes_of_ne hslash, List.reverse_cons, List.reverse_reverse]

/-- A path that ends in white space gets shorter. -/
theorem length_normalize_lt {path : Str} {c : Char} (hpath : path.head? = some '/')
    (hc : isWhitespace c = true) :
    (normalizeContainerPath (path ++ [c])).length < (path ++ [c]).length := by
  have hhead : (path ++ [c]).head? = some '/' := by
    rw [List.head?_append, hpath]
    rfl
  have hlength : (trim (path ++ [c])).length ≤ path.length := by
    rw [trim_of_head hhead, trimEnd_concat, if_pos hc]
    exact length_trimEnd_le path
  -- only blanks at the end are trimmed, for the path begins with a slash
  have hstart : (trim (path ++ [c])).head? = some '/' := by
    obtain ⟨rest, rfl⟩ : ∃ rest, path = '/' :: rest := by
      cases path with
      | nil => cases hpath
      | cons d rest => exact ⟨rest, by rw [Option.some.inj hpath]⟩
    have happend := trim_append_cons [] (rest ++ [c]) isWhitespace_slash
    rw [List.nil_append] at happend
    rw [List.cons_append, happend]
    rfl
  unfold normalizeContainerPath
  simp only [hstart, if_true]
  rw [List.length_append, List.length_singleton]
  split
  · exact Nat.lt_succ_of_le (List.length_pos_of_mem (List.mem_of_mem_head? hpath))
  · rw [List.length_reverse]
    exact Nat.lt_succ_of_le ((length_popSlashes_le _).trans (by rwa [List.length_reverse]))

/-- **The path of a directory** is kept exactly if its name is plain. -/
theorem normalize_render_iff {dir : List Str} (hdir : ∀ name ∈ dir, IsName name) :
    normalizeContainerPath (render dir) = render dir ↔ ∀ name ∈ dir.getLast?, Plain name := by
  rcases List.eq_nil_or_concat' dir with rfl | ⟨dir, name, rfl⟩
  · exact iff_of_true (by decide) (by simp)
  · have hname := hdir name (by simp)
    -- it depends on the last character of the last name
    obtain ⟨start, c, rfl⟩ : ∃ start c, name = start ++ [c] := by
      rcases List.eq_nil_or_concat' name with rfl | ⟨start, c, rfl⟩
      · exact absurd rfl hname.ne_nil
      · exact ⟨start, c, rfl⟩
    have hrender : render (dir ++ [start ++ [c]]) = (dir.flatMap ('/' :: ·) ++ '/' :: start) ++ [c] := by
      rw [render_concat, List.append_assoc, List.cons_append]
    have hhead : (dir.flatMap ('/' :: ·) ++ '/' :: start).head? = some '/' := by
      cases dir with
      | nil => rfl
      | cons first dir => rfl
    have hplain : (∀ name ∈ (dir ++ [start ++ [c]]).getLast?, Plain name) ↔ isWhitespace c = false := by
      rw [List.getLast?_concat]
      simp [Plain]
    rw [hplain, hrender]
    constructor
    -- a blank at the end would be trimmed, and the path would be shorter
    · intro h
      by_contra hc
      have hlength := length_normalize_lt hhead (Bool.eq_true_of_not_eq_false hc)
      rw [h] at hlength
      exact lt_irrefl _ hlength
    · intro hc
      exact normalize_concat hhead hc fun heq => hname.slash (by simp [heq])

theorem rsplitOnce_append {before name : Str} (h : '/' ∉ name) :
    rsplitOnce '/' (before ++ '/' :: name) = some (before, name) := by
  have hreverse : '/' ∉ name.reverse := by rwa [List.mem_reverse]
  rw [rsplitOnce, List.reverse_append, List.reverse_cons, List.append_assoc, List.singleton_append,
    splitOnce_append hreverse]
  simp

theorem parentPath_render {dir : List Str} {name : Str} (h : '/' ∉ name) :
    parentPath (render (dir ++ [name])) = render dir := by
  rw [render_concat, parentPath, rsplitOnce_append h]
  show (if dir.flatMap ('/' :: ·) = [] then _ else _) = _
  unfold render
  by_cases hdir : dir = []
  · rw [if_pos hdir, hdir]
    rfl
  · rw [if_neg hdir, if_neg]
    obtain ⟨first, rest, rfl⟩ := List.exists_cons_of_ne_nil hdir
    exact List.cons_ne_nil _ _

/-! ### Lines and rows -/

theorem linesAfter_newline {line text : Str} (h : '\n' ∉ text) (hcr : (line ++ text).getLast? ≠ some '\r')
    (rest : Str) : linesAfter line (text ++ '\n' :: rest) = (line ++ text) :: lines rest := by
  induction text generalizing line with
  | nil =>
    rw [List.append_nil] at hcr ⊢
    rw [List.nil_append, linesAfter, if_pos rfl, if_neg hcr]
    rfl
  | cons c text ih =>
    obtain ⟨hc, htext⟩ := not_or.1 fun hmem => h (List.mem_cons.2 hmem)
    have hline : line ++ c :: text = (line ++ [c]) ++ text := by
      rw [List.append_assoc, List.singleton_append]
    rw [List.cons_append, linesAfter, if_neg (Ne.symm hc), hline, ih htext (hline ▸ hcr)]

section Rows

variable {entry : FileEntry}

theorem text_of_utf8 {text : Str} (h : entry.name = utf8 text) : entry.text = text := by
  rw [FileEntry.text, h]
  exact lossy_encode text

/-- A name is read from bytes that may have been cut anywhere. -/
def ReadAs (entry : FileEntry) (name : Str) : Prop :=
  ∃ pieces : List (List UInt8), pieces.flatten = entry.name ∧ name = pieces.flatMap lossy

theorem readAs_text (entry : FileEntry) : ReadAs entry entry.text :=
  ⟨[entry.name], by simp, by simp [FileEntry.text]⟩

/-- A name is read as one, whatever its bytes are and wherever they are cut. -/
theorem ReadAs.isName {name : Str} (h : ReadAs entry name) : IsName name ∧ '\n' ∉ name := by
  obtain ⟨pieces, hflat, rfl⟩ := h
  have hascii : ∀ text : Str, (∀ c ∈ text, c.toNat < 128) → entry.name ≠ utf8 text →
      pieces.flatMap lossy ≠ text := fun text htext hne heq =>
    hne (hflat ▸ flatten_of_flatMap_lossy htext heq)
  refine ⟨⟨hascii [] (by simp) entry.name_ok.1, fun hslash => ?_,
    hascii ['.'] (by simp) entry.name_ok.2.1, hascii ['.', '.'] (by simp) entry.name_ok.2.2⟩,
    fun hnewline => ?_⟩
  · exact entry.no_slash (hflat ▸ mem_of_mem_flatMap_lossy (by decide) hslash)
  · exact entry.no_newline (hflat ▸ mem_of_mem_flatMap_lossy (by decide) hnewline)

/-- A plain name does not end in a carriage return, as which it could be read. -/
theorem ReadAs.getLast? {name text : Str} (h : ReadAs entry name) (htext : entry.name = utf8 text)
    (hplain : Plain text) : name.getLast? ≠ some '\r' := by
  obtain ⟨pieces, hflat, rfl⟩ := h
  intro hlast
  have hbyte := getLast?_of_flatMap_lossy (by decide) hlast
  rw [hflat, htext] at hbyte
  obtain ⟨start, hstart⟩ := List.getLast?_eq_some_iff.1 hbyte
  -- the text ends in the character of its last byte
  have hone : [utf8 text].flatMap lossy = text := by simpa [utf8] using lossy_encode text
  obtain ⟨before, after, -, hafter, heq⟩ := @flatMap_lossy_split '\r' (by decide) [utf8 text] start []
    (by rw [encode_ascii (by decide)]; simpa using hstart)
  rw [hone, flatMap_lossy_nil hafter] at heq
  exact absurd (hplain '\r' (by rw [heq]; simp)) (by decide)

/-- The lines of some entries, by how their names are read. -/
def textOf (named : List (FileEntry × Str)) : Str :=
  named.flatMap fun p => p.1.line p.2 ++ ['\n']

theorem FileEntry.ascii_columns (entry : FileEntry) : ∀ c ∈ entry.columns, c.toNat < 128 := by
  intro c hc
  unfold FileEntry.columns at hc
  simp only [List.mem_append, List.mem_cons, List.not_mem_nil, or_false] at hc
  rcases hc with hc | rfl | hc | rfl | hc | rfl
  · exact (entry.type_ok c hc).1
  · decide
  · exact (entry.size_ok c hc).1
  · decide
  · exact (entry.mtime_ok c hc).1
  · decide

/-- Behind the name stands an ASCII character, the slash or the newline. -/
theorem FileEntry.exists_mark (entry : FileEntry) : ∃ first rest,
    entry.mark ++ ['\n'] = first :: rest ∧ first.toNat < 128 ∧ ∀ c ∈ rest, c.toNat < 128 := by
  unfold FileEntry.mark
  split
  · exact ⟨'/', ['\n'], rfl, by decide, by simp⟩
  · exact ⟨'\n', [], rfl, by decide, by simp⟩

/-- **What the script writes** is read as a line for every entry: its columns as they are, and its name
from its own bytes, wherever the daemon cuts them. -/
theorem exists_named {entries : List FileEntry} {pieces : List (List UInt8)}
    (h : pieces.flatten = scriptOutput entries) : ∃ named : List (FileEntry × Str),
      named.map Prod.fst = entries ∧ (∀ p ∈ named, ReadAs p.1 p.2) ∧
        pieces.flatMap lossy = textOf named := by
  induction entries generalizing pieces with
  | nil => exact ⟨[], rfl, by simp, flatMap_lossy_nil h⟩
  | cons entry entries ih =>
    obtain ⟨first, tail, hmark, hfirst, htail⟩ := entry.exists_mark
    have hbytes : pieces.flatten
        = utf8 entry.columns ++ (entry.name ++ (encode first ++ (utf8 tail ++ scriptOutput entries))) := by
      rw [h, scriptOutput, List.flatMap_cons, FileEntry.bytes, hmark, utf8, utf8, List.flatMap_cons]
      simp only [List.append_assoc]
      rfl
    -- the columns in front of a name are ASCII and arrive as they are
    obtain ⟨rest, hrest, hcolumns⟩ := flatMap_lossy_ascii entry.ascii_columns hbytes
    -- the name ends before the mark, which no character is cut across
    obtain ⟨before, behind, hbefore, hbehind, hname⟩ := flatMap_lossy_split hfirst hrest
    obtain ⟨after, hafter, hmarked⟩ := flatMap_lossy_ascii htail hbehind
    obtain ⟨named, hfst, hread, htext⟩ := ih hafter
    refine ⟨(entry, before.flatMap lossy) :: named, by rw [List.map_cons, hfst],
      List.forall_mem_cons.2 ⟨⟨before, hbefore, rfl⟩, hread⟩, ?_⟩
    calc pieces.flatMap lossy
        = entry.columns ++ (before.flatMap lossy ++ ((first :: tail) ++ textOf named)) := by
          rw [hcolumns, hname, hmarked, htext, List.cons_append]
      _ = textOf ((entry, before.flatMap lossy) :: named) := by
          rw [← hmark]
          simp [textOf, FileEntry.line]

theorem render_eq_root_iff {dir : List Str} (hdir : ∀ name ∈ dir, IsName name) :
    render dir = ['/'] ↔ dir = [] := by
  refine ⟨fun h => ?_, fun h => by rw [h]; rfl⟩
  by_contra hne
  obtain ⟨name, dir, rfl⟩ := List.exists_cons_of_ne_nil hne
  rw [render_of_ne_nil hne, List.flatMap_cons, List.cons_append] at h
  have hname := (hdir name List.mem_cons_self).ne_nil
  exact hname (List.append_eq_nil_iff.1 (List.cons.inj h).2).1

/-- A line becomes the row of its entry, by how the name is read. -/
theorem rowOf_line (humanSize : ℕ → Str) {dir : List Str} (hdir : ∀ name ∈ dir, IsName name)
    (entry : FileEntry) {name : Str} (h : '/' ∉ name) :
    rowOf humanSize (render dir) (entry.line name) = some (rowNamed entry humanSize dir name) := by
  have hsplit : ∀ {before after : Str}, IsColumn before →
      splitOnce '\t' (before ++ '\t' :: after) = some (before, after) :=
    fun hcolumn => splitOnce_append fun hmem => (hcolumn _ hmem).2.1 rfl
  -- the slash behind a directory is taken off again
  have hname : (if (name ++ entry.mark).getLast? = some '/' then (name ++ entry.mark).dropLast
      else name ++ entry.mark) = name := by
    unfold FileEntry.mark
    cases entry.slash with
    | true => simp
    | false =>
      have hlast : name.getLast? ≠ some '/' := fun hlast => h (List.mem_of_getLast? hlast)
      simp [hlast]
  -- no second slash in the root
  have hpath : (if render dir = ['/'] then render dir ++ name else render dir ++ '/' :: name)
      = render (dir ++ [name]) := by
    rw [render_concat]
    by_cases hroot : dir = []
    · rw [if_pos ((render_eq_root_iff hdir).2 hroot), hroot]
      rfl
    · rw [if_neg fun h => hroot ((render_eq_root_iff hdir).1 h), render_of_ne_nil hroot]
  have hline : entry.line name = entry.type ++ '\t' :: (entry.size ++ '\t' ::
      (entry.mtime ++ '\t' :: (name ++ entry.mark))) := by
    simp [FileEntry.line, FileEntry.columns]
  unfold rowOf
  rw [hline, hsplit entry.type_ok]
  simp only [Option.bind_eq_bind, Option.bind_some]
  rw [hsplit entry.size_ok]
  simp only [Option.bind_some]
  rw [hsplit entry.mtime_ok]
  simp only [Option.bind_some]
  rw [hname, hpath]
  unfold rowNamed
  simp only [FileEntry.isDirectory, decide_eq_true_eq]
  rfl

theorem FileEntry.newline_line (entry : FileEntry) {name : Str} (h : '\n' ∉ name) :
    '\n' ∉ entry.line name := by
  have hcolumn : ∀ text : Str, IsColumn text → '\n' ∉ text :=
    fun text htext hmem => (htext _ hmem).2.2 rfl
  have htype := hcolumn _ entry.type_ok
  have hsize := hcolumn _ entry.size_ok
  have hmtime := hcolumn _ entry.mtime_ok
  unfold FileEntry.line FileEntry.columns FileEntry.mark
  split
  · simp [htype, hsize, hmtime, h]
  · simp [htype, hsize, hmtime, h]

/-- A line is read whole if the name does not end in a carriage return. -/
theorem FileEntry.getLast?_line (entry : FileEntry) {name : Str} (hname : name ≠ [])
    (h : name.getLast? ≠ some '\r') : (entry.line name).getLast? ≠ some '\r' := by
  intro hlast
  rw [FileEntry.line, List.getLast?_append_of_ne_nil _ (by simp [hname]), FileEntry.mark] at hlast
  split at hlast
  · rw [List.getLast?_concat] at hlast
    exact absurd hlast (by decide)
  · rw [List.append_nil] at hlast
    exact h hlast

theorem lines_textOf {named : List (FileEntry × Str)}
    (h : ∀ p ∈ named, IsName p.2 ∧ '\n' ∉ p.2 ∧ p.2.getLast? ≠ some '\r') :
    lines (textOf named) = named.map fun p => p.1.line p.2 := by
  unfold textOf
  induction named with
  | nil => rfl
  | cons p named ih =>
    obtain ⟨⟨hname, hnewline, hlast⟩, hrest⟩ := List.forall_mem_cons.1 h
    rw [List.flatMap_cons, List.append_assoc, List.singleton_append, lines,
      linesAfter_newline (p.1.newline_line hnewline) (p.1.getLast?_line hname.ne_nil hlast),
      List.nil_append, ih hrest, List.map_cons]

/-- The length of the lines is that of the names and of what is around them. -/
theorem length_textOf (named : List (FileEntry × Str)) : (textOf named).length
    = ((named.map Prod.fst).map fun entry => entry.columns.length + entry.mark.length + 1).sum
      + (named.map fun p => p.2.length).sum := by
  induction named with
  | nil => rfl
  | cons p named ih =>
    rw [textOf, List.flatMap_cons, List.length_append, ← textOf, ih]
    simp only [FileEntry.line, List.length_append, List.length_singleton, List.map_cons, List.sum_cons]
    omega

/-- Where the names are texts, the script writes the bytes of the lines. -/
theorem scriptOutput_eq {entries : List FileEntry}
    (h : ∀ entry ∈ entries, entry.name = utf8 entry.text) :
    scriptOutput entries = utf8 (textOf (entries.map fun entry => (entry, entry.text))) := by
  induction entries with
  | nil => rfl
  | cons entry entries ih =>
    obtain ⟨hentry, hrest⟩ := List.forall_mem_cons.1 h
    rw [scriptOutput, List.flatMap_cons, ← scriptOutput, ih hrest, FileEntry.bytes]
    conv_lhs => rw [hentry]
    simp [textOf, FileEntry.line, utf8]

end Rows

/-! ### The order of rows -/

theorem compareOfLessAndEq_ne_gt {a b : Str} : compareOfLessAndEq a b ≠ .gt ↔ a ≤ b := by
  unfold compareOfLessAndEq
  split
  · next h => exact iff_of_true (by decide) h.le
  · next h =>
    split
    · next heq => exact iff_of_true (by decide) heq.le
    · next hne => exact iff_of_false (by decide) fun hle => h (lt_of_le_of_ne hle hne)

/-- **The comparison**: among the rows of entries, what is not a directory comes first. -/
theorem compareRows_ne_gt {a b : Row} : compareRows a b ≠ .gt ↔ a.name = ['.', '.'] ∨
    b.name ≠ ['.', '.'] ∧ (a.type ≠ .directory ∧ b.type = .directory ∨
      (a.type = .directory ↔ b.type = .directory) ∧ a.name ≤ b.name) := by
  unfold compareRows
  by_cases ha : a.name = ['.', '.']
  · rw [if_pos ha]
    exact iff_of_true (by decide) (.inl ha)
  · rw [if_neg ha]
    by_cases hb : b.name = ['.', '.']
    · rw [if_pos hb]
      exact iff_of_false (by decide) (by tauto)
    · rw [if_neg hb]
      rw [← compareOfLessAndEq_ne_gt]
      by_cases hda : a.type = .directory <;> by_cases hdb : b.type = .directory
      · simp [ha, hb, hda, hdb]
      · simp [ha, hda, hdb, show compare true false = Ordering.gt from rfl]
      · simp [ha, hb, hda, hdb, show compare false true = Ordering.lt from rfl]
      · simp [ha, hb, hda, hdb]

theorem compareRows_trans {a b c : Row} (hab : compareRows a b ≠ .gt) (hbc : compareRows b c ≠ .gt) :
    compareRows a c ≠ .gt := by
  rw [compareRows_ne_gt] at hab hbc ⊢
  rcases hab with ha | ⟨hb, hab⟩
  · exact .inl ha
  · rcases hbc with hb' | ⟨hc, hbc⟩
    · exact absurd hb' hb
    · refine .inr ⟨hc, ?_⟩
      rcases hab with ⟨ha, hb⟩ | ⟨hab, hle⟩
      · rcases hbc with ⟨hb', -⟩ | ⟨hbc, -⟩
        · exact absurd hb hb'
        · exact .inl ⟨ha, hbc.1 hb⟩
      · rcases hbc with ⟨hb, hc⟩ | ⟨hbc, hle'⟩
        · exact .inl ⟨fun h => hb (hab.1 h), hc⟩
        · exact .inr ⟨hab.trans hbc, hle.trans hle'⟩

theorem compareRows_total (a b : Row) : compareRows a b ≠ .gt ∨ compareRows b a ≠ .gt := by
  rw [compareRows_ne_gt, compareRows_ne_gt]
  by_cases ha : a.name = ['.', '.']
  · exact .inl (.inl ha)
  · by_cases hb : b.name = ['.', '.']
    · exact .inr (.inl hb)
    · rcases le_total a.name b.name with hle | hle
      · tauto
      · tauto

/-- Rows are sorted by the comparison. -/
theorem pairwise_sorted (rows : List Row) :
    (rows.mergeSort fun a b => compareRows a b ≠ .gt).Pairwise fun a b => compareRows a b ≠ .gt := by
  have hsorted := @List.pairwise_mergeSort Row (fun a b => decide (compareRows a b ≠ .gt))
    (fun a b c hab hbc => decide_eq_true (compareRows_trans (of_decide_eq_true hab) (of_decide_eq_true hbc)))
    (fun a b => by simpa using compareRows_total a b) rows
  exact hsorted.imp fun h => of_decide_eq_true h

/-! ### Removing -/

theorem basename_append {before name : Str} (h : '/' ∉ name) :
    basename (before ++ '/' :: name) = name := by
  rw [basename, rsplitOnce_append h]

theorem deleteCommand_eq (rawPath : Str) : deleteCommand rawPath
    = if normalizeContainerPath rawPath = ['/'] ∨ basename (normalizeContainerPath rawPath) = ['.', '.']
      then .error (invalid "refusing to delete '..' or root")
      else .ok (removeCommand (normalizeContainerPath rawPath)) := by
  have hsuffix : ∀ path : Str, ['/', '.', '.'] <:+ path → basename path = ['.', '.'] := by
    rintro path ⟨before, rfl⟩
    exact basename_append (by decide)
  unfold deleteCommand
  simp only
  split
  · next h =>
    rw [if_pos]
    rcases h with hroot | hdots | hdots
    · exact .inl hroot
    · exact .inr (hsuffix _ hdots)
    · exact .inr hdots
  · next h => rw [if_neg fun hor => h (hor.imp_right Or.inr)]

theorem deleteCommand_render {dir : List Str} {name : Str} (hdir : ∀ n ∈ dir, IsName n)
    (hname : IsName name) (hplain : Plain name) :
    deleteCommand (render (dir ++ [name])) = .ok (removeCommand (render (dir ++ [name]))) := by
  have hnames : ∀ n ∈ dir ++ [name], IsName n := by
    intro n hn
    rcases List.mem_append.1 hn with hn | hn
    · exact hdir n hn
    · rwa [List.mem_singleton.1 hn]
  have hpath : normalizeContainerPath (render (dir ++ [name])) = render (dir ++ [name]) :=
    (normalize_render_iff hnames).2 (by simpa using hplain)
  rw [deleteCommand_eq, hpath, if_neg]
  rintro (hroot | hdots)
  · exact absurd ((render_eq_root_iff hnames).1 hroot) (by simp)
  · rw [render_concat, basename_append hname.slash] at hdots
    exact hname.ne_dots hdots

theorem getLast?_popSlashes (path : Str) : (popSlashes path).getLast? = path.getLast? := by
  fun_induction popSlashes path with
  | case1 c path ih => rw [ih, List.getLast?_cons_cons]
  | case2 path => rfl

theorem popSlashes_eq_cons {path rest : Str} (h : popSlashes path = '/' :: rest) : rest = [] := by
  fun_induction popSlashes path with
  | case1 c path ih => exact ih h
  | case2 path hother =>
    subst h
    cases rest with
    | nil => rfl
    | cons c rest => exact absurd rfl (hother c rest)

/-- A path that is normalized has a last component, which is only missing at the root. -/
theorem exists_component (rawPath : Str) : ∃ before name, '/' ∉ name ∧
    normalizeContainerPath rawPath = before ++ '/' :: name ∧
    (name = [] → normalizeContainerPath rawPath = ['/']) := by
  unfold normalizeContainerPath
  simp only
  split
  · exact ⟨[], [], by simp, rfl, fun _ => rfl⟩
  · next hempty =>
    generalize hp : (if (trim rawPath).head? = some '/' then trim rawPath else '/' :: trim rawPath) = p
    have hhead : p.head? = some '/' := by
      rw [← hp]
      split
      · next h => exact h
      · rfl
    -- the path begins with a slash, so that there is a last one
    have hmem : '/' ∈ popSlashes p.reverse := by
      refine List.mem_of_getLast? ?_
      rw [getLast?_popSlashes, List.getLast?_reverse, hhead]
    obtain ⟨name, before, heq, hname⟩ := List.eq_append_cons_of_mem hmem
    refine ⟨before.reverse, name.reverse, by rwa [List.mem_reverse], ?_, fun hnil => ?_⟩
    · rw [heq]
      simp
    · rw [List.reverse_eq_nil_iff] at hnil
      rw [hnil, List.nil_append] at heq
      rw [heq, popSlashes_eq_cons heq]
      rfl

/-- **The root** is refused, unless the path ends in a dot. -/
theorem rootRefused_iff (rawPath : Str) : RootRefused rawPath ↔
    (resolve (normalizeContainerPath rawPath) = [] →
      basename (normalizeContainerPath rawPath) ≠ ['.']) := by
  obtain ⟨before, name, hname, hpath, hroot⟩ := exists_component rawPath
  have hbase : basename (normalizeContainerPath rawPath) = name := by rw [hpath, basename_append hname]
  have hresolve : resolve (normalizeContainerPath rawPath) = follow (resolve before) name := by
    rw [hpath, resolve_append before hname]
  refine forall_congr' fun hempty => ?_
  rw [deleteCommand_eq, hbase]
  constructor
  · rintro ⟨error, herror⟩ rfl
    split at herror
    · next h =>
      -- the guard looks for the path of the root and for two dots as the last name
      rcases h with h | h
      · rw [h] at hbase
        exact absurd hbase (by decide)
      · exact absurd h (by decide)
    · cases herror
  · intro hdot
    refine ⟨_, if_pos ?_⟩
    by_cases hnil : name = []
    · exact .inl (hroot hnil)
    -- a name that leads to the root is one dot or two
    · refine .inr ?_
      by_contra hdots
      rw [hresolve, follow, if_neg (not_or.2 ⟨hnil, hdot⟩), if_neg hdots] at hempty
      exact absurd hempty (by simp)

end Docker
end Navop
