import NavopExtensions.Rdp.Clipboard.Agreement
import NavopExtensions.Rdp.Clipboard.Safety

/-!
# Files arrive as they were copied

Both halves of the clipboard against each other: a `RemoteClipboardTransfer` whose requests are
answered from a `LocalClipboardTransfer`. The sender advertises what `collect` found, the receiver
asks for every file in chunks of one mebibyte, and the sender reads the entry at the requested
index. The exchange ends, it ends in `Ready`, and the staged files are the source files
(`transfer_delivers`).

A file is described once for both sides, as a `SharedFile`: the entry the sender finds at its index
has its contents, and the layout of the receiver has its index, its path and its size. `Stage` is
the state of the exchange, with the number of bytes and of files that are still to come as a rank;
one answer always lowers it. The contents staged of the current file are the first `offset` bytes
of it, which the requested range extends.

What lies outside is assumed: that the messages of the clipboard crate carry what was put into them
(`Pdu.Lawful`), that the source files can be read (`Readable`), and that the file system of the
receiver works (`StagingFs.Works`).
-/

namespace Navop
namespace Rdp
namespace Clipboard

open Checks RemoteClipboardTransfer

variable {P N ρ : Type} {rules : NameRules}

/-! ### What is relied on -/

/-- The messages of the clipboard crate carry what was put into them. -/
structure Pdu.Lawful (pdu : Pdu ρ) : Prop where
  streamId_size : ∀ streamId size, pdu.streamId (pdu.newSizeResponse streamId size) = streamId
  streamId_data : ∀ streamId data, pdu.streamId (pdu.newDataResponse streamId data) = streamId
  isError_size : ∀ streamId size, pdu.isError (pdu.newSizeResponse streamId size) = false
  isError_data : ∀ streamId data, pdu.isError (pdu.newDataResponse streamId data) = false
  data_data : ∀ streamId data, pdu.data (pdu.newDataResponse streamId data) = data
  dataAsSize_size : ∀ streamId, ∀ size < 2 ^ 64,
    pdu.dataAsSize (pdu.newSizeResponse streamId size) = some size
  validateFlags_size : pdu.validateFlags sizeFlag = .ok ()
  validateFlags_range : pdu.validateFlags rangeFlag = .ok ()

/-- The files of a list can be opened, and are as long as they were when the list was made. -/
def Readable (fs : SourceFs P N) (entries : List (LocalClipboardEntry P rules)) : Prop :=
  ∀ e ∈ entries, e.kind = .file → ∃ contents, fs.openFile e.sourcePath = .ok contents ∧
    contents.length = e.size

/-- A valid path whose parent is there, and whose place is free even without case. -/
structure Vacant (rules : NameRules) (staging : Staging) (path : List String) : Prop where
  valid : ∃ relative : RelativeClipboardPath rules, path = relative.asPathBuf
  parent : path.dropLast = [] ∨ path.dropLast ∈ staging.directories
  free : ∀ p ∈ staging.directories ++ staging.files.map StagedFile.path,
    p.map rules.toLowercase ≠ path.map rules.toLowercase

/-- A file system that works: vacant paths can be created, open files written and flushed. -/
structure StagingFs.Works (rules : NameRules) (stagingFs : StagingFs) : Prop where
  createDir : ∀ staging path, Vacant rules staging path → stagingFs.createDir staging path = .ok ()
  createNew : ∀ staging path, Vacant rules staging path → stagingFs.createNew staging path = .ok ()
  writeAll : ∀ staging file data, file < staging.files.length →
    stagingFs.writeAll staging file data = .ok ()
  flush : ∀ staging file, file < staging.files.length → stagingFs.flush staging file = .ok ()

/-! ### The exchange -/

section

variable [DecidableEq P] (fs : SourceFs P N) (pdu : Pdu ρ) (stagingFs : StagingFs)
  (transfer : LocalClipboardTransfer P rules)

/-- One exchange: a request of the receiver is answered by the sender. -/
def exchange (outcome : Outcome) (nextStreamId : UInt32) : Outcome :=
  match outcome.2 with
  | .ok (.request request) =>
    outcome.1.advance pdu stagingFs (transfer.localFileResponse fs pdu request) nextStreamId
  | _ => outcome

/-- The exchanges after `start`, each with the answer to the request before it. -/
def exchanges (outcome : Outcome) (streamIds : ℕ → UInt32) (n : ℕ) : Outcome :=
  Machine.feed (exchange fs pdu stagingFs transfer) streamIds outcome n

end

/-- The staged files are the files of the list, in its order: each at the path of its entry, with
the contents of its source. -/
def Delivered (fs : SourceFs P N) (entries : List (LocalClipboardEntry P rules))
    (staged : List StagedFile) : Prop :=
  List.Forall₂ (fun e f => f.path = e.relativePath.components ∧
    fs.openFile e.sourcePath = .ok f.contents) (entries.filter fun e => e.kind = .file) staged

/-! ### Files, as both sides see them -/

/-- A file of the list: its index in the list, its path and its contents. -/
structure SharedFile where
  index : ℕ
  path : List String
  contents : List UInt8

namespace SharedFile

/-- The size of a file. -/
def size (file : SharedFile) : ℕ := file.contents.length

/-- A file, in the layout of the receiver. -/
def remote (file : SharedFile) : RemoteFile := ⟨file.index, file.path, some file.size⟩

/-- A file, once it is received. -/
def staged (file : SharedFile) : StagedFile := ⟨file.path, file.contents⟩

end SharedFile

/-- The sender finds a file at its index. -/
def Serves [DecidableEq P] (fs : SourceFs P N) (transfer : LocalClipboardTransfer P rules)
    (file : SharedFile) : Prop :=
  ∃ entry, transfer.entries[file.index]? = some entry ∧ entry.kind = .file ∧
    entry.size = file.size ∧ entry.openVerified fs = .ok file.contents

section

variable [DecidableEq P] {fs : SourceFs P N} {pdu : Pdu ρ}
  {transfer : LocalClipboardTransfer P rules} {file : SharedFile}

/-- A size request is answered with the size. -/
theorem Serves.size_response (h : Serves fs transfer file) (hpdu : pdu.Lawful) (streamId : UInt32)
    (dataId : Option UInt32) :
    transfer.localFileResponse fs pdu ⟨streamId, file.index, sizeFlag, 0, sizeRequestBytes, dataId⟩
      = pdu.newSizeResponse streamId file.size := by
  obtain ⟨entry, hentry, hkind, hsize, hopen⟩ := h
  have hread : entry.read fs pdu ⟨streamId, file.index, sizeFlag, 0, sizeRequestBytes, dataId⟩
      = .ok (pdu.newSizeResponse streamId entry.size) := by
    refine bind_eq_ok.mpr ⟨(), ensure_eq_ok.mpr hkind, bind_eq_ok.mpr
      ⟨(), hpdu.validateFlags_size, ?_⟩⟩
    rw [if_pos (show sizeFlag &&& sizeFlag = sizeFlag by decide)]
    exact bind_eq_ok.mpr ⟨(), ensure_eq_ok.mpr ⟨rfl, rfl⟩, bind_eq_ok.mpr ⟨_, hopen, rfl⟩⟩
  simp only [LocalClipboardTransfer.localFileResponse, LocalClipboardTransfer.entry,
    Int.natCast_nonneg, if_true, Int.toNat_natCast, hentry, hread, hsize]

/-- A range request that stays inside the file is answered with that range. -/
theorem Serves.range_response (h : Serves fs transfer file) (hpdu : pdu.Lawful) (streamId : UInt32)
    {offset requested : ℕ} (hpos : 0 < requested) (hchunk : requested ≤ remoteFileChunkBytes)
    (hfits : offset + requested ≤ file.size) (dataId : Option UInt32) :
    transfer.localFileResponse fs pdu
        ⟨streamId, file.index, rangeFlag, offset, requested, dataId⟩
      = pdu.newDataResponse streamId ((file.contents.drop offset).take requested) := by
  obtain ⟨entry, hentry, hkind, hsize, hopen⟩ := h
  have hread : entry.read fs pdu ⟨streamId, file.index, rangeFlag, offset, requested, dataId⟩
      = .ok (pdu.newDataResponse streamId ((file.contents.drop offset).take requested)) := by
    refine bind_eq_ok.mpr ⟨(), ensure_eq_ok.mpr hkind, bind_eq_ok.mpr
      ⟨(), hpdu.validateFlags_range, ?_⟩⟩
    rw [if_neg (show ¬ rangeFlag &&& sizeFlag = sizeFlag by decide)]
    -- a request is smaller than what a response may hold
    have hlimit : remoteFileChunkBytes ≤ maxLocalResponseChunkBytes := by decide
    have hamount : min (min requested maxLocalResponseChunkBytes) (entry.size - offset)
        = requested := by omega
    refine bind_eq_ok.mpr ⟨(), ensure_eq_ok.mpr hpos, bind_eq_ok.mpr ⟨(),
      ensure_eq_ok.mpr (show offset ≤ entry.size by omega), bind_eq_ok.mpr ⟨_, hopen, ?_⟩⟩⟩
    simp only [hamount]
    rfl
  simp only [LocalClipboardTransfer.localFileResponse, LocalClipboardTransfer.entry,
    Int.natCast_nonneg, if_true, Int.toNat_natCast, hentry, hread]

end

/-! ### The stages of the exchange -/

/-- What both sides have agreed on before the exchange. -/
structure Agreed [DecidableEq P] (fs : SourceFs P N) (transfer : LocalClipboardTransfer P rules)
    (shared : List SharedFile) (directories : List (List String)) : Prop where
  serves : ∀ f ∈ shared, Serves fs transfer f
  single : ∀ f ∈ shared, f.size ≤ maxSingleFileBytes
  total : (shared.map SharedFile.size).sum ≤ maxTotalTransferBytes
  valid : ∀ f ∈ shared, ∃ relative : RelativeClipboardPath rules, f.path = relative.asPathBuf
  parent : ∀ f ∈ shared, f.path.dropLast = [] ∨ f.path.dropLast ∈ directories
  distinct : ((directories ++ shared.map SharedFile.path).map
    (List.map rules.toLowercase)).Nodup

/-- The files `before` are staged, and the next file was not begun. -/
structure Synced (shared before : List SharedFile) (directories : List (List String))
    (t : RemoteClipboardTransfer) : Prop where
  files : t.files = shared.map SharedFile.remote
  directories : t.staging.directories = directories
  current : t.currentFile = before.length
  staged : t.staging.files = before.map SharedFile.staged
  accounted : t.accountedBytes = (before.map SharedFile.size).sum

/-- The files `before` are staged, and the first `t.offset` bytes of `file`. -/
structure Receiving (shared before : List SharedFile) (file : SharedFile)
    (directories : List (List String)) (t : RemoteClipboardTransfer) : Prop where
  files : t.files = shared.map SharedFile.remote
  directories : t.staging.directories = directories
  current : t.currentFile = before.length
  staged : t.staging.files
    = before.map SharedFile.staged ++ [⟨file.path, file.contents.take t.offset⟩]
  accounted : t.accountedBytes = (before.map SharedFile.size).sum + file.size
  expected : t.expectedSize = some file.size
  output : t.outputFile = some before.length
  offset_le : t.offset ≤ file.size

/-- The bytes still to come for whole files, and one for every answer about a size. -/
def remaining (after : List SharedFile) : ℕ := (after.map fun f => f.size + 1).sum

/-- The state of the exchange, with its rank. -/
inductive Stage (shared : List SharedFile) (directories : List (List String)) :
    ℕ → Outcome → Prop
  | size {before file after t streamId} (hshared : shared = before ++ file :: after)
    (synced : Synced shared before directories t) (hpending : t.pending = some ⟨streamId, .size⟩) :
    Stage shared directories (remaining (file :: after))
      (t, .ok (.request ⟨streamId, file.index, sizeFlag, 0, sizeRequestBytes, t.clipDataId⟩))
  | range {before file after t streamId} (hshared : shared = before ++ file :: after)
    (receiving : Receiving shared before file directories t) (hlt : t.offset < file.size)
    (hpending : t.pending
      = some ⟨streamId, .range (min (file.size - t.offset) remoteFileChunkBytes)⟩) :
    Stage shared directories (file.size - t.offset + remaining after)
      (t, .ok (.request ⟨streamId, file.index, rangeFlag, t.offset,
        min (file.size - t.offset) remoteFileChunkBytes, t.clipDataId⟩))
  | ready {t names} (staged : t.staging.files = shared.map SharedFile.staged) :
    Stage shared directories 0 (t, .ok (.ready names))

variable {shared before after : List SharedFile} {file : SharedFile}
  {directories : List (List String)} {t : RemoteClipboardTransfer}

theorem remote_getElem? (hshared : shared = before ++ file :: after)
    (hfiles : t.files = shared.map SharedFile.remote) (hcurrent : t.currentFile = before.length) :
    t.files[t.currentFile]? = some file.remote := by
  rw [hfiles, hcurrent, hshared]
  simp

/-- The next file is asked for, or everything is staged. -/
theorem Synced.next (h : Synced shared before directories t) (hshared : shared = before ++ after)
    (streamId : UInt32) :
    Stage shared directories (remaining after)
      (if t.currentFile = t.files.length then t.complete else t.requestSize streamId) := by
  cases after with
  | nil =>
    rw [List.append_nil] at hshared
    -- that was the last file
    rw [if_pos (by rw [h.current, h.files, hshared, List.length_map])]
    refine .ready ?_
    change t.staging.files = shared.map SharedFile.staged
    rw [h.staged, hshared]
  | cons file after =>
    have hne : t.currentFile ≠ t.files.length := by
      rw [h.current, h.files, hshared]
      simp
    rw [if_neg hne]
    have heq : t.requestSize streamId = ({ t with pending := some ⟨streamId, .size⟩ },
        .ok (.request ⟨streamId, file.index, sizeFlag, 0, sizeRequestBytes, t.clipDataId⟩)) := by
      simp only [RemoteClipboardTransfer.requestSize,
        remote_getElem? hshared h.files h.current]
      rfl
    rw [heq]
    exact Stage.size (t := { t with pending := some ⟨streamId, .size⟩ }) hshared
      ⟨h.files, h.directories, h.current, h.staged, h.accounted⟩ rfl

/-- The next range is asked for. -/
theorem Receiving.requestRange (h : Receiving shared before file directories t)
    (hshared : shared = before ++ file :: after) (hlt : t.offset < file.size) (streamId : UInt32) :
    Stage shared directories (file.size - t.offset + remaining after)
      (t.requestRange streamId) := by
  have hamount : min (file.size - t.offset) remoteFileChunkBytes < 2 ^ 32 :=
    lt_of_le_of_lt (Nat.min_le_right _ _) (by decide)
  have heq : t.requestRange streamId
      = ({ t with
          pending := some ⟨streamId, .range (min (file.size - t.offset) remoteFileChunkBytes)⟩ },
        .ok (.request ⟨streamId, file.index, rangeFlag, t.offset,
          min (file.size - t.offset) remoteFileChunkBytes, t.clipDataId⟩)) := by
    simp only [RemoteClipboardTransfer.requestRange, h.expected, Option.getD_some,
      if_neg hlt.not_gt, if_pos hamount, remote_getElem? hshared h.files h.current]
    rfl
  rw [heq]
  exact Stage.range (t := { t with pending := some _ }) hshared
    ⟨h.files, h.directories, h.current, h.staged, h.accounted, h.expected, h.output,
      h.offset_le⟩ hlt rfl

/-- A file of which every byte is staged is flushed, and the next one begins. -/
theorem Receiving.finishFile (h : Receiving shared before file directories t)
    (hshared : shared = before ++ file :: after) (hoffset : t.offset = file.size)
    {stagingFs : StagingFs} (hworks : stagingFs.Works rules) (streamId : UInt32) :
    Stage shared directories (remaining after) (t.finishFile stagingFs streamId) := by
  have hflush : stagingFs.flush t.staging before.length = .ok () := by
    refine hworks.flush _ _ ?_
    rw [h.staged]
    simp
  simp only [RemoteClipboardTransfer.finishFile, h.output, hflush]
  -- all of the file is staged, so it counts among those before
  have hsynced : Synced shared (before ++ [file]) directories { t with
      outputFile := none
      currentFile := t.currentFile + 1
      expectedSize := none
      offset := 0 } := by
    refine ⟨h.files, h.directories, ?_, ?_, ?_⟩
    · simp [h.current]
    · change t.staging.files = _
      rw [h.staged, hoffset, SharedFile.size, List.take_length]
      simp [SharedFile.staged]
    · simpa using h.accounted
  exact hsynced.next (by simpa using hshared) streamId

/-! ### One answer -/

section

variable [DecidableEq P] {fs : SourceFs P N} {pdu : Pdu ρ} {stagingFs : StagingFs}
  {transfer : LocalClipboardTransfer P rules}

/-- The limits of the receiver allow the size of every file. -/
theorem Agreed.accountSize (h : Agreed fs transfer shared directories)
    (hshared : shared = before ++ file :: after)
    (haccounted : t.accountedBytes = (before.map SharedFile.size).sum) :
    t.accountSize file.size
      = ({ t with accountedBytes := t.accountedBytes + file.size }, .ok ()) := by
  have hsingle : file.size ≤ maxSingleFileBytes := h.single file (by simp [hshared])
  have htotal : t.accountedBytes + file.size ≤ maxTotalTransferBytes := by
    have hsum := h.total
    rw [hshared, List.map_append, List.map_cons, List.sum_append, List.sum_cons] at hsum
    omega
  have hbound : t.accountedBytes + file.size < 2 ^ 64 :=
    lt_of_le_of_lt htotal (by decide)
  simp only [RemoteClipboardTransfer.accountSize, if_pos hsingle, if_pos hbound, if_pos htotal]

/-- The place of the next file is free. -/
theorem Agreed.vacant (h : Agreed fs transfer shared directories)
    (hshared : shared = before ++ file :: after)
    {staging : Staging} (hdirectories : staging.directories = directories)
    (hstaged : staging.files = before.map SharedFile.staged) :
    Vacant rules staging file.path := by
  have hmem : file ∈ shared := by simp [hshared]
  refine ⟨h.valid file hmem, ?_, fun p hp hsame => ?_⟩
  · rw [hdirectories]
    exact h.parent file hmem
  · have hpaths : staging.files.map StagedFile.path = before.map SharedFile.path := by
      rw [hstaged, List.map_map]
      rfl
    rw [hdirectories, hpaths] at hp
    have hsplit : directories ++ shared.map SharedFile.path
        = (directories ++ before.map SharedFile.path)
          ++ file.path :: after.map SharedFile.path := by
      simp [hshared]
    have hdistinct := h.distinct
    rw [hsplit, List.map_append, List.map_cons] at hdistinct
    exact (List.nodup_append.mp hdistinct).2.2 _ (List.mem_map_of_mem hp) _ List.mem_cons_self hsame

/-- The answer to a size request creates the file, and asks for its contents unless it is empty. -/
theorem Agreed.acceptSize (h : Agreed fs transfer shared directories)
    (hworks : stagingFs.Works rules) (hpdu : pdu.Lawful)
    (hshared : shared = before ++ file :: after) (hsynced : Synced shared before directories t)
    (streamId nextStreamId : UInt32) :
    ∃ m < remaining (file :: after), Stage shared directories m
      (t.acceptSize pdu stagingFs (pdu.newSizeResponse streamId file.size) nextStreamId) := by
  have hsize : pdu.dataAsSize (pdu.newSizeResponse streamId file.size) = some file.size := by
    refine hpdu.dataAsSize_size _ _ (lt_of_le_of_lt (h.single file (by simp [hshared])) ?_)
    decide
  have hcreate : stagingFs.createNew t.staging file.path = .ok () :=
    hworks.createNew _ _ (h.vacant hshared hsynced.directories hsynced.staged)
  have hlength : t.staging.files.length = before.length := by
    rw [hsynced.staged, List.length_map]
  -- the file is created empty, with the size that was advertised
  have hreceiving : Receiving shared before file directories { t with
      accountedBytes := t.accountedBytes + file.size
      staging := { t.staging with files := t.staging.files ++ [⟨file.path, []⟩] }
      outputFile := some t.staging.files.length
      expectedSize := some file.size
      offset := 0 } := by
    refine ⟨hsynced.files, hsynced.directories, hsynced.current, ?_, ?_, rfl, ?_, Nat.zero_le _⟩
    · simp [hsynced.staged]
    · simp [hsynced.accounted]
    · simp [hlength]
  have hcount : remaining (file :: after) = file.size + 1 + remaining after := rfl
  simp only [RemoteClipboardTransfer.acceptSize, hsize,
    remote_getElem? hshared hsynced.files hsynced.current, SharedFile.remote, or_true, if_true,
    h.accountSize hshared hsynced.accounted, hcreate]
  split
  · next hzero =>
    exact ⟨remaining after, by omega, hreceiving.finishFile hshared hzero.symm hworks nextStreamId⟩
  · next hne =>
    exact ⟨_, by simp only; omega,
      hreceiving.requestRange hshared (Nat.pos_of_ne_zero hne) nextStreamId⟩

/-- The answer to a range request extends what is staged of the file. -/
theorem Receiving.acceptRange (hworks : stagingFs.Works rules)
    (hshared : shared = before ++ file :: after)
    (hreceiving : Receiving shared before file directories t) (hlt : t.offset < file.size)
    (hsmall : file.size < 2 ^ 64) {requested : ℕ}
    (hrequested : requested = min (file.size - t.offset) remoteFileChunkBytes)
    (nextStreamId : UInt32) :
    ∃ m < file.size - t.offset + remaining after, Stage shared directories m
      (t.acceptRange stagingFs ((file.contents.drop t.offset).take requested) requested
        nextStreamId) := by
  have hchunk : 0 < remoteFileChunkBytes := by decide
  -- the answer is not cut short: the range lies inside the file
  have hlen : ((file.contents.drop t.offset).take requested).length = requested := by
    rw [List.length_take, List.length_drop]
    change min requested (file.size - t.offset) = requested
    omega
  have hextend : file.contents.take t.offset ++ (file.contents.drop t.offset).take requested
      = file.contents.take (t.offset + requested) := List.take_add.symm
  generalize (file.contents.drop t.offset).take requested = data at hlen hextend
  have hdata : data ≠ [] := by
    rintro rfl
    rw [List.length_nil] at hlen
    omega
  have hwrite : stagingFs.writeAll t.staging before.length data = .ok () := by
    refine hworks.writeAll _ _ _ ?_
    rw [hreceiving.staged]
    simp
  -- the bytes that are staged are a longer part of the file
  have hnext : Receiving shared before file directories { t with
      staging := t.staging.append before.length data
      expectedSize := some file.size
      offset := t.offset + data.length
      outputFile := some before.length } := by
    refine ⟨hreceiving.files, hreceiving.directories, hreceiving.current, ?_,
      hreceiving.accounted, rfl, rfl, ?_⟩
    · have happend := append_last hreceiving.staged data
      rw [List.length_map, hextend, ← hlen] at happend
      exact happend
    · simp only
      omega
  simp only [RemoteClipboardTransfer.acceptRange, hreceiving.expected, hreceiving.output,
    if_neg hdata, if_neg (show ¬ requested < data.length by omega),
    if_neg (show ¬ 2 ^ 64 ≤ t.offset + data.length by omega),
    if_neg (show ¬ file.size < t.offset + data.length by omega), hwrite]
  split
  · next heq => exact ⟨_, by omega, hnext.finishFile hshared heq hworks nextStreamId⟩
  · next hne =>
    exact ⟨_, by simp only; omega, hnext.requestRange hshared (by simp only; omega) nextStreamId⟩

/-- The exchange is over. -/
def IsReady (outcome : Outcome) : Prop := ∃ names, outcome.2 = .ok (.ready names)

/-- **One exchange.** Unless everything is staged, the answer to the request lowers the rank. -/
theorem Stage.exchange (h : Agreed fs transfer shared directories) (hworks : stagingFs.Works rules)
    (hpdu : pdu.Lawful) {n : ℕ} {outcome : Outcome} (hstage : Stage shared directories n outcome)
    (nextStreamId : UInt32) :
    IsReady outcome ∨ ∃ m < n, Stage shared directories m
      (Clipboard.exchange fs pdu stagingFs transfer outcome nextStreamId) := by
  cases hstage with
  | ready staged => exact .inl ⟨_, rfl⟩
  | @size before file after t streamId hshared synced hpending =>
    refine .inr ?_
    have hserves := h.serves file (by simp [hshared])
    simp only [Clipboard.exchange, hserves.size_response hpdu]
    -- the answer carries the stream id of the request, so it is not ignored
    rw [advance_of_answers hpending (by simp [Answers, hpending, hpdu.streamId_size])]
    simp only [hpdu.isError_size, Bool.false_eq_true, if_false]
    exact Agreed.acceptSize (t := { t with pending := none }) h hworks hpdu hshared
      ⟨synced.files, synced.directories, synced.current, synced.staged, synced.accounted⟩ _ _
  | @range before file after t streamId hshared receiving hlt hpending =>
    refine .inr ?_
    have hmem : file ∈ shared := by simp [hshared]
    have hsmall : file.size < 2 ^ 64 := lt_of_le_of_lt (h.single file hmem) (by decide)
    have hchunk : 0 < remoteFileChunkBytes := by decide
    simp only [Clipboard.exchange]
    rw [(h.serves file hmem).range_response hpdu _ (by omega) (Nat.min_le_right _ _) (by omega)]
    rw [advance_of_answers hpending (by simp [Answers, hpending, hpdu.streamId_data])]
    simp only [hpdu.isError_data, hpdu.data_data, Bool.false_eq_true, if_false]
    exact Receiving.acceptRange (t := { t with pending := none }) hworks hshared
      ⟨receiving.files, receiving.directories, receiving.current, receiving.staged,
        receiving.accounted, receiving.expected, receiving.output, receiving.offset_le⟩ hlt hsmall
      rfl nextStreamId

end

/-! ### What a collected list agrees on -/

/-- The contents of a file that can be opened. -/
def SourceFs.contents (fs : SourceFs P N) (path : P) : List UInt8 :=
  match fs.openFile path with
  | .ok contents => contents
  | .error _ => []

/-- The files of a list of entries, from `index` on. -/
def sharedFiles (fs : SourceFs P N) (index : ℕ) :
    List (LocalClipboardEntry P rules) → List SharedFile
  | [] => []
  | entry :: rest =>
    match entry.kind with
    | .file =>
      ⟨index, entry.relativePath.components, fs.contents entry.sourcePath⟩
        :: sharedFiles fs (index + 1) rest
    | .directory => sharedFiles fs (index + 1) rest

section

variable {fs : SourceFs P N} {entries : List (LocalClipboardEntry P rules)}
  {entry : LocalClipboardEntry P rules}

theorem Readable.openFile (h : Readable fs entries) (hentry : entry ∈ entries)
    (hkind : entry.kind = .file) :
    fs.openFile entry.sourcePath = .ok (fs.contents entry.sourcePath) ∧
      (fs.contents entry.sourcePath).length = entry.size := by
  obtain ⟨contents, hopen, hlen⟩ := h entry hentry hkind
  have hcontents : fs.contents entry.sourcePath = contents := by rw [SourceFs.contents, hopen]
  exact ⟨by rw [hopen, hcontents], by rw [hcontents, hlen]⟩

theorem Readable.tail (h : Readable fs (entry :: entries)) : Readable fs entries :=
  fun e he => h e (List.mem_cons_of_mem _ he)

/-- The receiver's layout describes the files of the list. -/
theorem sharedFiles_remote (h : Readable fs entries) (index : ℕ) :
    (sharedFiles fs index entries).map SharedFile.remote = layoutFiles index entries := by
  induction entries generalizing index with
  | nil => rfl
  | cons entry entries ih =>
    cases hkind : entry.kind with
    | directory => simp only [sharedFiles, layoutFiles, hkind, ih h.tail]
    | file =>
      have hsize := (h.openFile List.mem_cons_self hkind).2
      simp only [sharedFiles, layoutFiles, hkind, List.map_cons, ih h.tail, SharedFile.remote,
        SharedFile.size, hsize]

theorem sharedFiles_path (index : ℕ) :
    (sharedFiles fs index entries).map SharedFile.path
      = (entries.filter fun e => e.kind = .file).map fun e => e.relativePath.components := by
  induction entries generalizing index with
  | nil => rfl
  | cons entry entries ih => cases hkind : entry.kind <;> simp [sharedFiles, hkind, ih]

theorem sharedFiles_size (h : Readable fs entries) (index : ℕ) :
    ((sharedFiles fs index entries).map SharedFile.size).sum
      = (entries.map LocalClipboardEntry.fileBytes).sum := by
  induction entries generalizing index with
  | nil => rfl
  | cons entry entries ih =>
    cases hkind : entry.kind with
    | directory =>
      simp [sharedFiles, hkind, LocalClipboardEntry.fileBytes, ih h.tail]
    | file =>
      have hsize := (h.openFile List.mem_cons_self hkind).2
      simp [sharedFiles, hkind, LocalClipboardEntry.fileBytes, ih h.tail, SharedFile.size, hsize]

/-- A file of the list comes from an entry at its index. -/
theorem mem_sharedFiles {index : ℕ} {file : SharedFile} (h : file ∈ sharedFiles fs index entries) :
    ∃ pre e post, entries = pre ++ e :: post ∧ e.kind = .file ∧
      file = ⟨index + pre.length, e.relativePath.components, fs.contents e.sourcePath⟩ := by
  induction entries generalizing index with
  | nil => simp [sharedFiles] at h
  | cons entry entries ih =>
    -- a file of a later entry, one position further on
    have hlater : file ∈ sharedFiles fs (index + 1) entries →
        ∃ pre e post, entry :: entries = pre ++ e :: post ∧ e.kind = .file ∧
          file = ⟨index + pre.length, e.relativePath.components, fs.contents e.sourcePath⟩ := by
      intro hmem
      obtain ⟨pre, e, post, hsplit, hkind, hfile⟩ := ih hmem
      refine ⟨entry :: pre, e, post, by rw [hsplit]; rfl, hkind, ?_⟩
      rw [hfile, List.length_cons]
      congr 1
      omega
    cases hkind : entry.kind with
    | directory =>
      rw [sharedFiles, hkind] at h
      exact hlater h
    | file =>
      rw [sharedFiles, hkind] at h
      rcases List.mem_cons.mp h with rfl | hmem
      · exact ⟨[], entry, entries, rfl, hkind, rfl⟩
      · exact hlater hmem

/-- The files of the list, once they are staged. -/
theorem sharedFiles_delivered (h : Readable fs entries) (index : ℕ) :
    Delivered fs entries ((sharedFiles fs index entries).map SharedFile.staged) := by
  induction entries generalizing index with
  | nil => exact .nil
  | cons entry entries ih =>
    unfold Delivered
    cases hkind : entry.kind with
    | directory =>
      rw [List.filter_cons_of_neg (by simp [hkind])]
      simp only [sharedFiles, hkind]
      exact ih h.tail (index + 1)
    | file =>
      rw [List.filter_cons_of_pos (by simp [hkind])]
      simp only [sharedFiles, hkind, List.map_cons]
      exact .cons ⟨rfl, (h.openFile List.mem_cons_self hkind).1⟩ (ih h.tail (index + 1))

/-- What was seen of a file when its entry was built. -/
theorem buildEntry_file (h : buildEntry fs entry.sourcePath entry.relativePath = .ok entry)
    (hkind : entry.kind = .file) :
    ∃ metadata, ensureNotLinkOrReparse fs entry.sourcePath = .ok metadata ∧
      metadata.isFile = true ∧ metadata.len = entry.size ∧
      fs.canonicalize entry.sourcePath = .ok entry.canonicalPath := by
  obtain ⟨metadata, hmetadata, h⟩ := bind_eq_ok.mp h
  obtain ⟨kind, hentryKind, h⟩ := bind_eq_ok.mp h
  obtain ⟨canonical, hcanonical, h⟩ := bind_eq_ok.mp h
  have hentry := Except.ok.inj h
  have hpath : canonical = entry.canonicalPath := congrArg LocalClipboardEntry.canonicalPath hentry
  have hsame : kind = entry.kind := congrArg LocalClipboardEntry.kind hentry
  refine ⟨metadata, hmetadata, ?_, congrArg LocalClipboardEntry.size hentry, ?_⟩
  · rw [hsame, hkind, entryKind] at hentryKind
    split at hentryKind
    · assumption
    · split at hentryKind <;> nomatch hentryKind
  · rw [← hpath]
    exact context_eq_ok.mp hcanonical

/-- A file that was collected can still be opened, as nothing has changed. -/
theorem openVerified_of_buildEntry [DecidableEq P]
    (h : buildEntry fs entry.sourcePath entry.relativePath = .ok entry) (hkind : entry.kind = .file)
    {contents : List UInt8} (hopen : fs.openFile entry.sourcePath = .ok contents)
    (hlen : contents.length = entry.size) : entry.openVerified fs = .ok contents := by
  obtain ⟨metadata, hmetadata, hfile, hsize, hcanonical⟩ := buildEntry_file h hkind
  exact bind_eq_ok.mpr ⟨metadata, hmetadata, bind_eq_ok.mpr ⟨(), ensure_eq_ok.mpr hfile,
    bind_eq_ok.mpr ⟨(), ensure_eq_ok.mpr hsize, bind_eq_ok.mpr
    ⟨_, context_eq_ok.mpr hcanonical, bind_eq_ok.mpr ⟨(), ensure_eq_ok.mpr rfl,
    bind_eq_ok.mpr ⟨contents, hopen, bind_eq_ok.mpr ⟨(), ensure_eq_ok.mpr hlen, rfl⟩⟩⟩⟩⟩⟩⟩

/-- Directories and files together are the entries. -/
theorem layoutDirectories_append_files (entries : List (LocalClipboardEntry P rules)) (index : ℕ) :
    (layoutDirectories entries ++ (sharedFiles fs index entries).map SharedFile.path).Perm
      (entries.map fun e => e.relativePath.components) := by
  rw [sharedFiles_path, layoutDirectories, ← List.map_append]
  refine List.Perm.map _ ?_
  -- what is not a directory is a file
  have hfilter : entries.filter (fun e => decide (e.kind = .file))
      = entries.filter fun e => !decide (e.kind = .directory) := by
    refine List.filter_congr fun e _ => ?_
    cases e.kind <;> rfl
  rw [hfilter]
  exact List.filter_append_perm _ entries

/-- The directories of a list are created, each after its parent. -/
theorem createDirectories_ok {stagingFs : StagingFs} (hworks : stagingFs.Works rules)
    (done rest : List (LocalClipboardEntry P rules)) {staging : Staging}
    (hdirectories : staging.directories = layoutDirectories done) (hfiles : staging.files = [])
    (hparents : ParentsPrecede (done ++ rest))
    (hnodup : ((layoutDirectories (done ++ rest)).map (List.map rules.toLowercase)).Nodup) :
    createDirectories stagingFs staging (layoutDirectories rest)
      = .ok { staging with directories := layoutDirectories (done ++ rest) } := by
  induction rest generalizing done staging with
  | nil =>
    rw [List.append_nil, ← hdirectories]
    rfl
  | cons entry rest ih =>
    have hassoc : done ++ entry :: rest = (done ++ [entry]) ++ rest := by simp
    have happend : layoutDirectories (done ++ [entry])
        = layoutDirectories done ++ layoutDirectories [entry] := by simp [layoutDirectories]
    cases hkind : entry.kind with
    | file =>
      -- nothing is created for a file
      have hskip : layoutDirectories (entry :: rest) = layoutDirectories rest := by
        simp [layoutDirectories, hkind]
      rw [hassoc] at hparents hnodup ⊢
      rw [hskip]
      refine ih (done ++ [entry]) ?_ hfiles hparents hnodup
      rw [happend, hdirectories]
      simp [layoutDirectories, hkind]
    | directory =>
      have hcons : layoutDirectories (entry :: rest)
          = entry.relativePath.components :: layoutDirectories rest := by
        simp [layoutDirectories, hkind]
      -- the parent was created before, and no path that was created is the same but for case
      have hvacant : Vacant rules staging entry.relativePath.components := by
        refine ⟨⟨entry.relativePath, rfl⟩, ?_, fun p hp hsame => ?_⟩
        · rcases hparents done entry rest rfl with htop | ⟨d, hd, hdir, hcomponents⟩
          · exact .inl htop
          · refine .inr ?_
            rw [hdirectories]
            exact List.mem_map.mpr ⟨d, List.mem_filter.mpr ⟨hd, by simp [hdir]⟩, hcomponents⟩
        · rw [hfiles, List.map_nil, List.append_nil, hdirectories] at hp
          have hsplit : layoutDirectories (done ++ entry :: rest) = layoutDirectories done
              ++ entry.relativePath.components :: layoutDirectories rest := by
            rw [← hcons]
            simp [layoutDirectories]
          rw [hsplit, List.map_append, List.map_cons] at hnodup
          exact (List.nodup_append.mp hnodup).2.2 _ (List.mem_map_of_mem hp) _ List.mem_cons_self
            hsame
      rw [hcons, createDirectories, hworks.createDir _ _ hvacant, hassoc]
      rw [hassoc] at hparents hnodup
      refine ih (done ++ [entry]) ?_ hfiles hparents hnodup
      simp [hdirectories, layoutDirectories, hkind]

end

section

variable [DecidableEq P] {fs : SourceFs P N} {tops : List P}
  {transfer : LocalClipboardTransfer P rules}

/-- The sender and the receiver agree on a list that was collected and accepted. -/
theorem Collected.agreed (h : Collected fs tops transfer) (hreadable : Readable fs transfer.entries)
    (hnodup : (normalizedKeys transfer.entries).Nodup) :
    Agreed fs transfer (sharedFiles fs 0 transfer.entries)
      (layoutDirectories transfer.entries) := by
  obtain ⟨totalBytes, hlimited⟩ := h.limited
  refine ⟨fun f hf => ?_, fun f hf => ?_, ?_, fun f hf => ?_, fun f hf => ?_, ?_⟩
  · obtain ⟨pre, e, post, hsplit, hkind, rfl⟩ := mem_sharedFiles hf
    have he : e ∈ transfer.entries := by simp [hsplit]
    obtain ⟨hopen, hlen⟩ := hreadable.openFile he hkind
    refine ⟨e, ?_, hkind, hlen.symm,
      openVerified_of_buildEntry (h.walk.built e he) hkind hopen hlen⟩
    simp [hsplit]
  · obtain ⟨pre, e, post, hsplit, hkind, rfl⟩ := mem_sharedFiles hf
    have he : e ∈ transfer.entries := by simp [hsplit]
    have hsingle := hlimited.single e he
    rw [LocalClipboardEntry.fileBytes, hkind] at hsingle
    exact (hreadable.openFile he hkind).2.trans_le hsingle
  · rw [sharedFiles_size hreadable, ← hlimited.total]
    exact hlimited.total_le
  · obtain ⟨pre, e, post, hsplit, hkind, rfl⟩ := mem_sharedFiles hf
    exact ⟨e.relativePath, rfl⟩
  · obtain ⟨pre, e, post, hsplit, hkind, rfl⟩ := mem_sharedFiles hf
    -- a file lies at the top or in a directory that was visited before
    rcases h.walk.parents pre e post hsplit with htop | ⟨d, hd, hdir, hcomponents⟩
    · exact .inl htop
    · refine .inr (List.mem_map.mpr ⟨d, List.mem_filter.mpr ⟨?_, by simp [hdir]⟩, hcomponents⟩)
      rw [hsplit]
      exact List.mem_append_left _ hd
  · rw [((layoutDirectories_append_files transfer.entries 0).map _).nodup_iff, List.map_map]
    rw [normalizedKeys_nodup_iff, List.map_map] at hnodup
    exact hnodup

/-- The transfer of an accepted list can be created. -/
theorem Collected.create (h : Collected fs tops transfer) {stagingFs : StagingFs}
    (hworks : stagingFs.Works rules) {shared : List SharedFile}
    (hagreed : Agreed fs transfer shared (layoutDirectories transfer.entries))
    {layout : RemoteClipboardLayout} (hfiles : layout.files = shared.map SharedFile.remote)
    (hdirectories : layout.directories = layoutDirectories transfer.entries)
    (settings : RemoteTransferSettings) :
    ∃ t, create stagingFs layout settings = .ok t ∧
      Synced shared [] (layoutDirectories transfer.entries) t := by
  have hdistinct := hagreed.distinct
  rw [List.map_append] at hdistinct
  have hcreated : createDirectories stagingFs ⟨settings.stagingPath, [], [], false⟩
      layout.directories
        = .ok ⟨settings.stagingPath, layoutDirectories transfer.entries, [], false⟩ := by
    rw [hdirectories]
    exact createDirectories_ok hworks [] transfer.entries rfl rfl h.walk.parents
      (List.nodup_append.mp hdistinct).1
  exact ⟨_, bind_eq_ok.mpr ⟨_, hcreated, rfl⟩, hfiles, rfl, rfl, rfl, rfl⟩

/-- Unless everything is staged, the receiver has made a request. -/
theorem Stage.request {n : ℕ} {outcome : Outcome} (h : Stage shared directories n outcome)
    (hnot : ¬ IsReady outcome) : ∃ request, outcome.2 = .ok (.request request) := by
  cases h with
  | size => exact ⟨_, rfl⟩
  | range => exact ⟨_, rfl⟩
  | ready => exact absurd ⟨_, rfl⟩ hnot

/-- At the end every file is staged. -/
theorem Stage.staged {n : ℕ} {outcome : Outcome} (h : Stage shared directories n outcome)
    (hready : IsReady outcome) : outcome.1.staging.files = shared.map SharedFile.staged := by
  obtain ⟨names, hnames⟩ := hready
  cases h with
  | size => nomatch hnames
  | range => nomatch hnames
  | ready staged => exact staged

/-! ### The whole exchange -/

/-- **Files arrive as they were copied.** The descriptors of a collected list are accepted as a
layout. Then the receiver's transfer can be created; answering each of its requests from the
sender's entries, it makes requests until after finitely many answers it is `Ready`, and then the
staged files are exactly the files of the list, with the contents of their sources. -/
theorem transfer_delivers (rules : NameRules) (fs : SourceFs P N) (pdu : Pdu ρ)
    (stagingFs : StagingFs) (hpdu : pdu.Lawful) (hworks : stagingFs.Works rules)
    (transferId : UInt64) (paths : List String) (transfer : LocalClipboardTransfer P rules)
    (hcollect : LocalClipboardTransfer.collect rules fs transferId paths = .ok transfer)
    (hreadable : Readable fs transfer.entries) (layout : RemoteClipboardLayout)
    (hlayout : RemoteClipboardLayout.validate rules transfer.descriptors = .ok layout)
    (settings : RemoteTransferSettings) (streamId : UInt32) (streamIds : ℕ → UInt32) :
    ∃ t, create stagingFs layout settings = .ok t ∧
      ∃ n, (∀ m < n, ∃ request,
          (exchanges fs pdu stagingFs transfer (t.start streamId) streamIds m).2
            = .ok (.request request)) ∧
        (∃ names, (exchanges fs pdu stagingFs transfer (t.start streamId) streamIds n).2
          = .ok (.ready names)) ∧
        Delivered fs transfer.entries
          (exchanges fs pdu stagingFs transfer (t.start streamId) streamIds n).1.staging.files := by
  have hcollected := collect_ok hcollect
  have hvalidate := hcollected.validate
  -- a list with two paths that are the same but for case would have been refused
  by_cases hnodup : (normalizedKeys transfer.entries).Nodup
  swap
  · rw [if_neg hnodup] at hvalidate
    obtain ⟨message, hmessage⟩ := hvalidate
    rw [hlayout] at hmessage
    nomatch hmessage
  rw [if_pos hnodup] at hvalidate
  obtain ⟨layout', hlayout', hfiles, hdirectories⟩ := hvalidate
  rw [hlayout] at hlayout'
  obtain rfl := Except.ok.inj hlayout'
  have hagreed := hcollected.agreed hreadable hnodup
  obtain ⟨t, hcreate, hsynced⟩ := hcollected.create hworks hagreed
    (hfiles.trans (sharedFiles_remote hreadable 0).symm) hdirectories settings
  refine ⟨t, hcreate, ?_⟩
  -- from the start on, every answer brings the exchange closer to its end
  have hstart : Stage (sharedFiles fs 0 transfer.entries) (layoutDirectories transfer.entries)
      (remaining (sharedFiles fs 0 transfer.entries)) (t.start streamId) := by
    rw [start_eq hsynced.current]
    exact hsynced.next rfl streamId
  obtain ⟨n, hready, hbefore⟩ := Machine.feed_reaches
    (fun _ _ nextStreamId hstage => hstage.exchange hagreed hworks hpdu nextStreamId) hstart
    streamIds
  refine ⟨n, fun m hm => ?_, hready, ?_⟩
  · obtain ⟨⟨rank, hstage⟩, hnot⟩ := hbefore m hm.le
    exact hstage.request (hnot hm)
  · obtain ⟨⟨rank, hstage⟩, -⟩ := hbefore n le_rfl
    rw [exchanges, hstage.staged hready]
    exact sharedFiles_delivered hreadable 0

end

/-! ### A directory with two files -/

/-- A case-sensitive file system: an entry can be created in a directory that exists, when no entry
of that name does. -/
def exactFs : StagingFs where
  createDir := createIn
  createNew := createIn
  writeAll staging file _ :=
    if file < staging.files.length then .ok () else .error (0, "Bad file descriptor")
  flush staging file :=
    if file < staging.files.length then .ok () else .error "Bad file descriptor"
where
  createIn (staging : Staging) (path : List String) : Except String Unit := do
    ensure (path ∉ staging.directories ++ staging.files.map StagedFile.path) "File exists"
    ensure (path.dropLast = [] ∨ path.dropLast ∈ staging.directories) "No such file or directory"

theorem exactFs_works (rules : NameRules) : exactFs.Works rules := by
  have hcreate : ∀ staging path, Vacant rules staging path →
      exactFs.createIn staging path = .ok () := fun staging path h =>
    bind_eq_ok.mpr ⟨(), ensure_eq_ok.mpr fun hmem => h.free path hmem rfl,
      ensure_eq_ok.mpr h.parent⟩
  exact ⟨hcreate, hcreate, fun _ _ _ hlt => if_pos hlt, fun _ _ hlt => if_pos hlt⟩

theorem sizeOfBytes_sizeBytes {size : ℕ} (h : size < 2 ^ 64) :
    sizeOfBytes (sizeBytes size) = some size := by
  simp [sizeOfBytes, sizeBytes, List.range_succ]
  omega

theorem wirePdu_lawful : wirePdu.Lawful where
  streamId_size _ _ := rfl
  streamId_data _ _ := rfl
  isError_size _ _ := rfl
  isError_data _ _ := rfl
  data_data _ _ := rfl
  dataAsSize_size _ _ hsize := sizeOfBytes_sizeBytes hsize
  validateFlags_size := by decide
  validateFlags_range := by decide

/-- What a forest says about its files is true of them. -/
theorem forestFs_readable {directories : List (List String × List String)}
    {files : List (List String × List UInt8)} {tops : List (List String)}
    {transfer : LocalClipboardTransfer (List String) rules}
    (h : Collected (forestFs directories files) tops transfer) :
    Readable (forestFs directories files) transfer.entries := by
  intro e he hkind
  obtain ⟨metadata, hmetadata, hfile, hsize, -⟩ := buildEntry_file (h.walk.built e he) hkind
  obtain ⟨found, hfound, hrest⟩ := bind_eq_ok.mp hmetadata
  obtain ⟨_, -, hpure⟩ := bind_eq_ok.mp hrest
  obtain rfl := Except.ok.inj hpure
  have hsymlink := context_eq_ok.mp hfound
  simp only [forestFs] at hsymlink ⊢
  split at hsymlink
  · next contents hlookup =>
    rw [hlookup]
    refine ⟨contents, rfl, ?_⟩
    rw [← hsize, ← Except.ok.inj hsymlink]
  · rw [← Except.ok.inj hsymlink] at hfile
    nomatch hfile
  · nomatch hsymlink

/-- A directory with a file of three bytes and an empty one. -/
theorem transfer_delivers_twoFiles :
    ∃ transfer layout t,
      LocalClipboardTransfer.collect asciiRules (twoFiles "a" "b") 1 ["/d"] = .ok transfer ∧
      RemoteClipboardLayout.validate asciiRules transfer.descriptors = .ok layout ∧
      create exactFs layout ⟨1, "/staging", none⟩ = .ok t ∧
      ∃ n, IsReady (exchanges (twoFiles "a" "b") wirePdu exactFs transfer (t.start 0)
          (fun n => UInt32.ofNat (n + 1)) n) ∧
        Delivered (twoFiles "a" "b") transfer.entries
          (exchanges (twoFiles "a" "b") wirePdu exactFs transfer (t.start 0)
            (fun n => UInt32.ofNat (n + 1)) n).1.staging.files := by
  obtain ⟨transfer, hcollect⟩ : ∃ transfer,
      LocalClipboardTransfer.collect asciiRules (twoFiles "a" "b") 1 ["/d"] = .ok transfer :=
    exists_of_isOk (by decide +kernel)
  -- both halves accept the two files
  have hvalidate : (do
      let transfer ← LocalClipboardTransfer.collect asciiRules (twoFiles "a" "b") 1 ["/d"]
      RemoteClipboardLayout.validate asciiRules transfer.descriptors).isOk = true := by
    decide +kernel
  rw [hcollect] at hvalidate
  obtain ⟨layout, hlayout⟩ := exists_of_isOk hvalidate
  obtain ⟨t, hcreate, n, -, hready, hdelivered⟩ := transfer_delivers asciiRules
    (twoFiles "a" "b") wirePdu exactFs wirePdu_lawful (exactFs_works asciiRules) 1 ["/d"] transfer
    hcollect (forestFs_readable (collect_ok hcollect)) layout hlayout ⟨1, "/staging", none⟩ 0
    fun n => UInt32.ofNat (n + 1)
  exact ⟨transfer, layout, t, hcollect, hlayout, hcreate, n, hready, hdelivered⟩

end Clipboard
end Rdp
end Navop
