import NavopExtensions.Rdp.Clipboard.Remote

/-!
# The download is safe against any peer

Whatever a peer answers, and whatever the file system refuses, the transfer never panics, never
asks past the end of a file, never stages more than the limits allow, and reports `Ready` only when
every file is complete (`transfer_safe`).

The proof is one invariant, `Phase`: the transfer waits for a size with all earlier files staged
completely, or waits for a range with the contents so far staged, or has stopped. Its parameter is
the list of sizes the peer has reported so far, one for each file in order; `reported` reads them
off the run. After an error nothing is pending, so the transfer has stopped for good.
-/

namespace Navop
namespace Rdp
namespace Clipboard

open Checks RemoteClipboardTransfer

variable {ρ : Type}

/-! ### Runs -/

/-- What arrives in one step: a response, the stream id for the next request, and the file system
at that time. -/
structure Reply (ρ : Type) where
  response : ρ
  nextStreamId : UInt32
  fs : StagingFs

/-- The call of `advance` for one step. -/
def answer (pdu : Pdu ρ) (t : RemoteClipboardTransfer) (reply : Reply ρ) : Outcome :=
  t.advance pdu reply.fs reply.response reply.nextStreamId

/-- The response answers the pending request. -/
def Answers (pdu : Pdu ρ) (t : RemoteClipboardTransfer) (response : ρ) : Prop :=
  t.pending.map PendingRemoteRequest.streamId = some (pdu.streamId response)

instance (pdu : Pdu ρ) (t : RemoteClipboardTransfer) (response : ρ) :
    Decidable (Answers pdu t response) := inferInstanceAs (Decidable (_ = _))

/-- The size a response reports: it answers a pending size request and is not an error. -/
def reported (pdu : Pdu ρ) (t : RemoteClipboardTransfer) (response : ρ) : List Nat :=
  if Answers pdu t response ∧ t.pending.map PendingRemoteRequest.kind = some .size ∧
      pdu.isError response = false then (pdu.dataAsSize response).toList
  else []

/-- The transfer after a sequence of replies, and the sizes they reported. -/
def afterReplies (pdu : Pdu ρ) (t : RemoteClipboardTransfer) (replies : List (Reply ρ)) :
    RemoteClipboardTransfer × List Nat :=
  Machine.run (fun t reply => ((answer pdu t reply).1, reported pdu t reply.response)) t replies

/-! ### What is promised -/

/-- The number of staged bytes and the size of each staged file are within the limits. -/
structure Bounded (staged : List StagedFile) : Prop where
  total : (staged.map fun f => f.contents.length).sum ≤ maxTotalTransferBytes
  single : ∀ f ∈ staged, f.contents.length ≤ maxSingleFileBytes

/-- Every file whose size was reported is staged, in order, with exactly that many bytes, and the
size is the advertised one if there was one. -/
structure Complete (files : List RemoteFile) (sizes : List Nat) (staged : List StagedFile) :
    Prop where
  staged : staged.map (fun f => (f.path, f.contents.length))
    = (files.zip sizes).map fun p => (p.1.relativePath, p.2)
  advertised : ∀ p ∈ files.zip sizes, p.1.advertisedSize = none ∨ p.1.advertisedSize = some p.2

/-- A range request of the current file: it starts where the bytes staged so far end and does not
go past the size reported for the file. -/
structure RangeOk (files : List RemoteFile) (sizes : List Nat) (t : RemoteClipboardTransfer)
    (request : FileContentsRequest) : Prop where
  exists_file : ∃ file staged size, files[t.currentFile]? = some file ∧
    t.staging.files[t.currentFile]? = some staged ∧ sizes[t.currentFile]? = some size ∧
    request.index = file.descriptorIndex ∧ staged.path = file.relativePath ∧
    request.position = staged.contents.length ∧ 0 < request.requestedSize ∧
    request.position + request.requestedSize ≤ size

/-- What a call may return, in terms of the transfer it leaves behind. -/
def ResultOk (files : List RemoteFile) (sizes : List Nat) (outcome : Outcome) : Prop :=
  match outcome.2 with
  | .error .panic => False
  | .error (.error _) => True
  | .ok .ignore => True
  | .ok (.request request) =>
    request.flags = rangeFlag → RangeOk files sizes outcome.1 request
  | .ok (.ready _) =>
    sizes.length = files.length ∧ Complete files sizes outcome.1.staging.files

/-! ### The invariant -/

/-- The sizes accepted so far, against the limits and the transfer's account. -/
structure Books (files : List RemoteFile) (sizes : List Nat) (t : RemoteClipboardTransfer) :
    Prop where
  files : t.files = files
  accounted : t.accountedBytes = sizes.sum
  total : sizes.sum ≤ maxTotalTransferBytes
  single : ∀ n ∈ sizes, n ≤ maxSingleFileBytes

/-- All files whose size was reported are staged completely. -/
structure Between (files : List RemoteFile) (sizes : List Nat) (t : RemoteClipboardTransfer) :
    Prop where
  books : Books files sizes t
  current : t.currentFile = sizes.length
  complete : Complete files sizes t.staging.files
  length_le : sizes.length ≤ files.length

/-- The file at position `sizes.length` is being received: `size` was reported for it, and
`contents` of it is staged. -/
structure Within (files : List RemoteFile) (sizes : List Nat) (size : Nat)
    (t : RemoteClipboardTransfer) : Prop where
  books : Books files (sizes ++ [size]) t
  current : t.currentFile = sizes.length
  expected : t.expectedSize = some size
  exists_file : ∃ file done contents, files[sizes.length]? = some file ∧
    (file.advertisedSize = none ∨ file.advertisedSize = some size) ∧
    Complete files sizes done ∧ done.length = sizes.length ∧
    t.staging.files = done ++ [⟨file.relativePath, contents⟩] ∧ contents.length = t.offset ∧
    t.outputFile = some done.length
  offset_le : t.offset ≤ size

/-- The state of a transfer after `start`. -/
inductive Phase (files : List RemoteFile) : List Nat → RemoteClipboardTransfer → Prop
  | size {sizes t streamId} (between : Between files sizes t) (hlt : sizes.length < files.length)
    (hpending : t.pending = some ⟨streamId, .size⟩) : Phase files sizes t
  | range {sizes size t streamId} (within : Within files sizes size t) (hlt : t.offset < size)
    (hpending : t.pending = some ⟨streamId, .range (min (size - t.offset) remoteFileChunkBytes)⟩) :
    Phase files (sizes ++ [size]) t
  | stopped {sizes t} (bounded : Bounded t.staging.files) (hpending : t.pending = none) :
    Phase files sizes t

/-- A call keeps the invariant and returns what it may. -/
def Good (files : List RemoteFile) (sizes : List Nat) (outcome : Outcome) : Prop :=
  Phase files sizes outcome.1 ∧ ResultOk files sizes outcome

variable {files : List RemoteFile} {sizes : List Nat} {t : RemoteClipboardTransfer}

/-! ### Bookkeeping -/

theorem zip_concat {file : RemoteFile} (hfile : files[sizes.length]? = some file) (size : Nat) :
    files.zip (sizes ++ [size]) = files.zip sizes ++ [(file, size)] := by
  induction sizes generalizing files with
  | nil =>
    cases files with
    | nil => simp at hfile
    | cons f files => simpa using hfile
  | cons n sizes ih =>
    cases files with
    | nil => simp at hfile
    | cons f files =>
      simp only [List.cons_append, List.zip_cons_cons, List.length_cons] at hfile ⊢
      rw [ih (by simpa using hfile)]

theorem Complete.concat {done : List StagedFile} {file : RemoteFile} {size : Nat}
    {contents : List UInt8} (h : Complete files sizes done)
    (hfile : files[sizes.length]? = some file)
    (hadvertised : file.advertisedSize = none ∨ file.advertisedSize = some size)
    (hlen : contents.length = size) :
    Complete files (sizes ++ [size]) (done ++ [⟨file.relativePath, contents⟩]) := by
  refine ⟨?_, ?_⟩
  · rw [zip_concat hfile, List.map_append, List.map_append, h.staged]
    simp [hlen]
  · rw [zip_concat hfile]
    intro p hp
    rcases List.mem_append.mp hp with hp | hp
    · exact h.advertised p hp
    · rw [List.mem_singleton.mp hp]
      exact hadvertised

/-- The lengths of the staged files are the reported sizes. -/
theorem Complete.lengths {staged : List StagedFile} (h : Complete files sizes staged)
    (hle : sizes.length ≤ files.length) : staged.map (fun f => f.contents.length) = sizes := by
  have hsnd := congrArg (List.map Prod.snd) h.staged
  rw [List.map_map, List.map_map] at hsnd
  have hsizes : (files.zip sizes).map Prod.snd = sizes := List.map_snd_zip hle
  exact hsnd.trans hsizes

theorem Complete.bounded {staged : List StagedFile} (h : Complete files sizes staged)
    (hle : sizes.length ≤ files.length) (htotal : sizes.sum ≤ maxTotalTransferBytes)
    (hsingle : ∀ n ∈ sizes, n ≤ maxSingleFileBytes) : Bounded staged := by
  have hlengths := h.lengths hle
  refine ⟨by rw [hlengths]; exact htotal, fun f hf => hsingle _ ?_⟩
  rw [← hlengths]
  exact List.mem_map_of_mem hf

/-- Staged files that are complete but for the last one, which has not passed its size. -/
theorem Complete.bounded_concat {done : List StagedFile} {size : Nat} {staged : StagedFile}
    (h : Complete files sizes done) (hle : sizes.length ≤ files.length)
    (htotal : (sizes ++ [size]).sum ≤ maxTotalTransferBytes)
    (hsingle : ∀ n ∈ sizes ++ [size], n ≤ maxSingleFileBytes)
    (hlen : staged.contents.length ≤ size) : Bounded (done ++ [staged]) := by
  have hlengths := h.lengths hle
  rw [List.sum_append, List.sum_singleton] at htotal
  have hdone := h.bounded hle (by omega) fun n hn => hsingle n (List.mem_append_left _ hn)
  refine ⟨?_, fun f hf => ?_⟩
  · rw [List.map_append, List.sum_append, hlengths, List.map_singleton, List.sum_singleton]
    omega
  · rcases List.mem_append.mp hf with hf | hf
    · exact hdone.single f hf
    · rw [List.mem_singleton.mp hf]
      exact hlen.trans (hsingle size (by simp))

theorem Between.bounded (h : Between files sizes t) : Bounded t.staging.files :=
  h.complete.bounded h.length_le h.books.total h.books.single

theorem Within.bounded {size : Nat} (h : Within files sizes size t) : Bounded t.staging.files := by
  obtain ⟨file, done, contents, hfile, hadvertised, hdone, hlen, hstaged, hcontents, hout⟩ :=
    h.exists_file
  rw [hstaged]
  have hlt : sizes.length < files.length := (List.getElem?_eq_some_iff.mp hfile).1
  exact hdone.bounded_concat hlt.le h.books.total h.books.single (hcontents ▸ h.offset_le)

theorem Phase.bounded (h : Phase files sizes t) : Bounded t.staging.files := by
  cases h with
  | size between => exact between.bounded
  | range within => exact within.bounded
  | stopped bounded => exact bounded

/-- After an error nothing is pending any more. -/
theorem Good.of_error (hbounded : Bounded t.staging.files) (hpending : t.pending = none)
    (message : String) : Good files sizes (t, .error (.error message)) :=
  ⟨.stopped hbounded hpending, trivial⟩

/-! ### The requests -/

theorem Between.requestSize (h : Between files sizes t) (hlt : sizes.length < files.length)
    (streamId : UInt32) : Good files sizes (t.requestSize streamId) := by
  have hfile : t.files[t.currentFile]? = some files[sizes.length] := by
    rw [h.books.files, h.current]
    exact List.getElem?_eq_getElem hlt
  have heq : t.requestSize streamId = ({ t with pending := some ⟨streamId, .size⟩ },
      .ok (.request ⟨streamId, files[sizes.length].descriptorIndex, sizeFlag, 0, sizeRequestBytes,
        t.clipDataId⟩)) := by
    simp [RemoteClipboardTransfer.requestSize, hfile]
  rw [heq]
  refine ⟨.size ⟨⟨h.books.files, h.books.accounted, h.books.total, h.books.single⟩, h.current,
    h.complete, h.length_le⟩ hlt rfl, fun hflags => ?_⟩
  have hne : sizeFlag ≠ rangeFlag := by decide
  exact absurd hflags hne

theorem Within.requestRange {size : Nat} (h : Within files sizes size t) (hlt : t.offset < size)
    (streamId : UInt32) : Good files (sizes ++ [size]) (t.requestRange streamId) := by
  obtain ⟨file, done, contents, hfile, hadvertised, hdone, hlen, hstaged, hcontents, hout⟩ :=
    h.exists_file
  have hcurrent : t.files[t.currentFile]? = some file := by
    rw [h.books.files, h.current]
    exact hfile
  have hamount : min (size - t.offset) remoteFileChunkBytes < 2 ^ 32 :=
    lt_of_le_of_lt (Nat.min_le_right _ _) (by decide)
  have heq : t.requestRange streamId
      = ({ t with
          pending := some ⟨streamId, .range (min (size - t.offset) remoteFileChunkBytes)⟩ },
        .ok (.request ⟨streamId, file.descriptorIndex, rangeFlag, t.offset,
          min (size - t.offset) remoteFileChunkBytes, t.clipDataId⟩)) := by
    simp only [RemoteClipboardTransfer.requestRange, h.expected, Option.getD_some,
      if_neg hlt.not_gt, if_pos hamount, hcurrent]
  rw [heq]
  -- the request begins behind the staged bytes, and asks for no more than is missing
  refine ⟨.range ⟨⟨h.books.files, h.books.accounted, h.books.total, h.books.single⟩, h.current,
    h.expected, ⟨file, done, contents, hfile, hadvertised, hdone, hlen, hstaged, hcontents, hout⟩,
    h.offset_le⟩ hlt rfl, fun _ => ⟨file, ⟨file.relativePath, contents⟩, size, ?_⟩⟩
  have hchunk : 0 < remoteFileChunkBytes := by decide
  refine ⟨?_, ?_, ?_, rfl, rfl, hcontents.symm, ?_, ?_⟩
  · rw [h.current]; exact hfile
  · rw [h.current, hstaged, ← hlen]; simp
  · rw [h.current]; simp
  · simp only
    omega
  · simp only
    omega

/-! ### Finishing a file -/

theorem Between.nextOrReady (h : Between files sizes t) (hpending : t.pending = none)
    (streamId : UInt32) :
    Good files sizes (if t.currentFile = t.files.length then t.complete
      else t.requestSize streamId) := by
  rw [h.current, h.books.files]
  split
  · next hlen =>
    exact ⟨.stopped h.bounded hpending, hlen, h.complete⟩
  · next hlen => exact h.requestSize (lt_of_le_of_ne h.length_le hlen) streamId

/-- A file whose last byte was staged is finished. -/
theorem Within.finishFile {size : Nat} (h : Within files sizes size t) (hoffset : t.offset = size)
    (hpending : t.pending = none) (fs : StagingFs) (streamId : UInt32) :
    Good files (sizes ++ [size]) (t.finishFile fs streamId) := by
  obtain ⟨file, done, contents, hfile, hadvertised, hdone, hlen, hstaged, hcontents, hout⟩ :=
    h.exists_file
  have hlt : sizes.length < files.length := (List.getElem?_eq_some_iff.mp hfile).1
  simp only [RemoteClipboardTransfer.finishFile, hout]
  split
  · exact Good.of_error (t := { t with outputFile := none }) h.bounded hpending _
  · -- the file is complete, so one more size is settled
    refine Between.nextOrReady (t := { t with
      outputFile := none, currentFile := t.currentFile + 1, expectedSize := none, offset := 0 })
      ⟨⟨h.books.files, h.books.accounted, h.books.total, h.books.single⟩, ?_, ?_, ?_⟩ hpending
      streamId
    · simp [h.current]
    · change Complete files (sizes ++ [size]) t.staging.files
      rw [hstaged]
      exact hdone.concat hfile hadvertised (hcontents.trans hoffset)
    · simpa using Nat.succ_le_of_lt hlt

/-! ### Accepting a response -/

/-- `account_size` accepts a size that both limits allow, and else only touches the account. -/
theorem accountSize_cases (t : RemoteClipboardTransfer) (size : Nat) :
    (t.accountSize size = ({ t with accountedBytes := t.accountedBytes + size }, .ok ()) ∧
      size ≤ maxSingleFileBytes ∧ t.accountedBytes + size ≤ maxTotalTransferBytes) ∨
    ∃ bytes message, t.accountSize size
      = ({ t with accountedBytes := bytes }, .error (.error message)) := by
  unfold accountSize
  by_cases hsingle : size ≤ maxSingleFileBytes
  · rw [if_pos hsingle]
    by_cases hadd : t.accountedBytes + size < 2 ^ 64
    · rw [if_pos hadd]
      simp only
      by_cases htotal : t.accountedBytes + size ≤ maxTotalTransferBytes
      · rw [if_pos htotal]
        exact .inl ⟨rfl, hsingle, htotal⟩
      · rw [if_neg htotal]
        exact .inr ⟨_, _, rfl⟩
    · rw [if_neg hadd]
      exact .inr ⟨t.accountedBytes, _, rfl⟩
  · rw [if_neg hsingle]
    exact .inr ⟨t.accountedBytes, _, rfl⟩

theorem Between.acceptSize (h : Between files sizes t) (hlt : sizes.length < files.length)
    (hpending : t.pending = none) (pdu : Pdu ρ) (fs : StagingFs) (response : ρ)
    (streamId : UInt32) :
    Good files (sizes ++ (pdu.dataAsSize response).toList)
      (t.acceptSize pdu fs response streamId) := by
  unfold RemoteClipboardTransfer.acceptSize
  cases hsize : pdu.dataAsSize response with
  | none => exact .of_error h.bounded hpending _
  | some size =>
    have hfile : files[sizes.length]? = some files[sizes.length] := List.getElem?_eq_getElem hlt
    have hcurrent : t.files[t.currentFile]? = some files[sizes.length] := by
      rw [h.books.files, h.current]
      exact hfile
    generalize files[sizes.length] = file at hfile hcurrent
    simp only [hcurrent]
    by_cases hadvertised : file.advertisedSize = none ∨ file.advertisedSize = some size
    · rw [if_pos hadvertised]
      rcases accountSize_cases t size with ⟨haccount, hsingle, htotal⟩ | ⟨bytes, message, haccount⟩
      · simp only [haccount]
        cases fs.createNew t.staging file.relativePath with
        | error e =>
          exact Good.of_error (t := { t with accountedBytes := t.accountedBytes + size }) h.bounded
            hpending _
        | ok _ =>
          -- the new file is staged empty, behind the complete ones
          have hwithin : Within files sizes size { t with
              accountedBytes := t.accountedBytes + size
              staging := { t.staging with
                files := t.staging.files ++ [⟨file.relativePath, []⟩] }
              outputFile := some t.staging.files.length
              expectedSize := some size
              offset := 0 } := by
            refine ⟨⟨h.books.files, ?_, ?_, ?_⟩, h.current, rfl, ?_, Nat.zero_le _⟩
            · simp [h.books.accounted]
            · rw [h.books.accounted] at htotal
              simpa using htotal
            · intro n hn
              rcases List.mem_append.mp hn with hn | hn
              · exact h.books.single n hn
              · rw [List.mem_singleton.mp hn]
                exact hsingle
            · have hlen := congrArg List.length (h.complete.lengths h.length_le)
              rw [List.length_map] at hlen
              exact ⟨file, t.staging.files, [], hfile, hadvertised, h.complete, hlen, rfl, rfl, rfl⟩
          simp only
          split
          · next hzero => exact hwithin.finishFile hzero.symm hpending fs streamId
          · next hne => exact hwithin.requestRange (Nat.pos_of_ne_zero hne) streamId
      · simp only [haccount]
        exact Good.of_error (t := { t with accountedBytes := bytes }) h.bounded hpending _
    · rw [if_neg hadvertised]
      exact .of_error h.bounded hpending _

theorem modify_concat {α : Type} (xs : List α) (x : α) (f : α → α) :
    (xs ++ [x]).modify xs.length f = xs ++ [f x] := by
  induction xs with
  | nil => rfl
  | cons y xs ih => simpa using ih

/-- Writing to the file being received appends to its contents. -/
theorem append_last {staging : Staging} {done : List StagedFile} {path : List String}
    {contents : List UInt8} (h : staging.files = done ++ [⟨path, contents⟩]) (data : List UInt8) :
    (staging.append done.length data).files = done ++ [⟨path, contents ++ data⟩] := by
  simp only [Staging.append, h]
  exact modify_concat ..

theorem Within.acceptRange {size : Nat} (h : Within files sizes size t)
    (hpending : t.pending = none) (fs : StagingFs) (data : List UInt8) (requested : Nat)
    (streamId : UInt32) :
    Good files (sizes ++ [size]) (t.acceptRange fs data requested streamId) := by
  obtain ⟨file, done, contents, hfile, hadvertised, hdone, hlen, hstaged, hcontents, hout⟩ :=
    h.exists_file
  have hlt : sizes.length < files.length := (List.getElem?_eq_some_iff.mp hfile).1
  simp only [RemoteClipboardTransfer.acceptRange, h.expected, hout]
  split
  · exact .of_error h.bounded hpending _
  split
  · exact .of_error h.bounded hpending _
  split
  · exact .of_error h.bounded hpending _
  split
  · exact .of_error h.bounded hpending _
  next hfits =>
  have hfits : t.offset + data.length ≤ size := Nat.le_of_not_lt hfits
  split
  · next written message hwrite =>
    -- a part of the data may have been written before the error
    refine Good.of_error (t := { t with
      staging := t.staging.append done.length (data.take written)
      expectedSize := some size
      outputFile := some done.length }) ?_ hpending _
    change Bounded (t.staging.append done.length (data.take written)).files
    rw [append_last hstaged]
    refine hdone.bounded_concat hlt.le h.books.total h.books.single ?_
    simp only [List.length_append, List.length_take, hcontents]
    omega
  · have hwithin : Within files sizes size { t with
        staging := t.staging.append done.length data
        expectedSize := some size
        offset := t.offset + data.length
        outputFile := some done.length } := by
      refine ⟨⟨h.books.files, h.books.accounted, h.books.total, h.books.single⟩, h.current, rfl,
        ⟨file, done, contents ++ data, hfile, hadvertised, hdone, hlen, ?_, ?_, rfl⟩, hfits⟩
      · exact append_last hstaged data
      · simp [hcontents]
    split
    · next heq => exact hwithin.finishFile heq hpending fs streamId
    · next hne => exact hwithin.requestRange (lt_of_le_of_ne hfits hne) streamId

/-- A response that does not answer the pending request changes nothing. -/
theorem advance_of_not_answers {pdu : Pdu ρ} {response : ρ} (h : ¬ Answers pdu t response)
    (fs : StagingFs) (streamId : UInt32) :
    t.advance pdu fs response streamId = (t, .ok .ignore) := by
  unfold RemoteClipboardTransfer.advance
  cases hpending : t.pending with
  | none => rfl
  | some pending =>
    have hne : pending.streamId ≠ pdu.streamId response := by
      intro heq
      exact h (by simp [Answers, hpending, heq])
    simp [hne]

/-- A response that answers the pending request is taken in with nothing pending. -/
theorem advance_of_answers {pdu : Pdu ρ} {response : ρ} {streamId : UInt32}
    {kind : PendingRemoteRequestKind} (hpending : t.pending = some ⟨streamId, kind⟩)
    (h : Answers pdu t response) (fs : StagingFs) (nextStreamId : UInt32) :
    t.advance pdu fs response nextStreamId =
      if pdu.isError response then
        ({ t with pending := none }, .error (.error "remote clipboard file request failed"))
      else match kind with
        | .size => acceptSize pdu fs { t with pending := none } response nextStreamId
        | .range requested =>
          acceptRange fs { t with pending := none } (pdu.data response) requested nextStreamId := by
  have heq : streamId = pdu.streamId response := by simpa [Answers, hpending] using h
  cases kind <;> simp [RemoteClipboardTransfer.advance, hpending, heq]

/-- **One step.** Whatever arrives, a transfer in a phase moves to a phase and returns what it
may. -/
theorem Phase.answer (h : Phase files sizes t) (pdu : Pdu ρ) (reply : Reply ρ) :
    Good files (sizes ++ reported pdu t reply.response) (Clipboard.answer pdu t reply) := by
  obtain ⟨response, nextStreamId, fs⟩ := reply
  simp only [Clipboard.answer]
  by_cases hanswers : Answers pdu t response
  · -- only a transfer with a pending request can be answered
    have hbounded := h.bounded
    cases h with
    | stopped bounded hpending => exact absurd hanswers (by simp [Answers, hpending])
    | size between hlt hpending =>
      rw [advance_of_answers hpending hanswers]
      by_cases herror : pdu.isError response = true
      · rw [if_pos herror]
        exact Good.of_error (t := { t with pending := none }) hbounded rfl _
      · rw [if_neg herror]
        have hreported : reported pdu t response = (pdu.dataAsSize response).toList := by
          simp [reported, hanswers, hpending, herror]
        rw [hreported]
        exact Between.acceptSize (t := { t with pending := none })
          ⟨⟨between.books.files, between.books.accounted, between.books.total,
            between.books.single⟩, between.current, between.complete, between.length_le⟩ hlt rfl
          pdu fs response nextStreamId
    | range within hlt hpending =>
      rw [advance_of_answers hpending hanswers]
      have hreported : reported pdu t response = [] := by simp [reported, hpending]
      rw [hreported, List.append_nil]
      by_cases herror : pdu.isError response = true
      · rw [if_pos herror]
        exact Good.of_error (t := { t with pending := none }) hbounded rfl _
      · rw [if_neg herror]
        exact Within.acceptRange (t := { t with pending := none })
          ⟨⟨within.books.files, within.books.accounted, within.books.total, within.books.single⟩,
            within.current, within.expected, within.exists_file, within.offset_le⟩ rfl
          fs (pdu.data response) _ nextStreamId
  · rw [advance_of_not_answers hanswers, reported, if_neg fun hr => hanswers hr.1, List.append_nil]
    exact ⟨h, trivial⟩

/-! ### Whole transfers -/

theorem createDirectories_files {fs : StagingFs} {directories : List (List String)}
    {staging staging' : Staging} (h : createDirectories fs staging directories = .ok staging') :
    staging'.files = staging.files := by
  induction directories generalizing staging with
  | nil => rw [← Except.ok.inj h]
  | cons directory directories ih =>
    simp only [createDirectories] at h
    split at h
    · nomatch h
    · have hrest := ih h
      exact hrest

/-- A transfer that was just created has staged nothing. -/
theorem Between.of_create {fs : StagingFs} {layout : RemoteClipboardLayout}
    {settings : RemoteTransferSettings} (h : create fs layout settings = .ok t) :
    Between layout.files [] t ∧ t.pending = none := by
  obtain ⟨staging, hstaging, hok⟩ := bind_eq_ok.mp h
  have hfiles : staging.files = [] := createDirectories_files hstaging
  obtain rfl := Except.ok.inj hok
  refine ⟨⟨⟨rfl, rfl, Nat.zero_le _, by simp⟩, rfl, ⟨?_, by simp⟩, Nat.zero_le _⟩, rfl⟩
  simp [hfiles]

/-- `start` asks for the first file, or completes an empty transfer. -/
theorem start_eq (h : t.currentFile = 0) (streamId : UInt32) :
    t.start streamId
      = if t.currentFile = t.files.length then t.complete else t.requestSize streamId := by
  rw [RemoteClipboardTransfer.start, h]
  congr 1
  simp [eq_comm]

theorem start_good {fs : StagingFs} {layout : RemoteClipboardLayout}
    {settings : RemoteTransferSettings} (h : create fs layout settings = .ok t)
    (streamId : UInt32) : Good layout.files [] (t.start streamId) := by
  obtain ⟨hbetween, hpending⟩ := Between.of_create h
  rw [start_eq hbetween.current]
  exact hbetween.nextOrReady hpending streamId

theorem afterReplies_phase (h : Phase files [] t) (pdu : Pdu ρ) (replies : List (Reply ρ)) :
    Phase files (afterReplies pdu t replies).2 (afterReplies pdu t replies).1 :=
  Machine.run_history (H := fun _ sizes t => Phase files sizes t) (P := fun _ => True)
    (fun _ _ _ => trivial) (fun _ _ _ reply h _ => (h.answer pdu reply).1) h trivial

/-- **The download is safe against any peer.** After `start` and any replies whatever, with the
sizes they reported: the staged bytes are within the limits, and for every further reply

* a response that does not answer the pending request changes nothing and is ignored;
* the call does not panic, a range request starts where the staged bytes of its file end and does
  not go past the size reported for it, and `Ready` means that every file of the layout is staged
  with exactly as many bytes as its reported size, which is the advertised one if there was one. -/
theorem transfer_safe (pdu : Pdu ρ) (fs : StagingFs) (layout : RemoteClipboardLayout)
    (settings : RemoteTransferSettings) (t : RemoteClipboardTransfer)
    (hcreate : create fs layout settings = .ok t) (streamId : UInt32) :
    ResultOk layout.files [] (t.start streamId) ∧
      ∀ replies : List (Reply ρ),
        let reached := afterReplies pdu (t.start streamId).1 replies
        Bounded reached.1.staging.files ∧
          ∀ reply : Reply ρ,
            (¬ Answers pdu reached.1 reply.response →
              answer pdu reached.1 reply = (reached.1, .ok .ignore)) ∧
            ResultOk layout.files (reached.2 ++ reported pdu reached.1 reply.response)
              (answer pdu reached.1 reply) := by
  obtain ⟨hphase, hresult⟩ := start_good hcreate streamId
  refine ⟨hresult, fun replies => ?_⟩
  have hreached := afterReplies_phase hphase pdu replies
  exact ⟨hreached.bounded, fun reply =>
    ⟨fun h => advance_of_not_answers h _ _, (hreached.answer pdu reply).2⟩⟩

/-! ### A run -/

/-- A response as it is on the wire. -/
structure WireResponse where
  streamId : UInt32
  isError : Bool
  data : List UInt8
  deriving DecidableEq, Repr

/-- The eight bytes of a size, the lowest first. -/
def sizeBytes (size : Nat) : List UInt8 :=
  (List.range 8).map fun i => UInt8.ofNat (size / 256 ^ i)

/-- The size eight bytes encode. -/
def sizeOfBytes (bytes : List UInt8) : Option Nat :=
  if bytes.length = 8 then some (bytes.foldr (fun b size => b.toNat + 256 * size) 0) else none

/-- Responses in their wire form. -/
def wirePdu : Pdu WireResponse where
  newSizeResponse streamId size := ⟨streamId, false, sizeBytes size⟩
  newDataResponse streamId data := ⟨streamId, false, data⟩
  newError streamId := ⟨streamId, true, []⟩
  streamId := WireResponse.streamId
  isError := WireResponse.isError
  data := WireResponse.data
  dataAsSize response := sizeOfBytes response.data
  validateFlags flags :=
    ensure (flags = sizeFlag ∨ flags = rangeFlag) "file contents flags are invalid"

/-- A file system on which everything succeeds. -/
def openFs : StagingFs where
  createDir _ _ := .ok ()
  createNew _ _ := .ok ()
  writeAll _ _ _ := .ok ()
  flush _ _ := .ok ()

/-- One file of three bytes. -/
def oneFile : RemoteClipboardLayout := ⟨[], [⟨0, ["a"], some 3⟩], ["a"]⟩

/-- The size is answered, a stale response is ignored, and the contents complete the transfer. -/
theorem transfer_safe_oneFile :
    ∃ t, create openFs oneFile ⟨1, "/staging", none⟩ = .ok t ∧
      let reached := (afterReplies wirePdu (t.start 7).1
        [⟨wirePdu.newSizeResponse 7 3, 8, openFs⟩, ⟨wirePdu.newDataResponse 7 [9], 9, openFs⟩]).1
      let last := answer wirePdu reached ⟨wirePdu.newDataResponse 8 [1, 2, 3], 9, openFs⟩
      last.2 = .ok (.ready ["/staging/a"]) ∧ Complete oneFile.files [3] last.1.staging.files := by
  refine ⟨_, rfl, by decide +kernel, ?_⟩
  have hsafe := ((transfer_safe wirePdu openFs oneFile ⟨1, "/staging", none⟩ _ rfl 7).2
    [⟨wirePdu.newSizeResponse 7 3, 8, openFs⟩, ⟨wirePdu.newDataResponse 7 [9], 9, openFs⟩]).2
    ⟨wirePdu.newDataResponse 8 [1, 2, 3], 9, openFs⟩
  exact hsafe.2.2

end Clipboard
end Rdp
end Navop
