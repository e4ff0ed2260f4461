import NavopExtensions.Lib.Chunks
import NavopExtensions.Lib.Finmaps
import NavopExtensions.Lib.Machine
import NavopExtensions.Lib.Saturating

/-!
# Blobs of the providers

`mqtt/src/state/blob.rs` and `rocketmq/src/state.rs`: a large result is stored as a blob and read in
chunks. The two tables differ in the names of their blobs. Base64 and the ids of `Uuid::new_v4` are
parameters; an id is drawn by the action that stores a blob, and no id is drawn twice in a run.

`blobs_stream` says that what is read of a blob are its chunks, and marked as done where they reach its
end; that a read of a blob which is in the table succeeds, with the bytes that come next; and that a blob
which was stored is in the table until it is closed. The run keeps `Kept`, in which the reads of each
blob are followed to its position in the table.
-/

namespace Navop
namespace Composite

open Chunks Saturating

/-- The providers with a table of blobs. -/
inductive Provider where
  | mqtt
  | rocketmq
  deriving DecidableEq, Repr

/-- What the id of a blob begins with. -/
def Provider.label : Provider → String
  | mqtt => "mqtt-blob-"
  | rocketmq => "rocketmq-blob-"

/-- `MAX_TOTAL_BLOB_BYTES`: what all the blobs of a provider may hold together. -/
def maxTotalBlobBytes : ℕ := 32 * 1024 * 1024

/-- `ProviderBlob`: the bytes, the resource that they belong to, and how far they have been read. -/
structure ProviderBlob where
  resourceId : String
  data : List UInt8
  offset : ℕ
  deriving DecidableEq, Repr

/-- `ProviderBlobTable`, and `blobs` of `ProviderState`: the blobs by their ids. -/
abbrev ProviderBlobTable := Finmap fun _ : String => ProviderBlob

/-- `total_bytes`, and `total_blob_bytes`: the lengths of all blobs added up. -/
def totalBytes (blobs : ProviderBlobTable) : ℕ := blobs.total fun blob => blob.data.length

/-- `BlobReadResult`: the encoded bytes, their number, and whether the blob ends with them. -/
structure BlobReadResult where
  data : String
  bytesRead : UInt32
  done : Bool
  deriving DecidableEq, Repr

/-- `ProtocolError`, at the code `RESOURCE_CLOSED`. -/
inductive ProtocolError where
  | resourceClosed (message : String)
  deriving DecidableEq, Repr

section Operations

variable (encode : List UInt8 → String) (provider : Provider)

/-- `store`, and `store_blob`: a blob that does not fit into the budget any more is refused, and the table
stays. -/
def store (uuid : String) (blobs : ProviderBlobTable) (resourceId : String) (data : List UInt8) :
    Option String × ProviderBlobTable :=
  if maxTotalBlobBytes < data.length
      ∨ maxTotalBlobBytes < saturatingAdd (totalBytes blobs) data.length then (none, blobs)
  else
    let blobId := provider.label ++ uuid
    (some blobId, blobs.insert blobId ⟨resourceId, data, 0⟩)

/-- A read of the blob that is found. -/
def ProviderBlob.read (blob : ProviderBlob) (maxBytes : ℕ) : BlobReadResult × ProviderBlob :=
  let start := min blob.offset blob.data.length
  let stop := min (saturatingAdd start maxBytes) blob.data.length
  let bytesRead := UInt32.ofNat (stop - start)
  let done := stop == blob.data.length && decide (0 < bytesRead)
  (⟨encode ((blob.data.drop start).take (stop - start)), bytesRead, done⟩, { blob with offset := stop })

/-- `read`, and `read_blob`: the next bytes of the blob, which moves on behind them. -/
def read (blobs : ProviderBlobTable) (blobId : String) (maxBytes : ℕ) :
    Except ProtocolError BlobReadResult × ProviderBlobTable :=
  match blobs.lookup blobId with
  | none => (.error (.resourceClosed "blob is closed or unknown"), blobs)
  | some blob =>
    let (result, blob) := blob.read encode maxBytes
    (.ok result, blobs.insert blobId blob)

/-- `close`, and `close_blob`: the blob goes, if it is there. -/
def close (blobs : ProviderBlobTable) (blobId : String) : ProviderBlobTable := blobs.erase blobId

/-- `close_for_resource`, and `close_blobs_for_resource`: all blobs of the resource go. -/
def closeForResource (blobs : ProviderBlobTable) (resourceId : String) : ProviderBlobTable :=
  blobs.retain fun _ blob => blob.resourceId != resourceId

/-! ### Runs -/

/-- What is done with a table. -/
inductive Action where
  | store (resourceId : String) (data : List UInt8) (uuid : String)
  | read (blobId : String) (maxBytes : ℕ)
  | close (blobId : String)
  | closeForResource (resourceId : String)

/-- What comes of it. -/
inductive Output where
  | stored (blobId : String) (data : List UInt8)
  | refused
  | read (blobId : String) (result : BlobReadResult)
  | failed (error : ProtocolError)

/-- One action on the table, with what it hands out. -/
def step (blobs : ProviderBlobTable) : Action → ProviderBlobTable × List Output
  | .store resourceId data uuid =>
    match store provider uuid blobs resourceId data with
    | (some blobId, blobs) => (blobs, [.stored blobId data])
    | (none, blobs) => (blobs, [.refused])
  | .read blobId maxBytes =>
    match read encode blobs blobId maxBytes with
    | (.ok result, blobs) => (blobs, [.read blobId result])
    | (.error error, blobs) => (blobs, [.failed error])
  | .close blobId => (close blobs blobId, [])
  | .closeForResource resourceId => (closeForResource blobs resourceId, [])

/-- The reads of a blob, in their order. -/
def readsOf (blobId : String) (outputs : List Output) : List BlobReadResult :=
  outputs.filterMap fun output =>
    match output with
    | .read readId result => if readId = blobId then some result else none
    | _ => none

/-- The id that an action draws. -/
def Action.uuid? : Action → Option String
  | .store _ _ uuid => some uuid
  | _ => none

/-- No id is drawn twice, and every read asks for something. -/
structure Admissible (actions : List Action) : Prop where
  nodup : (actions.filterMap Action.uuid?).Nodup
  positive : ∀ blobId maxBytes, .read blobId maxBytes ∈ actions → 1 ≤ maxBytes

/-- The action works on this blob. -/
def Action.Concerns (blobs : ProviderBlobTable) (blobId : String) : Action → Prop
  | .store _ _ uuid => provider.label ++ uuid = blobId
  | .read readId _ => readId = blobId
  | .close closed => closed = blobId
  | .closeForResource resourceId => ∃ blob, blobs.lookup blobId = some blob ∧ blob.resourceId = resourceId

/-- The action takes this blob out of the table: the blob is closed, or the resource that it belongs
to. -/
def Action.Removes (blobs : ProviderBlobTable) (blobId : String) : Action → Prop
  | .store _ _ _ => False
  | .read _ _ => False
  | .close closed => closed = blobId
  | .closeForResource resourceId => ∃ blob, blobs.lookup blobId = some blob ∧ blob.resourceId = resourceId

/-- The answer to a read that finds `taken` of the data delivered: at most so many of the bytes that come
next, marked as done if there are some and they are the last ones. -/
def nextRead (data : List UInt8) (taken maxBytes : ℕ) : BlobReadResult :=
  let chunk := (data.drop taken).take maxBytes
  ⟨encode chunk, .ofNat chunk.length, decide (chunk ≠ [] ∧ data.take taken ++ chunk = data)⟩

/-- What was read of some data: the texts and lengths of chunks that are the beginning of the data. A
read is done where the chunk has something and reaches the end, which happens once if the data are not
empty and everything is read. With as many reads as there are bytes, everything is. -/
structure Streamed (data : List UInt8) (reads : List BlobReadResult) (chunks : List (List UInt8)) :
    Prop where
  texts : reads.map (·.data) = chunks.map encode
  lengths : reads.map (·.bytesRead.toNat) = chunks.map List.length
  beginning : chunks.flatten <+: data
  done : reads.map (·.done) = lasts data chunks
  done_once : (reads.map (·.done)).count true = if data ≠ [] ∧ chunks.flatten = data then 1 else 0
  complete : data.length ≤ reads.length → chunks.flatten = data

end Operations

/-! ### One read -/

section Reads

variable {encode : List UInt8 → String} {provider : Provider} {blobs : ProviderBlobTable}
  {data : List UInt8} {reads : List BlobReadResult} {chunks : List (List UInt8)}

/-- What a read of a blob inside its budget returns, and the position after it. -/
theorem read_blob {blob : ProviderBlob} (hoffset : blob.offset ≤ blob.data.length)
    (hlength : blob.data.length ≤ maxTotalBlobBytes) (maxBytes : ℕ) :
    blob.read encode maxBytes
      = (nextRead encode blob.data blob.offset maxBytes,
        { blob with offset := min (blob.offset + maxBytes) blob.data.length }) := by
  have hlt : blob.data.length < 2 ^ 32 := hlength.trans_lt (by decide)
  have hstart : min blob.offset blob.data.length = blob.offset := Nat.min_eq_left hoffset
  -- the sum saturates only beyond the end of the blob
  have hstop : min (saturatingAdd blob.offset maxBytes) blob.data.length
      = min (blob.offset + maxBytes) blob.data.length := by
    unfold saturatingAdd
    omega
  have hchunk : ((blob.data.drop blob.offset).take maxBytes).length
      = min (blob.offset + maxBytes) blob.data.length - blob.offset := by
    rw [List.length_take, List.length_drop]
    omega
  have htake : (blob.data.drop blob.offset).take
        (min (blob.offset + maxBytes) blob.data.length - blob.offset)
      = (blob.data.drop blob.offset).take maxBytes := by
    rw [← hchunk, List.length_take, ← List.take_eq_take_min]
  -- the flag says that the chunk is not empty and the last one; its length is below 2^32, so that it is
  -- not zero by wrapping
  have hdone : (min (blob.offset + maxBytes) blob.data.length == blob.data.length
        && decide (0 < UInt32.ofNat (min (blob.offset + maxBytes) blob.data.length - blob.offset)))
      = decide ((blob.data.drop blob.offset).take maxBytes ≠ [] ∧
        blob.data.take blob.offset ++ (blob.data.drop blob.offset).take maxBytes = blob.data) := by
    have hpos : 0 < UInt32.ofNat (min (blob.offset + maxBytes) blob.data.length - blob.offset) ↔
        (blob.data.drop blob.offset).take maxBytes ≠ [] := by
      rw [← List.length_pos_iff, hchunk, UInt32.lt_iff_toNat_lt,
        UInt32.toNat_ofNat_of_lt' (show _ < 2 ^ 32 by omega)]
      rfl
    have hend : min (blob.offset + maxBytes) blob.data.length = blob.data.length ↔
        blob.data.take blob.offset ++ (blob.data.drop blob.offset).take maxBytes = blob.data := by
      rw [← List.take_add, List.take_eq_self_iff]
      omega
    rw [Bool.eq_iff_iff, Bool.and_eq_true, beq_iff_eq, decide_eq_true_iff, decide_eq_true_iff, hpos,
      hend, and_comm]
  simp only [ProviderBlob.read, nextRead, hstart, hstop, htake, hdone, hchunk]

theorem readsOf_append (blobId : String) (outputs outputs' : List Output) :
    readsOf blobId (outputs ++ outputs') = readsOf blobId outputs ++ readsOf blobId outputs' :=
  List.filterMap_append

theorem readsOf_read (blobId readId : String) (result : BlobReadResult) :
    readsOf blobId [.read readId result] = if readId = blobId then [result] else [] := by
  unfold readsOf
  rw [List.filterMap_cons, List.filterMap_nil]
  by_cases h : readId = blobId
  · simp only [if_pos h]
  · simp only [if_neg h]

/-! ### What a run keeps -/

/-- The reads are those of the chunks. -/
structure Matches (encode : List UInt8 → String) (data : List UInt8) (reads : List BlobReadResult)
    (chunks : List (List UInt8)) : Prop where
  texts : reads.map (·.data) = chunks.map encode
  lengths : reads.map (·.bytesRead.toNat) = chunks.map List.length
  done : reads.map (·.done) = lasts data chunks

/-- The table is inside its budget, and the reads of every blob that was stored are chunks of its
data; if it is still there, its position is behind them. -/
structure Kept (encode : List UInt8 → String) (provider : Provider) (actions : List Action)
    (outputs : List Output) (blobs : ProviderBlobTable) : Prop where
  total_le : totalBytes blobs ≤ maxTotalBlobBytes
  drawn : ∀ blobId data, .stored blobId data ∈ outputs →
    ∃ uuid ∈ actions.filterMap Action.uuid?, provider.label ++ uuid = blobId
  known : ∀ blobId blob, blobs.lookup blobId = some blob → .stored blobId blob.data ∈ outputs
  unread : ∀ blobId, (∀ data, .stored blobId data ∉ outputs) → readsOf blobId outputs = []
  followed : ∀ blobId data, .stored blobId data ∈ outputs →
    ∃ chunks offset, Delivered data chunks offset ∧ Matches encode data (readsOf blobId outputs) chunks ∧
      ∀ blob, blobs.lookup blobId = some blob → blob.data = data ∧ blob.offset = offset

variable {actions : List Action} {outputs : List Output} {action : Action}

theorem kept_nil : Kept encode provider [] [] ∅ where
  total_le := Nat.zero_le _
  drawn _ _ h := absurd h List.not_mem_nil
  known _ _ h := absurd h (by simp)
  unread _ _ := rfl
  followed _ _ h := absurd h List.not_mem_nil

/-- An action that at most takes blobs away. -/
theorem Kept.quiet (h : Kept encode provider actions outputs blobs) {blobs' : ProviderBlobTable}
    {new : List Output} (htotal : totalBytes blobs' ≤ totalBytes blobs)
    (hlookup : ∀ blobId blob, blobs'.lookup blobId = some blob → blobs.lookup blobId = some blob)
    (hstored : ∀ blobId data, .stored blobId data ∉ new) (hreads : ∀ blobId, readsOf blobId new = []) :
    Kept encode provider (actions ++ [action]) (outputs ++ new) blobs' where
  total_le := htotal.trans h.total_le
  drawn blobId data hmem := by
    obtain ⟨uuid, huuid, hid⟩ := h.drawn blobId data
      ((List.mem_append.1 hmem).resolve_right (hstored blobId data))
    exact ⟨uuid, List.filterMap_append ▸ List.mem_append_left _ huuid, hid⟩
  known blobId blob hblob := List.mem_append_left _ (h.known blobId blob (hlookup blobId blob hblob))
  unread blobId hnever := by
    rw [readsOf_append, hreads, List.append_nil]
    exact h.unread blobId fun data hmem => hnever data (List.mem_append_left _ hmem)
  followed blobId data hmem := by
    obtain ⟨chunks, offset, hdelivered, hmatches, hposition⟩ := h.followed blobId data
      ((List.mem_append.1 hmem).resolve_right (hstored blobId data))
    refine ⟨chunks, offset, hdelivered, ?_, fun blob hblob => hposition blob (hlookup blobId blob hblob)⟩
    rwa [readsOf_append, hreads, List.append_nil]

/-- A blob is stored under an id that was not drawn before. -/
theorem Kept.stored (h : Kept encode provider actions outputs blobs) {resourceId uuid : String}
    {data : List UInt8} (hnew : uuid ∉ actions.filterMap Action.uuid?)
    (htotal : data.length + totalBytes blobs ≤ maxTotalBlobBytes) :
    Kept encode provider (actions ++ [.store resourceId data uuid])
      (outputs ++ [.stored (provider.label ++ uuid) data])
      (blobs.insert (provider.label ++ uuid) ⟨resourceId, data, 0⟩) := by
  -- the uuid is new, so that nothing was stored under the id before
  have hnever : ∀ data', .stored (provider.label ++ uuid) data' ∉ outputs := by
    intro data' hmem
    obtain ⟨uuid', huuid', hid⟩ := h.drawn _ data' hmem
    have hsame : uuid' = uuid := String.append_right_inj _ |>.1 hid
    exact hnew (hsame ▸ huuid')
  have hfresh : blobs.lookup (provider.label ++ uuid) = none := by
    cases hlookup : blobs.lookup (provider.label ++ uuid) with
    | none => rfl
    | some blob => exact absurd (h.known _ blob hlookup) (hnever blob.data)
  have hreads (blobId : String) : readsOf blobId
      (outputs ++ [.stored (provider.label ++ uuid) data]) = readsOf blobId outputs := by
    rw [readsOf_append]
    exact List.append_nil _
  have hmem {blobId : String} {data' : List UInt8} :
      .stored blobId data' ∈ outputs ++ [.stored (provider.label ++ uuid) data] ↔
        .stored blobId data' ∈ outputs ∨ blobId = provider.label ++ uuid ∧ data' = data := by
    rw [List.mem_append, List.mem_singleton, Output.stored.injEq]
  -- the clauses of the invariant: the total, ids, blobs, reads before storing, reads after it
  refine ⟨?_, fun blobId data' hstored => ?_, fun blobId blob hblob => ?_, fun blobId hnone => ?_,
    fun blobId data' hstored => ?_⟩
  · rw [totalBytes, Finmap.total_insert_of_notMem _ (Finmap.lookup_eq_none.1 hfresh)]
    exact htotal
  · rw [List.filterMap_append]
    rcases hmem.1 hstored with hold | ⟨rfl, -⟩
    · obtain ⟨uuid', huuid', hid⟩ := h.drawn blobId data' hold
      exact ⟨uuid', List.mem_append_left _ huuid', hid⟩
    · exact ⟨uuid, List.mem_append_right _ List.mem_cons_self, rfl⟩
  · by_cases hid : blobId = provider.label ++ uuid
    · subst hid
      rw [Finmap.lookup_insert, Option.some.injEq] at hblob
      exact hmem.2 (.inr ⟨rfl, hblob ▸ rfl⟩)
    · rw [Finmap.lookup_insert_of_ne _ hid] at hblob
      exact hmem.2 (.inl (h.known blobId blob hblob))
  · rw [hreads]
    exact h.unread blobId fun data' hold => hnone data' (hmem.2 (.inl hold))
  · rw [hreads]
    rcases hmem.1 hstored with hold | ⟨rfl, rfl⟩
    · obtain ⟨chunks, offset, hdelivered, hmatches, hposition⟩ := h.followed blobId data' hold
      refine ⟨chunks, offset, hdelivered, hmatches, fun blob hblob => ?_⟩
      have hid : blobId ≠ provider.label ++ uuid := fun hid => hnever data' (hid ▸ hold)
      rw [Finmap.lookup_insert_of_ne _ hid] at hblob
      exact hposition blob hblob
    · refine ⟨[], 0, .start, ?_, fun blob hblob => ?_⟩
      · rw [h.unread _ hnever]
        exact ⟨rfl, rfl, rfl⟩
      · rw [Finmap.lookup_insert, Option.some.injEq] at hblob
        exact hblob ▸ ⟨rfl, rfl⟩

/-- The next chunk, and the read that returns it. -/
theorem Matches.next (h : Matches encode data reads chunks) {offset : ℕ}
    (hdelivered : Delivered data chunks offset) {chunk : List UInt8} (hlength : chunk.length < 2 ^ 32) :
    Matches encode data
      (reads ++ [⟨encode chunk, .ofNat chunk.length,
        decide (chunk ≠ [] ∧ data.take offset ++ chunk = data)⟩]) (chunks ++ [chunk]) where
  texts := by rw [List.map_append, List.map_append, h.texts]; rfl
  lengths := by
    rw [List.map_append, List.map_append, h.lengths, List.map_singleton, List.map_singleton,
      UInt32.toNat_ofNat_of_lt' hlength]
  done := by rw [List.map_append, h.done, lasts_concat, hdelivered.flatten_eq]; rfl

/-- A blob is read at its position. -/
theorem Kept.read (h : Kept encode provider actions outputs blobs) {blobId : String} {blob : ProviderBlob}
    (hblob : blobs.lookup blobId = some blob) {maxBytes : ℕ} (hmax : 1 ≤ maxBytes) :
    Kept encode provider (actions ++ [action])
      (outputs ++ [.read blobId (blob.read encode maxBytes).1])
      (blobs.insert blobId (blob.read encode maxBytes).2) := by
  have hlength : blob.data.length ≤ maxTotalBlobBytes :=
    (Finmap.le_total_of_lookup (fun blob => blob.data.length) hblob).trans h.total_le
  -- the offset is what was delivered so far, so that it is inside the blob
  have hoffset : blob.offset ≤ blob.data.length := by
    obtain ⟨_, offset, hdelivered, -, hposition⟩ := h.followed _ _ (h.known blobId blob hblob)
    exact (hposition blob hblob).2 ▸ hdelivered.offset_le
  rw [read_blob hoffset hlength]
  have hmem {stored : String} {data' : List UInt8} {result : BlobReadResult} :
      .stored stored data' ∈ outputs ++ [.read blobId result] ↔ .stored stored data' ∈ outputs := by
    rw [List.mem_append, List.mem_singleton]
    exact or_iff_left fun heq => Output.noConfusion heq
  -- nothing was stored, and the blob that was read keeps its data
  refine ⟨?_, fun stored data' hstored => ?_, fun stored blob' hblob' => ?_, fun stored hnone => ?_,
    fun stored data' hstored => ?_⟩
  · rw [totalBytes, Finmap.total_insert_of_lookup _ hblob (by rfl)]
    exact h.total_le
  · obtain ⟨uuid, huuid, hid⟩ := h.drawn stored data' (hmem.1 hstored)
    exact ⟨uuid, List.filterMap_append ▸ List.mem_append_left _ huuid, hid⟩
  · by_cases hid : stored = blobId
    · subst hid
      rw [Finmap.lookup_insert, Option.some.injEq] at hblob'
      exact hmem.2 (hblob' ▸ h.known stored blob hblob)
    · rw [Finmap.lookup_insert_of_ne _ hid] at hblob'
      exact hmem.2 (h.known stored blob' hblob')
  · have hid : blobId ≠ stored := by
      rintro rfl
      exact hnone blob.data (hmem.2 (h.known blobId blob hblob))
    rw [readsOf_append, readsOf_read, if_neg hid, List.append_nil]
    exact h.unread stored fun data' hold => hnone data' (hmem.2 hold)
  · obtain ⟨chunks, offset, hdelivered, hmatches, hposition⟩ := h.followed stored data' (hmem.1 hstored)
    rw [readsOf_append, readsOf_read]
    by_cases hid : blobId = stored
    · subst hid
      obtain ⟨rfl, rfl⟩ := hposition blob hblob
      -- the chunk is in the budget of all blobs, so that its length fits into 32 bits
      have hchunk : ((blob.data.drop blob.offset).take maxBytes).length < 2 ^ 32 := by
        rw [List.length_take, List.length_drop]
        have hbudget : maxTotalBlobBytes < 2 ^ 32 := by decide
        omega
      rw [if_pos rfl]
      refine ⟨_, _, hdelivered.next maxBytes hmax, hmatches.next hdelivered hchunk, fun blob' hblob' => ?_⟩
      rw [Finmap.lookup_insert, Option.some.injEq] at hblob'
      exact hblob' ▸ ⟨rfl, rfl⟩
    · rw [if_neg hid, List.append_nil]
      refine ⟨chunks, offset, hdelivered, hmatches, fun blob' hblob' => ?_⟩
      rw [Finmap.lookup_insert_of_ne _ fun heq => hid heq.symm] at hblob'
      exact hposition blob' hblob'

/-! ### Runs -/

theorem Admissible.before {actions : List Action} {action : Action}
    (h : Admissible (actions ++ [action])) : Admissible actions where
  nodup := (List.filterMap_append ▸ h.nodup).of_append_left
  positive blobId maxBytes hmem := h.positive blobId maxBytes (List.mem_append_left _ hmem)

theorem Kept.step (h : Kept encode provider actions outputs blobs)
    (hadmissible : Admissible (actions ++ [action])) :
    Kept encode provider (actions ++ [action]) (outputs ++ (step encode provider blobs action).2)
      (Composite.step encode provider blobs action).1 := by
  cases action with
  | store resourceId data uuid =>
    have hnew : uuid ∉ actions.filterMap Action.uuid? := by
      have hnodup := hadmissible.nodup
      rw [List.filterMap_append] at hnodup
      exact fun hmem => List.disjoint_of_nodup_append hnodup hmem List.mem_cons_self
    -- the store refuses what does not fit into the budget; the sum saturates only above it
    by_cases hrefused : maxTotalBlobBytes < data.length
        ∨ maxTotalBlobBytes < saturatingAdd (totalBytes blobs) data.length
    · simp only [Composite.step, store, if_pos hrefused]
      exact h.quiet (Nat.le_refl _) (fun _ _ hblob => hblob) (by simp) fun _ => rfl
    · have htotal : data.length + totalBytes blobs ≤ maxTotalBlobBytes := by
        have hsmall : maxTotalBlobBytes < 2 ^ 64 - 1 := by decide
        unfold saturatingAdd at hrefused
        omega
      simp only [Composite.step, store, if_neg hrefused]
      exact h.stored hnew htotal
  | read blobId maxBytes =>
    cases hblob : blobs.lookup blobId with
    -- an unknown blob: an error, and no change
    | none =>
      simp only [Composite.step, Composite.read, hblob]
      exact h.quiet (Nat.le_refl _) (fun _ _ hblob => hblob) (by simp) fun _ => rfl
    | some blob =>
      simp only [Composite.step, Composite.read, hblob]
      exact h.read hblob (hadmissible.positive blobId maxBytes
        (List.mem_append_right _ List.mem_cons_self))
  | close blobId =>
    change Kept encode provider _ (outputs ++ []) (close blobs blobId)
    refine h.quiet (Finmap.total_erase_le _ _ _) (fun other blob hblob => ?_) (by simp) fun _ => rfl
    by_cases hid : other = blobId
    · rw [hid, close, Finmap.lookup_erase] at hblob
      exact absurd hblob (by simp)
    · rwa [close, Finmap.lookup_erase_ne hid] at hblob
  | closeForResource resourceId =>
    change Kept encode provider _ (outputs ++ []) (closeForResource blobs resourceId)
    refine h.quiet (Finmap.total_retain_le _ _ _) (fun other blob hblob => ?_) (by simp) fun _ => rfl
    rw [closeForResource, Finmap.lookup_retain, Option.filter_eq_some_iff] at hblob
    exact hblob.1

theorem kept_run {actions : List Action} (h : Admissible actions) :
    Kept encode provider actions (Machine.run (step encode provider) ∅ actions).2
      (Machine.run (step encode provider) ∅ actions).1 :=
  Machine.run_history (H := Kept encode provider) (P := Admissible) (fun _ _ h => h.before)
    (fun _ _ _ _ h hadmissible => h.step hadmissible) kept_nil h

/-- An action leaves alone the blobs that it does not concern. -/
theorem lookup_step (blobs : ProviderBlobTable) {action : Action} {blobId : String}
    (h : ¬ action.Concerns provider blobs blobId) :
    (step encode provider blobs action).1.lookup blobId = blobs.lookup blobId := by
  cases action with
  | store resourceId data uuid =>
    -- an action that does not concern the blob inserts or removes under other ids
    have hid : blobId ≠ provider.label ++ uuid := fun hid => h hid.symm
    by_cases hrefused : maxTotalBlobBytes < data.length
        ∨ maxTotalBlobBytes < saturatingAdd (totalBytes blobs) data.length
    · simp only [step, store, if_pos hrefused]
    · simp only [step, store, if_neg hrefused]
      exact Finmap.lookup_insert_of_ne _ hid
  | read readId maxBytes =>
    have hid : blobId ≠ readId := fun hid => h hid.symm
    cases hblob : blobs.lookup readId with
    | none => simp only [step, read, hblob]
    | some blob =>
      simp only [step, read, hblob]
      exact Finmap.lookup_insert_of_ne _ hid
  | close closed => exact Finmap.lookup_erase_ne fun hid => h hid.symm
  | closeForResource resourceId =>
    simp only [step, closeForResource, Finmap.lookup_retain]
    cases hblob : blobs.lookup blobId with
    | none => rfl
    | some blob =>
      -- a blob of another resource is retained
      have hresource : blob.resourceId ≠ resourceId := fun heq => h ⟨blob, hblob, heq⟩
      exact Option.filter_some_pos (by simpa using hresource)

/-- A blob stays in the table until it is taken out: a refused store and a read of what is closed change
nothing, and a read puts the blob back with its new position. -/
theorem mem_step {blobs : ProviderBlobTable} {action : Action} {blobId : String} (hmem : blobId ∈ blobs)
    (h : ¬ action.Removes blobs blobId) : blobId ∈ (step encode provider blobs action).1 := by
  cases action with
  | store resourceId data uuid =>
    by_cases hrefused : maxTotalBlobBytes < data.length
        ∨ maxTotalBlobBytes < saturatingAdd (totalBytes blobs) data.length
    · simpa only [step, store, if_pos hrefused] using hmem
    · simpa only [step, store, if_neg hrefused] using Finmap.mem_insert.2 (.inr hmem)
  | read readId maxBytes =>
    cases hblob : blobs.lookup readId with
    | none => simpa only [step, read, hblob] using hmem
    | some blob => simpa only [step, read, hblob] using Finmap.mem_insert.2 (.inr hmem)
  | close closed => exact Finmap.mem_erase.2 ⟨fun hid => h hid.symm, hmem⟩
  | closeForResource resourceId =>
    obtain ⟨blob, hblob⟩ := Finmap.mem_iff.1 hmem
    -- the blob was not of the resource that is closed, or it would have been removed
    have hresource : blob.resourceId ≠ resourceId := fun heq => h ⟨blob, hblob, heq⟩
    refine Finmap.mem_iff.2 ⟨blob, ?_⟩
    simp only [step, closeForResource, Finmap.lookup_retain, hblob]
    exact Option.filter_some_pos (by simpa using hresource)

/-- A store that is not refused puts the blob into the table. -/
theorem mem_of_stored {blobs : ProviderBlobTable} {action : Action} {blobId : String}
    {data : List UInt8} (h : .stored blobId data ∈ (step encode provider blobs action).2) :
    blobId ∈ (step encode provider blobs action).1 := by
  cases action with
  | store resourceId data uuid =>
    by_cases hrefused : maxTotalBlobBytes < data.length
        ∨ maxTotalBlobBytes < saturatingAdd (totalBytes blobs) data.length
    · simp [step, store, if_pos hrefused] at h
    · simp only [step, store, if_neg hrefused, List.mem_singleton, Output.stored.injEq] at h ⊢
      exact Finmap.mem_insert.2 (.inl h.1)
  | read readId maxBytes =>
    cases hblob : blobs.lookup readId with
    | none => simp [step, read, hblob] at h
    | some blob => simp [step, read, hblob] at h
  | close closed => exact absurd h List.not_mem_nil
  | closeForResource resourceId => exact absurd h List.not_mem_nil

/-- A read of a blob that is in the table succeeds, with what comes behind the chunks that have been
read. -/
theorem Kept.read_next (h : Kept encode provider actions outputs blobs) {blobId : String}
    (hstored : .stored blobId data ∈ outputs) :
    ∃ chunks, Streamed encode data (readsOf blobId outputs) chunks ∧
      (blobId ∈ blobs → ∀ maxBytes, (Composite.read encode blobs blobId maxBytes).1
        = .ok (nextRead encode data chunks.flatten.length maxBytes)) := by
  obtain ⟨chunks, offset, hdelivered, hmatches, hposition⟩ := h.followed blobId data hstored
  have hstreamed : Streamed encode data (readsOf blobId outputs) chunks := by
    refine ⟨hmatches.texts, hmatches.lengths, hdelivered.flatten_prefix, hmatches.done, ?_,
      fun hlength => hdelivered.flatten_eq_of_length_le ?_⟩
    · rw [hmatches.done, count_lasts hdelivered.flatten_prefix]
    · have hcount := congrArg List.length hmatches.texts
      rw [List.length_map, List.length_map] at hcount
      exact hcount ▸ hlength
  refine ⟨chunks, hstreamed, fun hmem maxBytes => ?_⟩
  obtain ⟨blob, hblob⟩ := Finmap.mem_iff.1 hmem
  -- the blob is the one that was stored, at the position behind the chunks
  obtain ⟨rfl, rfl⟩ := hposition blob hblob
  have hlength : blob.data.length ≤ maxTotalBlobBytes :=
    (Finmap.le_total_of_lookup (fun blob => blob.data.length) hblob).trans h.total_le
  have htaken : chunks.flatten.length = blob.offset := by
    rw [hdelivered.flatten_eq, List.length_take, Nat.min_eq_left hdelivered.offset_le]
  simp only [Composite.read, hblob, read_blob hdelivered.offset_le hlength, htaken]

/-- **Blobs stream exactly.** In every run the total stays inside the budget, and what is read of a
blob that was stored are its chunks; if the blob is still in the table, the next read succeeds, whatever
it asks for, and returns the bytes behind these chunks. A blob that was stored is in the table, and stays
there until it is taken out; an action leaves every blob alone that it does not concern; and a blob that
is refused leaves the table as it was. -/
theorem blobs_stream (encode : List UInt8 → String) (provider : Provider) :
    (∀ actions, Admissible actions →
      totalBytes (Machine.run (step encode provider) ∅ actions).1 ≤ maxTotalBlobBytes ∧
      ∀ blobId data, .stored blobId data ∈ (Machine.run (step encode provider) ∅ actions).2 →
        ∃ chunks, Streamed encode data
            (readsOf blobId (Machine.run (step encode provider) ∅ actions).2) chunks ∧
          (blobId ∈ (Machine.run (step encode provider) ∅ actions).1 → ∀ maxBytes,
            (read encode (Machine.run (step encode provider) ∅ actions).1 blobId maxBytes).1
              = .ok (nextRead encode data chunks.flatten.length maxBytes))) ∧
    (∀ blobs action blobId,
      (∀ data, .stored blobId data ∈ (step encode provider blobs action).2 →
        blobId ∈ (step encode provider blobs action).1) ∧
      (blobId ∈ blobs → ¬ Action.Removes blobs blobId action →
        blobId ∈ (step encode provider blobs action).1) ∧
      (¬ Action.Concerns provider blobs blobId action →
        (step encode provider blobs action).1.lookup blobId = blobs.lookup blobId)) ∧
    ∀ uuid blobs resourceId data, (store provider uuid blobs resourceId data).1 = none →
      (store provider uuid blobs resourceId data).2 = blobs := by
  refine ⟨fun actions h => ⟨(kept_run h).total_le, fun _ _ => (kept_run h).read_next⟩,
    fun blobs _ _ => ⟨fun _ => mem_of_stored, mem_step, lookup_step blobs⟩,
    fun uuid blobs resourceId data hnone => ?_⟩
  unfold store at hnone ⊢
  split at hnone
  -- a store that gives out no id has refused the data, and leaves the table as it was
  · next hrefused => rw [if_pos hrefused]
  · exact absurd hnone (by simp)

/-- A blob of three bytes, of which two have been read: the next read returns the third one. -/
theorem blobs_stream_two :
    ∃ chunks, Streamed (fun bytes => if bytes = [1, 2] then "AQI=" else "Aw==") [1, 2, 3]
        [⟨"AQI=", 2, false⟩] chunks ∧
      (read (fun bytes => if bytes = [1, 2] then "AQI=" else "Aw==")
        (Machine.run (step (fun bytes => if bytes = [1, 2] then "AQI=" else "Aw==") .mqtt) ∅
          [.store "mqtt-resource" [1, 2, 3] "7d44", .read "mqtt-blob-7d44" 2]).1
        "mqtt-blob-7d44" 2).1 = .ok ⟨"Aw==", 1, true⟩ := by
  obtain ⟨chunks, hstreamed, hnext⟩ :=
    ((blobs_stream (fun bytes => if bytes = [1, 2] then "AQI=" else "Aw==") .mqtt).1
      [.store "mqtt-resource" [1, 2, 3] "7d44", .read "mqtt-blob-7d44" 2] ⟨by decide, by simp⟩).2
      "mqtt-blob-7d44" [1, 2, 3] List.mem_cons_self
  refine ⟨chunks, hstreamed, (hnext (Finmap.mem_iff.2 ⟨_, rfl⟩) 2).trans ?_⟩
  -- the chunk that was read has two bytes
  have hlength : chunks.flatten.length = 2 := by
    have hone := hstreamed.lengths
    rw [List.length_flatten, ← hone]
    rfl
  rw [hlength]
  decide

end Reads

end Composite
end Navop
