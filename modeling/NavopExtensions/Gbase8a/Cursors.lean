import NavopExtensions.Lib.Handles
import NavopExtensions.Lib.Machine

/-!
# Cursors and export streams of the GBase 8a server

Results and exported documents are kept in memory and read page by page. The end of a page is computed by
adding the limit of the caller to the offset, in an `int` that wraps around. When the sum is too great for
it, the end lies before the offset, and the request fails; it changes nothing.

A server is a `Machine` over its requests, and its two tables keep `Handles.Books`: the pages that are
answered are always the right ones. So a run delivers everything, without any failure, exactly if no
request reaches beyond the greatest `int` (`delivered_iff`).
-/

namespace Navop
namespace Gbase8a
namespace Cursors

open Handles

/-! ### Buffers -/

/-- What is kept in memory: rows or bytes, of which the number is an `int`. -/
structure Content (α : Type*) where
  items : List α
  size_lt : items.length < 2 ^ 31

/-- `CursorState` and `StreamState`: a content, and the offset of what has not been read. -/
structure Buffered (α : Type*) extends Content α where
  offset : Int32
  offset_nonneg : 0 ≤ offset.toInt
  offset_le : offset.toInt ≤ items.length

section Buffered

variable {α : Type*} (buffered : Buffered α)

/-- A content of which nothing has been read. -/
def Buffered.new (content : Content α) : Buffered α where
  toContent := content
  offset := 0
  offset_nonneg := Int.le_refl _
  offset_le := Int.natCast_nonneg _

/-- `rows.size()` and `data.length`, which are `int`s. -/
def Buffered.size : Int32 := Int32.ofNat buffered.items.length

/-- Where a page ends. -/
def Buffered.stop (n : Int32) : Int32 := min buffered.size (buffered.offset + n)

/-- `isDone`: the offset has reached the end. -/
def Buffered.isDone : Bool := decide (buffered.size ≤ buffered.offset)

/-- The items between two places. -/
def Buffered.slice (start stop : Int32) : List α :=
  (buffered.items.take stop.toNatClampNeg).drop start.toNatClampNeg

theorem Buffered.toInt_size : buffered.size.toInt = buffered.items.length :=
  Int32.toInt_ofNat_of_lt buffered.size_lt

theorem toInt_min (a b : Int32) : (min a b).toInt = min a.toInt b.toInt := by
  show (if a ≤ b then a else b).toInt = _
  split
  · next h => rw [min_eq_left (Int32.le_iff_toInt_le.1 h)]
  · next h => rw [min_eq_right (not_le.1 fun hle => h (Int32.le_iff_toInt_le.2 hle)).le]

theorem Buffered.stop_le (n : Int32) : (buffered.stop n).toInt ≤ buffered.items.length := by
  rw [stop, toInt_min, buffered.toInt_size]
  exact min_le_left _ _

/-- The offset is moved. -/
def Buffered.moved (stop : Int32) (hstart : buffered.offset.toInt ≤ stop.toInt)
    (hstop : stop.toInt ≤ buffered.items.length) : Buffered α where
  toContent := buffered.toContent
  offset := stop
  offset_nonneg := buffered.offset_nonneg.trans hstart
  offset_le := hstop

/-- `take`; `subList` does not take an end before the beginning. -/
def Buffered.take (n : Int32) : Option (List α × Buffered α) :=
  let stop := buffered.stop n
  if h : buffered.offset.toInt ≤ stop.toInt then
    some (buffered.slice buffered.offset stop, buffered.moved stop h (buffered.stop_le n))
  else none

theorem Buffered.stop_eq_of_read {n : Int32}
    (hlength : 0 ≤ (buffered.stop n - buffered.offset).toInt)
    (hend : buffered.offset.toInt + (buffered.stop n - buffered.offset).toInt
      ≤ buffered.items.length) :
    buffered.offset.toInt + (buffered.stop n - buffered.offset).toInt = (buffered.stop n).toInt := by
  have hsize := buffered.size_lt
  have hnonneg := buffered.offset_nonneg
  have hlow := (buffered.stop n).le_toInt
  have hhigh := (buffered.stop n).toInt_lt
  rw [Int32.toInt_sub] at hlength hend ⊢
  simp only [Int.bmod_def] at hlength hend ⊢
  split at hlength <;> omega

/-- The chunk of `handleStreamRead`. An array cannot have a negative length, and `arraycopy` does not
reach beyond the data. -/
def Buffered.readChunk (max : Int32) : Option (List α × Buffered α) :=
  let stop := buffered.stop max
  let length := stop - buffered.offset
  if h : 0 ≤ length.toInt ∧ buffered.offset.toInt + length.toInt ≤ buffered.items.length then
    have heq : buffered.offset.toInt + length.toInt = stop.toInt := buffered.stop_eq_of_read h.1 h.2
    some ((buffered.items.drop buffered.offset.toNatClampNeg).take length.toNatClampNeg,
      buffered.moved stop (by omega) (by omega))
  else none

end Buffered

/-! ### The server -/

/-- The requests. A limit that is not given stands for the default. -/
inductive Request (ρ : Type)
  | queryStart (result : Content ρ)
  | cursorFetch (cursorId : String) (n : Option Int32)
  | cursorClose (cursorId : String)
  | cursorCancel (cursorId : String)
  | dataExport (streamId : String) (data : Content UInt8)
  | streamRead (streamId : String) (maxBytes : Option Int32)
  | streamClose (streamId : String)
  | shutdown

/-- The answers: a start, a page of rows, a chunk of bytes, and the errors. -/
inductive Reply (ρ : Type)
  | started (cursorId : String)
  | rows (rows : List ρ) (done : Bool)
  | data (data : List UInt8) (done : Bool)
  | ok
  | unknownCursor (message : String)
  /-- An argument that the server or a library does not take; the message of a library is left out. -/
  | invalidParams (message : Option String)
  | internalError

/-- The tables of `GBase8aIpcServer` for cursors and streams, and the counter, a `long` that wraps. -/
structure State (ρ : Type) where
  cursors : Finmap fun _ : String => Buffered ρ
  streams : Finmap fun _ : String => Buffered UInt8
  nextCursorId : Int64

variable {ρ : Type}

/-- A server that has just been started. -/
def State.initial : State ρ := ⟨∅, ∅, 1⟩

/-- A limit of a request, which is not negative. -/
def limitOf (default : Int32) : Option Int32 → Int32
  | none => default
  | some n => max 0 n

/-- The message about a cursor that is not there. -/
def unknownCursor (cursorId : String) : Reply ρ :=
  .unknownCursor ("unknown cursor_id " ++ "\x60" ++ cursorId ++ "\x60")

/-- `handleQueryStart`, for a result that has been read. -/
def handleQueryStart (state : State ρ) (result : Content ρ) : State ρ × Reply ρ :=
  let cursorId := "gbase8a-cursor-" ++ toString state.nextCursorId.toInt
  ({ state with
      cursors := state.cursors.insert cursorId (.new result)
      nextCursorId := state.nextCursorId + 1 },
    .started cursorId)

/-- `handleCursorFetch`: the next rows, 500 unless the request says how many. -/
def handleCursorFetch (state : State ρ) (cursorId : String) (n : Option Int32) :
    State ρ × Reply ρ :=
  match state.cursors.lookup cursorId with
  | none => (state, unknownCursor cursorId)
  | some cursor =>
    match cursor.take (limitOf 500 n) with
    | none => (state, .invalidParams none)
    | some (rows, cursor) =>
      ({ state with cursors := state.cursors.insert cursorId cursor }, .rows rows cursor.isDone)

/-- `handleCursorClose` and `handleCursorCancel`: the cursor is forgotten, rows unread or not. -/
def handleCursorClose (state : State ρ) (cursorId : String) : State ρ × Reply ρ :=
  match state.cursors.lookup cursorId with
  | none => (state, unknownCursor cursorId)
  | some _ => ({ state with cursors := state.cursors.erase cursorId }, .ok)

/-- `handleDataExport`, for a document that has been written. -/
def handleDataExport (state : State ρ) (streamId : String) (data : Content UInt8) :
    State ρ × Reply ρ :=
  ({ state with streams := state.streams.insert streamId (.new data) }, .ok)

/-- `handleStreamRead`: the next bytes, 65536 unless the request says how many. -/
def handleStreamRead (state : State ρ) (streamId : String) (maxBytes : Option Int32) :
    State ρ × Reply ρ :=
  match state.streams.lookup streamId with
  | none =>
    (state, .invalidParams (some ("unknown stream_id " ++ "\x60" ++ streamId ++ "\x60")))
  | some stream =>
    match stream.readChunk (limitOf 65536 maxBytes) with
    | none => (state, .internalError)
    | some (chunk, stream) =>
      ({ state with
          streams :=
            if stream.isDone then state.streams.erase streamId
            else state.streams.insert streamId stream },
        .data chunk stream.isDone)

/-- `handleStreamClose`: closing a stream that is not there is no error. -/
def handleStreamClose (state : State ρ) (streamId : String) : State ρ × Reply ρ :=
  ({ state with streams := state.streams.erase streamId }, .ok)

/-- `closeAll`: cursors and streams are forgotten together. -/
def closeAll (state : State ρ) : State ρ × Reply ρ :=
  ({ state with cursors := ∅, streams := ∅ }, .ok)

/-- `dispatch`: a request goes to its handler. -/
def dispatch (state : State ρ) : Request ρ → State ρ × Reply ρ
  | .queryStart result => handleQueryStart state result
  | .cursorFetch cursorId n => handleCursorFetch state cursorId n
  | .cursorClose cursorId => handleCursorClose state cursorId
  | .cursorCancel cursorId => handleCursorClose state cursorId
  | .dataExport streamId data => handleDataExport state streamId data
  | .streamRead streamId maxBytes => handleStreamRead state streamId maxBytes
  | .streamClose streamId => handleStreamClose state streamId
  | .shutdown => closeAll state

/-- A request is answered. -/
def step (state : State ρ) (request : Request ρ) : State ρ × List (Request ρ × Reply ρ) :=
  ((dispatch state request).1, [(request, (dispatch state request).2)])

/-- Requests are answered by a new server. -/
def run (requests : List (Request ρ)) : State ρ × List (Request ρ × Reply ρ) :=
  Machine.run step State.initial requests

/-! ### What is delivered -/

/-- What a request means for the cursors. -/
def cursorEvents : Request ρ × Reply ρ → List (Event String ρ)
  | (.queryStart result, .started cursorId) => [.opened cursorId result.items]
  | (.cursorFetch cursorId _, .rows rows done) => [.read cursorId rows done]
  | (.cursorFetch _ _, .unknownCursor _) => []
  | (.cursorFetch cursorId _, _) => [.failed cursorId]
  | _ => []

/-- What a request means for the streams. -/
def streamEvents : Request ρ × Reply ρ → List (Event String UInt8)
  | (.dataExport streamId data, _) => [.opened streamId data.items]
  | (.streamRead streamId _, .data data done) => [.read streamId data done]
  | (.streamRead _ _, .invalidParams _) => []
  | (.streamRead streamId _, _) => [.failed streamId]
  | _ => []

/-- All cursors and streams are delivered. -/
def AllDelivered (requests : List (Request ρ)) : Prop :=
  Delivered ((run requests).2.flatMap cursorEvents) ∧
    Delivered ((run requests).2.flatMap streamEvents)

/-- The end of a page of rows is an `int`. -/
def FetchFits (state : State ρ) : Request ρ → Prop
  | .cursorFetch cursorId n => ∀ cursor ∈ state.cursors.lookup cursorId,
      cursor.offset.toInt + (limitOf 500 n).toInt < 2 ^ 31
  | _ => True

/-- The end of a chunk of a document is an `int`. -/
def ReadFits (state : State ρ) : Request ρ → Prop
  | .streamRead streamId maxBytes => ∀ stream ∈ state.streams.lookup streamId,
      stream.offset.toInt + (limitOf 65536 maxBytes).toInt < 2 ^ 31
  | _ => True

/-- Every request reaches no further than the greatest `int`, in the state that it meets. -/
def AllFit (requests : List (Request ρ)) : Prop :=
  Machine.Guarded step (fun state request => FetchFits state request ∧ ReadFits state request)
    State.initial requests

/-! ### Pages -/

section Pages

variable {α : Type} (buffered : Buffered α)

/-- A content, and how much of it has been read. -/
def Buffered.reader : Reader α := ⟨buffered.items, buffered.offset.toNatClampNeg⟩

theorem limitOf_nonneg (default : Int32) (h : 0 ≤ default.toInt) (n : Option Int32) :
    0 ≤ (limitOf default n).toInt := by
  cases n with
  | none => exact h
  | some n =>
    show 0 ≤ (if (0 : Int32) ≤ n then n else 0).toInt
    split
    · next hn => exact Int32.le_iff_toInt_le.1 hn
    · exact Int.le_refl _

theorem Buffered.toInt_stop {n : Int32} (hn : 0 ≤ n.toInt) : (buffered.stop n).toInt
    = if buffered.offset.toInt + n.toInt < 2 ^ 31 then
        min ↑buffered.items.length (buffered.offset.toInt + n.toInt)
      else buffered.offset.toInt + n.toInt - 2 ^ 32 := by
  have hoffset := buffered.offset_nonneg
  have hhigh := buffered.offset.toInt_lt
  have hlimit := n.toInt_lt
  rw [stop, toInt_min, buffered.toInt_size, Int32.toInt_add]
  split
  · next hfits => rw [Int.bmod_eq_of_le (by omega) (by omega)]
  -- the sum is beyond the greatest `int`, wraps around and is smaller than the size
  · next hbeyond =>
    have hwrap : (buffered.offset.toInt + n.toInt).bmod (2 ^ 32)
        = buffered.offset.toInt + n.toInt - 2 ^ 32 := by
      rw [Int.bmod_def, if_neg (by omega)]
      omega
    rw [hwrap, min_eq_right (by omega)]

theorem Buffered.isDone_iff : buffered.isDone = true
    ↔ buffered.offset.toNatClampNeg = buffered.items.length := by
  have hnonneg := buffered.offset_nonneg
  have hle := buffered.offset_le
  rw [isDone, decide_eq_true_eq, Int32.le_iff_toInt_le, buffered.toInt_size, Int32.toNatClampNeg]
  omega

/-- A page that fits is answered, and the offset is moved to its end. -/
theorem Buffered.take_of_fits {n : Int32} (hn : 0 ≤ n.toInt)
    (hfits : buffered.offset.toInt + n.toInt < 2 ^ 31) :
    ∃ after : Buffered α, buffered.take n
        = some (buffered.reader.piece after.offset.toNatClampNeg, after) ∧
      after.items = buffered.items ∧
      buffered.offset.toNatClampNeg ≤ after.offset.toNatClampNeg := by
  have hstop := buffered.toInt_stop hn
  have hle := buffered.offset_le
  rw [if_pos hfits] at hstop
  have hstart : buffered.offset.toInt ≤ (buffered.stop n).toInt := by omega
  refine ⟨buffered.moved (buffered.stop n) hstart (buffered.stop_le n), ?_, rfl, ?_⟩
  · rw [take, dif_pos hstart]
    rfl
  · show buffered.offset.toInt.toNat ≤ (buffered.stop n).toInt.toNat
    omega

/-- A page that does not fit fails. -/
theorem Buffered.take_of_not_fits {n : Int32} (hn : 0 ≤ n.toInt)
    (hbeyond : ¬ buffered.offset.toInt + n.toInt < 2 ^ 31) : buffered.take n = none := by
  have hstop := buffered.toInt_stop hn
  have hlimit := n.toInt_lt
  rw [if_neg hbeyond] at hstop
  rw [take, dif_neg (by omega)]

/-- A chunk that fits is answered as a page is. -/
theorem Buffered.readChunk_of_fits {max : Int32} (hmax : 0 ≤ max.toInt)
    (hfits : buffered.offset.toInt + max.toInt < 2 ^ 31) :
    ∃ after : Buffered α, buffered.readChunk max
        = some (buffered.reader.piece after.offset.toNatClampNeg, after) ∧
      after.items = buffered.items ∧
      buffered.offset.toNatClampNeg ≤ after.offset.toNatClampNeg := by
  have hstop := buffered.toInt_stop hmax
  have hnonneg := buffered.offset_nonneg
  have hle := buffered.offset_le
  have hsize := buffered.size_lt
  rw [if_pos hfits] at hstop
  -- the difference of the two places is not negative, and does not wrap
  have hlength : (buffered.stop max - buffered.offset).toInt
      = (buffered.stop max).toInt - buffered.offset.toInt := by
    rw [Int32.toInt_sub, Int.bmod_eq_of_le (by omega) (by omega)]
  have hstart : buffered.offset.toInt ≤ (buffered.stop max).toInt := by omega
  refine ⟨buffered.moved (buffered.stop max) hstart (buffered.stop_le max), ?_, rfl, ?_⟩
  · rw [readChunk, dif_pos ⟨by omega, by have := buffered.stop_le max; omega⟩]
    refine congrArg (fun chunk => some (chunk, _)) ?_
    -- a piece from one place to the other, cut in the other order
    show List.take _ (List.drop _ _) = List.drop _ (List.take _ _)
    rw [List.drop_take]
    congr 1
    show (buffered.stop max - buffered.offset).toInt.toNat
      = (buffered.stop max).toInt.toNat - buffered.offset.toInt.toNat
    omega
  · show buffered.offset.toInt.toNat ≤ (buffered.stop max).toInt.toNat
    omega

/-- A chunk that does not fit fails: the array is made as long as the limit is, and there are not as
many bytes left. -/
theorem Buffered.readChunk_of_not_fits {max : Int32} (hmax : 0 ≤ max.toInt)
    (hbeyond : ¬ buffered.offset.toInt + max.toInt < 2 ^ 31) : buffered.readChunk max = none := by
  have hstop := buffered.toInt_stop hmax
  have hnonneg := buffered.offset_nonneg
  have hle := buffered.offset_le
  have hsize := buffered.size_lt
  have hlimit := max.toInt_lt
  rw [if_neg hbeyond] at hstop
  have hlength : (buffered.stop max - buffered.offset).toInt = max.toInt := by
    rw [Int32.toInt_sub, Int.bmod_def]
    omega
  rw [readChunk, dif_neg]
  rintro ⟨-, hend⟩
  omega

end Pages

/-! ### Runs -/

/-- The readers of a table. -/
def readers {α : Type} (table : Finmap fun _ : String => Buffered α) (key : String) :
    Option (Reader α) :=
  (table.lookup key).map Buffered.reader

section Readers

variable {α : Type} {table : Finmap fun _ : String => Buffered α} {key : String}
  {buffered : Buffered α}

theorem readers_insert_self : readers (table.insert key buffered) key = some buffered.reader := by
  rw [readers, Finmap.lookup_insert, Option.map_some]

theorem readers_insert_of_ne {k : String} (h : k ≠ key) :
    readers (table.insert key buffered) k = readers table k := by
  rw [readers, Finmap.lookup_insert_of_ne _ h, readers]

theorem readers_erase_of_ne {k : String} (h : k ≠ key) :
    readers (table.erase key) k = readers table k := by
  rw [readers, Finmap.lookup_erase_ne h, readers]

theorem readers_erase_self : readers (table.erase key) key = none := by
  rw [readers, Finmap.lookup_erase, Option.map_none]

theorem readers_of_erase {k : String} {reader : Reader α}
    (h : readers (table.erase key) k = some reader) : readers table k = some reader := by
  by_cases heq : k = key
  · rw [heq, readers_erase_self] at h
    cases h
  · rwa [readers_erase_of_ne heq] at h

/-- The books after something is read: the buffer is put back, or taken away as it is done. -/
theorem books_read {log : List (Event String α)} (h : Books (readers table) log)
    (hkey : table.lookup key = some buffered) {after : Buffered α}
    (hitems : after.items = buffered.items)
    (hle : buffered.offset.toNatClampNeg ≤ after.offset.toNatClampNeg)
    {table' : Finmap fun _ : String => Buffered α}
    (htable : table' = table.insert key after ∨ table' = table.erase key) :
    Books (readers table')
        (log ++ [.read key (buffered.reader.piece after.offset.toNatClampNeg) after.isDone]) ∧
      (Event.read key (buffered.reader.piece after.offset.toNatClampNeg) after.isDone).Good log := by
  have hbefore : readers table key = some buffered.reader := by rw [readers, hkey, Option.map_some]
  have hafter : after.reader = ⟨buffered.items, after.offset.toNatClampNeg⟩ := by
    rw [Buffered.reader, hitems]
  have hend : after.offset.toNatClampNeg ≤ after.items.length := by
    have hoffset := after.offset_le
    rw [Int32.toNatClampNeg]
    omega
  -- the buffer has moved, or is gone because it is done; the others are as they were
  refine ⟨h.advanced hbefore hle _ ?_ ?_, h.good hbefore hle ?_ ?_⟩
  · intro reader' hreader'
    rcases htable with rfl | rfl
    · rw [readers_insert_self] at hreader'
      exact (Option.some.inj hreader').symm.trans hafter
    · rw [readers_erase_self] at hreader'
      cases hreader'
  · intro k hk
    rcases htable with rfl | rfl
    · exact readers_insert_of_ne hk
    · exact readers_erase_of_ne hk
  · rwa [hitems] at hend
  -- done means that the offset is at the end
  · show after.isDone = true ↔ _ = buffered.items.length
    rw [after.isDone_iff, hitems]

theorem books_opened {log : List (Event String α)} (h : Books (readers table) log)
    (content : Content α) : Books (readers (table.insert key (.new content)))
      (log ++ [.opened key content.items]) :=
  h.opened (by rw [readers_insert_self]; rfl) fun _ hk => readers_insert_of_ne hk

end Readers

/-- What a step does to one of the tables: the books are kept, and the events are as they should be
exactly under a condition. -/
structure Kept {α : Type} (table : Finmap fun _ : String => Buffered α)
    (log events : List (Event String α)) (fits : Prop) : Prop where
  books : Books (readers table) (log ++ events)
  delivered : Delivered (log ++ events) ↔ Delivered log ∧ fits

section Steps

variable {state : State ρ} {log : List (Event String ρ)} {data : List (Event String UInt8)}

theorem Kept.of_none {α : Type} {table table' : Finmap fun _ : String => Buffered α}
    {log : List (Event String α)} {fits : Prop} (h : Books (readers table) log)
    (hsub : ∀ key reader, readers table' key = some reader → readers table key = some reader)
    (hfits : fits) : Kept table' log [] fits where
  books := by
    rw [List.append_nil]
    exact h.mono hsub
  delivered := by
    rw [List.append_nil]
    exact ⟨fun hlog => ⟨hlog, hfits⟩, And.left⟩

theorem kept_fetch (h : Books (readers state.cursors) log) (cursorId : String) (n : Option Int32) :
    Kept (handleCursorFetch state cursorId n).1.cursors log
      (cursorEvents (.cursorFetch cursorId n, (handleCursorFetch state cursorId n).2))
      (FetchFits state (.cursorFetch cursorId n)) := by
  rw [handleCursorFetch]
  split
  · next hnone =>
    exact .of_none h (fun _ _ hkey => hkey) fun cursor hcursor => by rw [hnone] at hcursor; cases hcursor
  · next cursor hcursor =>
    have hlimit := limitOf_nonneg 500 (by decide) n
    have hfits : FetchFits state (.cursorFetch cursorId n)
        ↔ cursor.offset.toInt + (limitOf 500 n).toInt < 2 ^ 31 := by
      simp only [FetchFits, hcursor, Option.mem_some_iff, forall_eq']
    -- the end of the page fits, and it is read; or it wraps around, and the request fails
    by_cases hpage : cursor.offset.toInt + (limitOf 500 n).toInt < 2 ^ 31
    · obtain ⟨after, htake, hitems, hle⟩ := cursor.take_of_fits hlimit hpage
      obtain ⟨hbooks, hgood⟩ := books_read h hcursor hitems hle (.inl rfl)
      rw [htake]
      exact ⟨hbooks, delivered_concat.trans (and_congr_right fun _ => by simp only [hgood, hfits, hpage])⟩
    · rw [cursor.take_of_not_fits hlimit hpage]
      exact ⟨h.failed cursorId,
        delivered_concat.trans (and_congr_right fun _ => by simp only [Event.Good, hfits, hpage])⟩

theorem kept_read (h : Books (readers state.streams) data) (streamId : String)
    (maxBytes : Option Int32) :
    Kept (handleStreamRead state streamId maxBytes).1.streams data
      (streamEvents (.streamRead streamId maxBytes, (handleStreamRead state streamId maxBytes).2))
      (ReadFits state (.streamRead streamId maxBytes)) := by
  rw [handleStreamRead]
  split
  · next hnone =>
    exact .of_none h (fun _ _ hkey => hkey) fun stream hstream => by rw [hnone] at hstream; cases hstream
  · next stream hstream =>
    have hlimit := limitOf_nonneg 65536 (by decide) maxBytes
    have hfits : ReadFits state (.streamRead streamId maxBytes)
        ↔ stream.offset.toInt + (limitOf 65536 maxBytes).toInt < 2 ^ 31 := by
      simp only [ReadFits, hstream, Option.mem_some_iff, forall_eq']
    by_cases hchunk : stream.offset.toInt + (limitOf 65536 maxBytes).toInt < 2 ^ 31
    · obtain ⟨after, hread, hitems, hle⟩ := stream.readChunk_of_fits hlimit hchunk
      -- a stream that is done is taken away
      have htable : (if after.isDone then state.streams.erase streamId
            else state.streams.insert streamId after) = state.streams.insert streamId after ∨
          (if after.isDone then state.streams.erase streamId
            else state.streams.insert streamId after) = state.streams.erase streamId := by
        split <;> simp
      obtain ⟨hbooks, hgood⟩ := books_read h hstream hitems hle htable
      rw [hread]
      exact ⟨hbooks, delivered_concat.trans (and_congr_right fun _ => by simp only [hgood, hfits, hchunk])⟩
    · rw [stream.readChunk_of_not_fits hlimit hchunk]
      exact ⟨h.failed streamId,
        delivered_concat.trans (and_congr_right fun _ => by simp only [Event.Good, hfits, hchunk])⟩

theorem kept_cursors (h : Books (readers state.cursors) log) (request : Request ρ) :
    Kept (dispatch state request).1.cursors log
      (cursorEvents (request, (dispatch state request).2))
      (FetchFits state request) := by
  cases request with
  | queryStart result =>
    exact ⟨books_opened h result, delivered_concat⟩
  | cursorFetch cursorId n => exact kept_fetch h cursorId n
  | cursorClose cursorId =>
    simp only [dispatch, handleCursorClose]
    split
    · exact .of_none h (fun _ _ hkey => hkey) trivial
    · exact .of_none h (fun _ _ => readers_of_erase) trivial
  | cursorCancel cursorId =>
    simp only [dispatch, handleCursorClose]
    split
    · exact .of_none h (fun _ _ hkey => hkey) trivial
    · exact .of_none h (fun _ _ => readers_of_erase) trivial
  | dataExport streamId data => exact .of_none h (fun _ _ hkey => hkey) trivial
  | streamRead streamId maxBytes =>
    simp only [dispatch, handleStreamRead]
    split
    · exact .of_none h (fun _ _ hkey => hkey) trivial
    · split <;> exact .of_none h (fun _ _ hkey => hkey) trivial
  | streamClose streamId => exact .of_none h (fun _ _ hkey => hkey) trivial
  | shutdown => exact .of_none h (fun _ _ hkey => by simp [dispatch, closeAll, readers] at hkey) trivial

theorem kept_streams (h : Books (readers state.streams) data) (request : Request ρ) :
    Kept (dispatch state request).1.streams data
      (streamEvents (request, (dispatch state request).2))
      (ReadFits state request) := by
  cases request with
  | queryStart result => exact .of_none h (fun _ _ hkey => hkey) trivial
  | cursorFetch cursorId n =>
    simp only [dispatch, handleCursorFetch]
    split
    · exact .of_none h (fun _ _ hkey => hkey) trivial
    · split <;> exact .of_none h (fun _ _ hkey => hkey) trivial
  | cursorClose cursorId =>
    simp only [dispatch, handleCursorClose]
    split <;> exact .of_none h (fun _ _ hkey => hkey) trivial
  | cursorCancel cursorId =>
    simp only [dispatch, handleCursorClose]
    split <;> exact .of_none h (fun _ _ hkey => hkey) trivial
  | dataExport streamId data => exact ⟨books_opened h data, delivered_concat⟩
  | streamRead streamId maxBytes => exact kept_read h streamId maxBytes
  | streamClose streamId => exact .of_none h (fun _ _ => readers_of_erase) trivial
  | shutdown => exact .of_none h (fun _ _ hkey => by simp [dispatch, closeAll, readers] at hkey) trivial

end Steps

/-- The books are right after every run, and it delivers everything exactly under the condition. -/
theorem run_kept (requests : List (Request ρ)) :
    Books (readers (run requests).1.cursors) ((run requests).2.flatMap cursorEvents) ∧
      Books (readers (run requests).1.streams) ((run requests).2.flatMap streamEvents) ∧
      (AllDelivered requests ↔ AllFit requests) := by
  induction requests using List.reverseRecOn with
  | nil =>
    refine ⟨fun key reader hkey => by simp [run, State.initial, readers] at hkey,
      fun key reader hkey => by simp [run, State.initial, readers] at hkey, ?_⟩
    exact ⟨fun _ => Machine.guarded_nil, fun _ => ⟨delivered_nil, delivered_nil⟩⟩
  -- a run is right exactly when its beginning is and its last request meets what the step needs
  | append_singleton requests request ih =>
    obtain ⟨hcursors, hstreams, hiff⟩ := ih
    have hcursor := kept_cursors hcursors request
    have hstream := kept_streams hstreams request
    have hrun : run (requests ++ [request]) = ((dispatch (run requests).1 request).1,
        (run requests).2 ++ [(request, (dispatch (run requests).1 request).2)]) :=
      Machine.run_concat _ _ _
    rw [AllDelivered, AllFit, Machine.guarded_concat, hrun, List.flatMap_append, List.flatMap_append,
      List.flatMap_singleton, List.flatMap_singleton]
    refine ⟨hcursor.books, hstream.books, ?_⟩
    rw [hcursor.delivered, hstream.delivered]
    rw [and_and_and_comm]
    exact and_congr hiff Iff.rfl

/-- **Every page is delivered** exactly if the offset and the limit of every request make up an `int`. -/
theorem delivered_iff (requests : List (Request ρ)) : AllDelivered requests ↔ AllFit requests :=
  (run_kept requests).2.2

/-- Two rows are kept, one of them is fetched, and the limit of the next request is the greatest `int`. -/
theorem page_lost : ¬ AllDelivered
    [.queryStart ⟨[false, true], by decide⟩, .cursorFetch "gbase8a-cursor-1" (some 1),
      .cursorFetch "gbase8a-cursor-1" (some 2147483647)] := by
  rintro ⟨hcursors, -⟩
  exact hcursors [.opened "gbase8a-cursor-1" [false, true], .read "gbase8a-cursor-1" [false] false]
    (.failed "gbase8a-cursor-1") [] (by decide +kernel)

end Cursors
end Gbase8a
end Navop
