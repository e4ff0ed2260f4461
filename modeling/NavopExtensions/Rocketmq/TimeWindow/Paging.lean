import NavopExtensions.Lib.Drain
import NavopExtensions.Rocketmq.TimeWindow

/-!
# Pages list every message once

As long as the queues of the brokers do not change, all pages of one size are cut out of the same scan:
a page for which the scan stops early sees a beginning of what the others see. The scan drains the
queues in turn, so the pages together list every message of the window once (`pages_list_window`), and
the rounds of a scan come to an end.

The flag for further pages is another matter. A page with entries claims that there are more, and so
does a page after the last entry if one of the queues is longer than a page; the last page with
entries is always wrong about it.
-/

namespace Navop
namespace Rocketmq

open Drain

/-- A queue of a broker from the begin of the window on: the index there, and the physical offsets
and messages that follow. -/
structure ConsumeQueue (μ : Type) where
  start : ℤ
  entries : List (ℤ × μ)

/-- **The queues do not change**: the brokers find the begin of the window, return the next entries
of a queue with its largest index, and find every message. -/
structure Brokers.Fixed {μ : Type} (brokers : Brokers μ) (beginUnixMs : ℤ)
    (queues : String → ℕ → ConsumeQueue μ) : Prop where
  search : ∀ addr queueId,
    brokers.searchOffset addr queueId beginUnixMs = .ok (some (queues addr queueId).start)
  query : ∀ addr queueId (i n : ℕ), i ≤ (queues addr queueId).entries.length →
    brokers.queryConsumeQueue addr queueId ((queues addr queueId).start + i) n
      = some ⟨(((queues addr queueId).entries.map Prod.fst).drop i).take n,
          (queues addr queueId).start + (queues addr queueId).entries.length - 1⟩
  view : ∀ addr queueId, ∀ entry ∈ (queues addr queueId).entries,
    brokers.viewMessage addr entry.1 = some entry.2

/-- The queue of a broker's name. -/
def queueAt {μ : Type} (addrs : Fields) (queues : String → ℕ → ConsumeQueue μ) (key : String × ℕ) :
    ConsumeQueue μ :=
  match addrs.lookup key.1 with
  | some addr => queues addr key.2
  | none => ⟨0, []⟩

/-- The queues of a topic that can be read. -/
def readableQueues (addrs : Fields) (route : TopicRouteData) : List (String × ℕ) :=
  (route.queueDatas.flatMap fun queue =>
    if queue.brokerName ∈ addrs then
      (List.range queue.readQueueNums.toNatClampNeg).map (queue.brokerName, ·)
    else []).dedup

theorem nodup_readableQueues (addrs : Fields) (route : TopicRouteData) :
    (readableQueues addrs route).Nodup := List.nodup_dedup _

variable {μ : Type} {brokers : Brokers μ} {addrs : Fields} {beginUnixMs endUnixMs : ℤ}
  {queues : String → ℕ → ConsumeQueue μ} {route : TopicRouteData} {batch limit : ℕ}
  {scans visits : List QueueScan} {scan : QueueScan} {state : ScanState}

/-- The entries of a queue as a scan lists them. -/
def named (addrs : Fields) (queues : String → ℕ → ConsumeQueue μ) (key : String × ℕ) :
    List (String × ℤ) :=
  (queueAt addrs queues key).entries.map fun entry => (key.1, entry.1)

@[simp] theorem length_named (key : String × ℕ) :
    (named addrs queues key).length = (queueAt addrs queues key).entries.length := List.length_map _

/-! ### Scans that are opened -/

/-- A scan of a queue that has entries. -/
structure Opened (addrs : Fields) (queues : String → ℕ → ConsumeQueue μ) (scan : QueueScan) :
    Prop where
  known : ∃ addr, addrs.lookup scan.brokerName = some addr
  index : scan.index = (queueAt addrs queues scan.key).start
  maxIndex : scan.maxIndex = (queueAt addrs queues scan.key).start
    + (queueAt addrs queues scan.key).entries.length - 1
  filled : 0 < (queueAt addrs queues scan.key).entries.length

theorem queueAt_of_lookup {name addr : String} (h : addrs.lookup name = some addr) (queueId : ℕ) :
    queueAt addrs queues (name, queueId) = queues addr queueId := by
  unfold queueAt
  rw [h]

theorem openScan_eq (hfixed : brokers.Fixed beginUnixMs queues) (name addr : String) (queueId : ℕ) :
    openScan brokers beginUnixMs name addr queueId
      = if 0 < (queues addr queueId).entries.length then
          some ⟨name, queueId, (queues addr queueId).start,
            (queues addr queueId).start + (queues addr queueId).entries.length - 1⟩
        else none := by
  have hquery := hfixed.query addr queueId 0 0 (Nat.zero_le _)
  rw [Nat.cast_zero, add_zero] at hquery
  simp only [openScan, hfixed.search, Option.getD_some, hquery]
  by_cases hfilled : 0 < (queues addr queueId).entries.length
  · have hindex : (queues addr queueId).start
        ≤ (queues addr queueId).start + (queues addr queueId).entries.length - 1 := by omega
    rw [if_pos hfilled]
    exact if_pos hindex
  · have hindex : ¬ (queues addr queueId).start
        ≤ (queues addr queueId).start + (queues addr queueId).entries.length - 1 := by omega
    rw [if_neg hfilled]
    exact if_neg hindex

theorem mem_queueScans (hfixed : brokers.Fixed beginUnixMs queues) :
    scan ∈ queueScans brokers addrs beginUnixMs route ↔
      scan.key ∈ readableQueues addrs route ∧ Opened addrs queues scan := by
  simp only [queueScans, readableQueues, List.mem_flatMap, List.mem_dedup]
  constructor
  · rintro ⟨queue, hqueue, hscan⟩
    cases haddr : addrs.lookup queue.brokerName with
    | none =>
      rw [haddr] at hscan
      exact absurd hscan List.not_mem_nil
    | some addr =>
      rw [haddr] at hscan
      obtain ⟨queueId, hid, hopen⟩ := List.mem_filterMap.mp hscan
      -- a queue that has no entries from the time on is not opened
      rw [openScan_eq hfixed] at hopen
      split at hopen
      · next hfilled =>
        obtain rfl := Option.some.inj hopen
        have hqueueAt : queueAt addrs queues (queue.brokerName, queueId) = queues addr queueId :=
          queueAt_of_lookup haddr queueId
        refine ⟨⟨queue, hqueue, ?_⟩, ⟨addr, haddr⟩, ?_, ?_, ?_⟩
        · rw [if_pos (Finmap.mem_of_lookup_eq_some haddr)]
          exact List.mem_map.mpr ⟨queueId, hid, rfl⟩
        · exact congrArg ConsumeQueue.start hqueueAt.symm
        · change (queues addr queueId).start + (queues addr queueId).entries.length - 1
            = (queueAt addrs queues (queue.brokerName, queueId)).start
              + (queueAt addrs queues (queue.brokerName, queueId)).entries.length - 1
          rw [hqueueAt]
        · change 0 < (queueAt addrs queues (queue.brokerName, queueId)).entries.length
          rw [hqueueAt]
          exact hfilled
      · exact absurd hopen (by simp)
  · rintro ⟨⟨queue, hqueue, hkey⟩, ⟨addr, haddr⟩, hindex, hmax, hfilled⟩
    split at hkey
    · obtain ⟨queueId, hid, hkey⟩ := List.mem_map.mp hkey
      obtain ⟨name, id, index, maxIndex⟩ := scan
      obtain ⟨rfl, rfl⟩ := Prod.mk.inj hkey
      have hqueueAt : queueAt addrs queues (queue.brokerName, queueId) = queues addr queueId :=
        queueAt_of_lookup haddr queueId
      refine ⟨queue, hqueue, ?_⟩
      change addrs.lookup queue.brokerName = some addr at haddr
      rw [haddr]
      refine List.mem_filterMap.mpr ⟨queueId, hid, ?_⟩
      change index = (queueAt addrs queues (queue.brokerName, queueId)).start at hindex
      change maxIndex = (queueAt addrs queues (queue.brokerName, queueId)).start
        + (queueAt addrs queues (queue.brokerName, queueId)).entries.length - 1 at hmax
      change 0 < (queueAt addrs queues (queue.brokerName, queueId)).entries.length at hfilled
      rw [hqueueAt] at hindex hmax hfilled
      rw [openScan_eq hfixed, if_pos hfilled, hindex, hmax]
    · exact absurd hkey List.not_mem_nil

/-! ### Visits -/

/-- The length of the queue of a scan. -/
def QueueScan.size (addrs : Fields) (queues : String → ℕ → ConsumeQueue μ) (scan : QueueScan) : ℕ :=
  (queueAt addrs queues scan.key).entries.length

/-- How often the queue of a scan is visited. -/
def visited (visits : List QueueScan) (scan : QueueScan) : ℕ :=
  (visits.map QueueScan.key).count scan.key

/-- The scan after some visits: what they drain is listed, the cursors stand behind it, and the flag
says whether a long queue was visited. -/
structure Scanned (addrs : Fields) (queues : String → ℕ → ConsumeQueue μ) (batch : ℕ)
    (scans visits : List QueueScan) (state : ScanState) : Prop where
  entries : state.entries = drained (named addrs queues) batch (visits.map QueueScan.key)
  cursor : ∀ scan ∈ scans, state.cursor.lookup scan.key
    = some (scan.index + (min (batch * visited visits scan) (scan.size addrs queues) : ℕ))
  more : state.hasMore = true ↔ ∃ scan ∈ visits, batch < scan.size addrs queues

theorem visited_concat_of_key_eq {scan' : QueueScan} (visits : List QueueScan)
    (h : scan'.key = scan.key) :
    visited (visits ++ [scan]) scan' = visited visits scan + 1 := by
  simp [visited, h]

theorem visited_concat_of_key_ne {scan' : QueueScan} (visits : List QueueScan)
    (h : scan'.key ≠ scan.key) : visited (visits ++ [scan]) scan' = visited visits scan' := by
  simp [visited, Ne.symm h]

theorem size_of_key_eq {scan' : QueueScan} (h : scan'.key = scan.key) :
    scan'.size addrs queues = scan.size addrs queues := by
  unfold QueueScan.size
  rw [h]

/-- A long queue that was visited has set the flag. -/
theorem Scanned.more_of_visited (h : Scanned addrs queues batch scans visits state)
    (hlong : batch < scan.size addrs queues) (hvisited : 0 < visited visits scan) :
    state.hasMore = true := by
  obtain ⟨scan', hscan', hkey⟩ := List.mem_map.mp (List.count_pos_iff.mp hvisited)
  refine h.more.mpr ⟨scan', hscan', ?_⟩
  rw [size_of_key_eq hkey]
  exact hlong

/-- **The visit of a queue that has been read to its end** does nothing. -/
theorem Scanned.visit_done (h : Scanned addrs queues batch scans visits state)
    (hdone : scan.size addrs queues ≤ batch * visited visits scan)
    (hfilled : 0 < scan.size addrs queues) :
    Scanned addrs queues batch scans (visits ++ [scan]) state := by
  refine ⟨?_, ?_, ?_⟩
  · rw [List.map_append, List.map_singleton, drained_concat, piece_eq_nil, List.append_nil]
    · exact h.entries
    · rw [length_named]
      exact hdone
  · intro scan' hscan'
    rw [h.cursor scan' hscan']
    -- a visit of a drained queue moves no cursor
    by_cases hkey : scan'.key = scan.key
    · have hsize : scan'.size addrs queues = scan.size addrs queues := size_of_key_eq hkey
      have hvisited : visited visits scan' = visited visits scan := by rw [visited, hkey, visited]
      rw [visited_concat_of_key_eq visits hkey, hsize, hvisited, Nat.mul_succ]
      congr 3
      omega
    · rw [visited_concat_of_key_ne visits hkey]
  · rw [h.more]
    simp only [List.mem_append, List.mem_singleton, or_and_right, exists_or, exists_eq_left]
    refine ⟨.inl, fun hmore => hmore.elim id fun hlong => h.more.mp ?_⟩
    refine h.more_of_visited hlong (Nat.pos_of_ne_zero fun hzero => ?_)
    rw [hzero, Nat.mul_zero] at hdone
    omega

/-- What the broker answers to the visit of a queue. -/
theorem query_visit (hfixed : brokers.Fixed beginUnixMs queues) (hopen : Opened addrs queues scan)
    {n : ℕ} (hn : n ≤ scan.size addrs queues) {addr : String}
    (haddr : addrs.lookup scan.brokerName = some addr) (count : ℕ) :
    brokers.queryConsumeQueue addr scan.queueId (scan.index + n) count
      = some ⟨(((queueAt addrs queues scan.key).entries.map Prod.fst).drop n).take count,
          scan.maxIndex⟩ := by
  have hqueue : queueAt addrs queues scan.key = queues addr scan.queueId :=
    queueAt_of_lookup haddr scan.queueId
  have hindex := hopen.index
  have hmax := hopen.maxIndex
  unfold QueueScan.size at hn
  rw [hqueue] at hindex hmax hn ⊢
  rw [hindex, hmax]
  exact hfixed.query addr scan.queueId n count hn

/-- The entries that a visit reads, as the scan lists them. -/
theorem map_read_eq_piece (n : ℕ) :
    ((((queueAt addrs queues scan.key).entries.map Prod.fst).drop (batch * n)).take batch).map
      (scan.brokerName, ·) = piece (named addrs queues) batch scan.key n := by
  rw [piece, named, List.map_take, List.map_drop, List.map_map]
  rfl

/-- **The visit of a queue that has more** lists its next entries. -/
theorem Scanned.visit_more (hfixed : brokers.Fixed beginUnixMs queues) (hbatch : 0 < batch)
    (h : Scanned addrs queues batch scans visits state) (hscan : scan ∈ scans)
    (hopen : ∀ scan ∈ scans, Opened addrs queues scan)
    (hmore : batch * visited visits scan < scan.size addrs queues) :
    Scanned addrs queues batch scans (visits ++ [scan]) (scanQueue brokers addrs batch state scan) ∧
      (scanQueue brokers addrs batch state scan).progressed = true := by
  obtain ⟨addr, haddr⟩ := (hopen scan hscan).known
  have hindex := (hopen scan hscan).index
  have hmax := (hopen scan hscan).maxIndex
  have hcurrent : (state.cursor.lookup scan.key).getD 0
      = scan.index + (batch * visited visits scan : ℕ) := by
    rw [h.cursor scan hscan, Option.getD_some, min_eq_left hmore.le]
  have hquery := query_visit hfixed (hopen scan hscan) hmore.le haddr batch
  -- what is read, and how much it is
  generalize hread : (((queueAt addrs queues scan.key).entries.map Prod.fst).drop
    (batch * visited visits scan)).take batch = read at hquery
  have hlength : read.length
      = min batch (scan.size addrs queues - batch * visited visits scan) := by
    rw [← hread, List.length_take, List.length_drop, List.length_map, QueueScan.size]
  have hsize : (scan.size addrs queues : ℤ) = (queueAt addrs queues scan.key).entries.length := rfl
  have hopenMax : ¬ scan.index + ((batch * visited visits scan : ℕ) : ℤ) > scan.maxIndex := by omega
  have hstep : scanQueue brokers addrs batch state scan
      = { entries := state.entries ++ read.map (scan.brokerName, ·)
          progressed := state.progressed || decide (read.length > 0)
          cursor := state.cursor.insert scan.key
            (if read.length > 0 then scan.index + (batch * visited visits scan : ℕ) + read.length
              else scan.maxIndex + 1)
          hasMore := state.hasMore || decide (scan.maxIndex
            ≥ scan.index + (batch * visited visits scan : ℕ) + read.length) } := by
    unfold scanQueue
    rw [hcurrent, if_neg hopenMax, haddr]
    simp only [hquery]
  have hpositive : read.length > 0 := by omega
  rw [hstep, if_pos hpositive]
  refine ⟨⟨?_, ?_, ?_⟩, ?_⟩
  · rw [List.map_append, List.map_singleton, drained_concat, ← h.entries, ← hread,
      map_read_eq_piece]
    rfl
  · intro scan' hscan'
    by_cases hkey : scan'.key = scan.key
    · have hindex' := (hopen scan' hscan').index
      rw [hkey, ← hindex] at hindex'
      rw [visited_concat_of_key_eq visits hkey, size_of_key_eq hkey, hkey, hindex', Nat.mul_succ]
      refine (Finmap.lookup_insert _).trans ?_
      congr 1
      omega
    · rw [visited_concat_of_key_ne visits hkey]
      exact (Finmap.lookup_insert_of_ne _ hkey).trans (h.cursor scan' hscan')
  · simp only [List.mem_append, List.mem_singleton, or_and_right, exists_or, exists_eq_left,
      Bool.or_eq_true, decide_eq_true_eq]
    rw [h.more]
    constructor
    · exact Or.imp_right fun hleft => by omega
    · rintro (hbefore | hlong)
      · exact .inl hbefore
      · by_cases hfirst : visited visits scan = 0
        · rw [hfirst, Nat.mul_zero] at hlength ⊢
          right
          omega
        · exact .inl (h.more.mp (h.more_of_visited hlong (Nat.pos_of_ne_zero hfirst)))
  · simp [hpositive]

/-- **A visit.** It makes progress if it lists anything. -/
theorem Scanned.visit (hfixed : brokers.Fixed beginUnixMs queues) (hbatch : 0 < batch)
    (h : Scanned addrs queues batch scans visits state) (hscan : scan ∈ scans)
    (hopen : ∀ scan ∈ scans, Opened addrs queues scan) :
    Scanned addrs queues batch scans (visits ++ [scan]) (scanQueue brokers addrs batch state scan) ∧
      ((scanQueue brokers addrs batch state scan).progressed = true ↔ state.progressed = true ∨
        state.entries.length < (scanQueue brokers addrs batch state scan).entries.length) := by
  by_cases hmore : batch * visited visits scan < scan.size addrs queues
  · obtain ⟨hscanned, hprogressed⟩ := h.visit_more hfixed hbatch hscan hopen hmore
    refine ⟨hscanned, iff_of_true hprogressed (.inr ?_)⟩
    rw [hscanned.entries, h.entries, List.map_append, List.map_singleton, drained_concat,
      List.length_append]
    refine Nat.lt_add_of_pos_right (List.length_pos_iff.mpr fun hnil => ?_)
    rw [piece_eq_nil_iff hbatch, length_named] at hnil
    exact absurd hmore (Nat.not_lt.mpr hnil)
  · have hdone := Nat.not_lt.mp hmore
    have hmax := (hopen scan hscan).maxIndex
    have hindex := (hopen scan hscan).index
    have hsize : (scan.size addrs queues : ℤ) = (queueAt addrs queues scan.key).entries.length := rfl
    -- the cursor stands behind the last entry, and the queue is passed over
    have hend : (state.cursor.lookup scan.key).getD 0 > scan.maxIndex := by
      rw [h.cursor scan hscan, Option.getD_some, min_eq_right hdone]
      omega
    have hstay : scanQueue brokers addrs batch state scan = state := if_pos hend
    rw [hstay]
    refine ⟨h.visit_done hdone (hopen scan hscan).filled, ?_⟩
    simp

/-! ### Rounds -/

/-- **A round** visits the queues in turn, up to the one with which enough is read. -/
theorem Scanned.round (hfixed : brokers.Fixed beginUnixMs queues) (hbatch : 0 < batch)
    (hopen : ∀ scan ∈ scans, Opened addrs queues scan) (limit : ℕ) {turn : List QueueScan}
    (hturn : ∀ scan ∈ turn, scan ∈ scans) (h : Scanned addrs queues batch scans visits state) :
    ∃ part, part <+: turn ∧ Scanned addrs queues batch scans (visits ++ part)
        (scanRound brokers addrs batch limit turn state) ∧
      (part = turn ∨ limit ≤ (scanRound brokers addrs batch limit turn state).entries.length) ∧
      ((scanRound brokers addrs batch limit turn state).progressed = true ↔
        state.progressed = true ∨ state.entries.length
          < (scanRound brokers addrs batch limit turn state).entries.length) := by
  induction turn generalizing visits state with
  | nil => exact ⟨[], List.prefix_rfl, by simpa [scanRound] using h, .inl rfl, by simp [scanRound]⟩
  | cons scan turn ih =>
    rw [scanRound]
    by_cases henough : state.entries.length ≥ limit
    · rw [if_pos henough]
      exact ⟨[], List.nil_prefix, by simpa using h, .inr henough, by simp⟩
    · rw [if_neg henough]
      obtain ⟨hvisit, hprogress⟩ := h.visit hfixed hbatch (hturn scan List.mem_cons_self) hopen
      obtain ⟨part, hpart, hscanned, hend, hprogress'⟩ :=
        ih (fun scan' hscan' => hturn scan' (List.mem_cons_of_mem _ hscan')) hvisit
      rw [List.append_assoc, List.singleton_append] at hscanned
      -- entries only come to the list
      have hgrows : (scanQueue brokers addrs batch state scan).entries.length
          ≤ (scanRound brokers addrs batch limit turn
            (scanQueue brokers addrs batch state scan)).entries.length := by
        rw [hscanned.entries, hvisit.entries]
        refine (drained_mono (List.IsPrefix.map _ ?_)).length_le
        exact (List.prefix_append_right_inj _).mpr (List.prefix_append [scan] part)
      have hgrows' : state.entries.length
          ≤ (scanQueue brokers addrs batch state scan).entries.length := by
        rw [hvisit.entries, h.entries, List.map_append]
        exact (drained_mono (List.prefix_append _ _)).length_le
      refine ⟨scan :: part, (List.prefix_cons_inj scan).mpr hpart, hscanned,
        hend.imp_left (congrArg _), ?_⟩
      rw [hprogress', hprogress, or_assoc]
      refine or_congr_right ?_
      omega

/-- **The rounds come to an end**, with enough read or with nothing left. -/
theorem Scanned.loop (hfixed : brokers.Fixed beginUnixMs queues) (hbatch : 0 < batch)
    (hopen : ∀ scan ∈ scans, Opened addrs queues scan) {limit fuel n : ℕ}
    (h : Scanned addrs queues batch scans (rounds n scans) state)
    (hfew : state.entries.length < limit) (hfuel : limit < fuel + state.entries.length) :
    ∃ last visits, scanLoop brokers addrs batch limit scans fuel state = some last ∧
      Scanned addrs queues batch scans visits last ∧ (∃ m, visits <+: rounds m scans) ∧
      (limit ≤ last.entries.length ∨
        Exhausted (named addrs queues) batch (scans.map QueueScan.key)
          (visits.map QueueScan.key)) := by
  induction fuel generalizing n state with
  | zero => omega
  | succ fuel ih =>
    have hfresh : Scanned addrs queues batch scans (rounds n scans)
        { state with progressed := false } := ⟨h.entries, h.cursor, h.more⟩
    obtain ⟨part, hpart, hscanned, hend, hprogress⟩ :=
      hfresh.round hfixed hbatch hopen limit fun _ hscan => hscan
    rw [scanLoop]
    generalize scanRound brokers addrs batch limit scans { state with progressed := false } = next
      at hscanned hend hprogress
    simp only [Bool.false_eq_true, false_or] at hprogress
    have hcycle : rounds n scans ++ part <+: rounds (n + 1) scans := by
      rw [rounds_succ]
      exact (List.prefix_append_right_inj _).mpr hpart
    cases hmoved : next.progressed with
    | false =>
      rw [if_pos (by simp)]
      refine ⟨next, _, rfl, hscanned, ⟨_, hcycle⟩, ?_⟩
      -- nothing was listed, so no queue was left out, and none has anything
      have hstill : ¬ state.entries.length < next.entries.length := by
        rw [← hprogress, hmoved]
        simp
      obtain rfl | henough := hend
      · right
        have hnil : drainFrom (named addrs queues) batch ((rounds n part).map QueueScan.key)
            (part.map QueueScan.key) = [] := by
          have hlength := congrArg List.length hscanned.entries
          rw [List.map_append, drained_append, List.length_append, ← h.entries] at hlength
          exact List.length_eq_zero_iff.mp (by omega)
        rw [List.map_append]
        exact exhausted_of_drainFrom_eq_nil hbatch hnil
      · exact .inl henough
    | true =>
      rw [if_neg (by simp)]
      by_cases henough : next.entries.length ≥ limit
      · rw [if_pos henough]
        exact ⟨next, _, rfl, hscanned, ⟨_, hcycle⟩, .inl henough⟩
      · rw [if_neg henough]
        obtain rfl := hend.resolve_right henough
        rw [← rounds_succ] at hscanned
        have hgrown := hprogress.mp hmoved
        exact ih hscanned (Nat.not_le.mp henough) (by omega)

/-- More rounds than needed make no difference. -/
theorem scanLoop_mono {fuel fuel' : ℕ} {last : ScanState}
    (h : scanLoop brokers addrs batch limit scans fuel state = some last) (hle : fuel ≤ fuel') :
    scanLoop brokers addrs batch limit scans fuel' state = some last := by
  induction fuel generalizing fuel' state with
  | zero => exact absurd h (by simp [scanLoop])
  | succ fuel ih =>
    obtain ⟨fuel', rfl⟩ := Nat.exists_eq_succ_of_ne_zero (Nat.ne_zero_of_lt hle)
    simp only [scanLoop] at h ⊢
    split at h
    · next hstill => rw [if_pos hstill, h]
    · next hmoved =>
      rw [if_neg hmoved]
      split at h
      · next henough => rw [if_pos henough, h]
      · next hfew =>
        rw [if_neg hfew]
        exact ih h (Nat.le_of_succ_le_succ hle)

/-- The cursors before the first round: scans of one queue begin at the same index. -/
theorem lookup_start (turn : List QueueScan) (cursor : Finmap fun _ : String × ℕ => ℤ)
    (hturn : ∀ scan ∈ turn, Opened addrs queues scan) (key : String × ℕ) :
    (turn.foldl (fun cursor scan => cursor.insert scan.key scan.index) cursor).lookup key
      = if key ∈ turn.map QueueScan.key then some (queueAt addrs queues key).start
        else cursor.lookup key := by
  induction turn generalizing cursor with
  | nil => simp
  | cons scan turn ih =>
    rw [List.foldl_cons, ih _ fun scan' hscan' => hturn scan' (List.mem_cons_of_mem _ hscan'),
      List.map_cons]
    by_cases hmem : key ∈ turn.map QueueScan.key
    · rw [if_pos hmem, if_pos (List.mem_cons_of_mem _ hmem)]
    · rw [if_neg hmem]
      by_cases hkey : key = scan.key
      · subst hkey
        rw [Finmap.lookup_insert, if_pos List.mem_cons_self, (hturn scan List.mem_cons_self).index]
      · rw [Finmap.lookup_insert_of_ne _ hkey, if_neg]
        exact fun hcons => (List.mem_cons.mp hcons).elim hkey hmem

theorem Scanned.start (hopen : ∀ scan ∈ scans, Opened addrs queues scan) :
    Scanned addrs queues batch scans [] (.start scans) := by
  refine ⟨rfl, ?_, by simp [ScanState.start]⟩
  intro scan hscan
  refine (lookup_start scans ∅ hopen scan.key).trans ?_
  rw [if_pos (List.mem_map_of_mem hscan), (hopen scan hscan).index]
  simp [visited]

/-! ### The listing -/

/-- What all pages are cut out of: the queues drained in turn, until nothing is left. -/
def listing (addrs : Fields) (queues : String → ℕ → ConsumeQueue μ) (batch : ℕ)
    (scans : List QueueScan) : List (String × ℤ) :=
  drained (named addrs queues) batch
    (rounds (scans.map (QueueScan.size addrs queues)).sum (scans.map QueueScan.key))

theorem exhausted_listing (hbatch : 0 < batch) (scans : List QueueScan) :
    Exhausted (named addrs queues) batch (scans.map QueueScan.key)
      (rounds (scans.map (QueueScan.size addrs queues)).sum (scans.map QueueScan.key)) := by
  intro key hkey
  obtain ⟨scan, hscan, rfl⟩ := List.mem_map.mp hkey
  calc (named addrs queues scan.key).length = scan.size addrs queues := length_named _
    _ ≤ (scans.map (QueueScan.size addrs queues)).sum :=
      List.le_sum_of_mem (List.mem_map_of_mem hscan)
    _ ≤ (rounds (scans.map (QueueScan.size addrs queues)).sum (scans.map QueueScan.key)).count
        scan.key := le_count_rounds _ hkey
    _ ≤ _ := Nat.le_mul_of_pos_left _ hbatch

/-- Everything is listed once. -/
theorem listing_perm (hbatch : 0 < batch) (scans : List QueueScan) :
    (listing addrs queues batch scans).Perm
      ((scans.map QueueScan.key).dedup.flatMap (named addrs queues)) := by
  refine drained_perm (List.nodup_dedup _) ?_ ?_
  · intro key hkey
    exact List.mem_dedup.mpr (mem_of_mem_rounds hkey)
  · intro key hkey
    exact exhausted_listing hbatch scans key (List.mem_dedup.mp hkey)

/-- **A scan that stops early** has read a beginning of the listing, or all of it. -/
theorem take_entries (hbatch : 0 < batch) (h : Scanned addrs queues batch scans visits state)
    (hcycle : ∃ m, visits <+: rounds m scans)
    (hend : limit ≤ state.entries.length ∨ Exhausted (named addrs queues) batch
      (scans.map QueueScan.key) (visits.map QueueScan.key)) :
    state.entries.take limit = (listing addrs queues batch scans).take limit := by
  obtain ⟨m, hcycle⟩ := hcycle
  have hkeys := hcycle.map QueueScan.key
  rw [map_rounds] at hkeys
  have hentries := h.entries
  -- the visits are in the order of the rounds, fewer of them or more than drain all the queues
  obtain hbefore | hafter := prefix_or_prefix_rounds hkeys (List.prefix_rfl :
    rounds (scans.map (QueueScan.size addrs queues)).sum (scans.map QueueScan.key) <+: _)
  · obtain henough | hexhausted := hend
    · have hbefore : state.entries <+: listing addrs queues batch scans :=
        hentries ▸ drained_mono hbefore
      obtain ⟨rest, hrest⟩ := hbefore
      rw [← hrest, List.take_append_of_le_length henough]
    · obtain ⟨rest, hrest⟩ := hbefore
      have hmem : ∀ key ∈ rest, key ∈ scans.map QueueScan.key := fun key hkey =>
        mem_of_mem_rounds (hrest ▸ List.mem_append_right _ hkey)
      rw [listing, ← hrest, drained_append_of_exhausted hexhausted hmem, hentries]
  · obtain ⟨rest, hrest⟩ := hafter
    have hmem : ∀ key ∈ rest, key ∈ scans.map QueueScan.key := fun key hkey =>
      mem_of_mem_rounds (hkeys.subset (hrest ▸ List.mem_append_right _ hkey))
    rw [hentries, ← hrest, drained_append_of_exhausted (exhausted_listing hbatch scans) hmem,
      listing]

/-- The listing of a topic for pages of a size. -/
def topicListing (brokers : Brokers μ) (queues : String → ℕ → ConsumeQueue μ)
    (route : TopicRouteData) (beginUnixMs : ℤ) (pageSize : ℕ) : List (String × ℤ) :=
  listing (brokerAddrs route) queues (clampPageSize pageSize)
    (queueScans brokers (brokerAddrs route) beginUnixMs route)

/-- The entries of a page, the first page being 0. -/
def pageEntries (brokers : Brokers μ) (queues : String → ℕ → ConsumeQueue μ)
    (route : TopicRouteData) (beginUnixMs : ℤ) (pageSize n : ℕ) : List (String × ℤ) :=
  ((topicListing brokers queues route beginUnixMs pageSize).drop (n * clampPageSize pageSize)).take
    (clampPageSize pageSize)

/-- The messages of a page, the first page being 0. -/
def pageMessages (brokers : Brokers μ) (queues : String → ℕ → ConsumeQueue μ)
    (route : TopicRouteData) (beginUnixMs endUnixMs : ℤ) (pageSize n : ℕ) : List μ :=
  (pageEntries brokers queues route beginUnixMs pageSize n).filterMap
    (viewEntry brokers (brokerAddrs route) endUnixMs)

theorem clampPageSize_pos (pageSize : ℕ) : 0 < clampPageSize pageSize := by
  unfold clampPageSize messagePageMax
  omega

theorem flatMap_pageEntries (pageSize n : ℕ) :
    (List.range n).flatMap (pageEntries brokers queues route beginUnixMs pageSize)
      = (topicListing brokers queues route beginUnixMs pageSize).take
          (n * clampPageSize pageSize) := by
  induction n with
  | zero => simp
  | succ n ih =>
    rw [List.range_succ, List.flatMap_append, ih, List.flatMap_singleton, pageEntries,
      Nat.succ_mul, List.take_add]

theorem topicListing_of_nil (h : queueScans brokers (brokerAddrs route) beginUnixMs route = [])
    (pageSize : ℕ) : topicListing brokers queues route beginUnixMs pageSize = [] := by
  unfold topicListing listing
  rw [h]
  rfl

/-- **A page.** Its scan ends, its messages are those of its entries, and it claims that there are
more if it has any entries. -/
theorem query_page (hfixed : brokers.Fixed beginUnixMs queues) (route : TopicRouteData)
    (endUnixMs : ℤ) (pageSize n : ℕ) :
    ∃ hasMore, (pageEntries brokers queues route beginUnixMs pageSize n ≠ [] → hasMore = true) ∧
      (queueScans brokers (brokerAddrs route) beginUnixMs route = [] → hasMore = false) ∧
      ∀ fuel, (n + 1) * clampPageSize pageSize < fuel →
        queryByTimeWindow brokers route beginUnixMs endUnixMs fuel (n + 1) pageSize
          = some ⟨pageMessages brokers queues route beginUnixMs endUnixMs pageSize n,
            (pageMessages brokers queues route beginUnixMs endUnixMs pageSize n).length,
            hasMore⟩ := by
  have hbatch := clampPageSize_pos pageSize
  by_cases hscans : queueScans brokers (brokerAddrs route) beginUnixMs route = []
  · have hnone : pageEntries brokers queues route beginUnixMs pageSize n = [] := by
      rw [pageEntries, topicListing_of_nil hscans, List.drop_nil, List.take_nil]
    refine ⟨false, fun hsome => absurd hnone hsome, fun _ => rfl, fun fuel _ => ?_⟩
    simp [queryByTimeWindow, hscans, pageMessages, hnone]
  · have hopen : ∀ scan ∈ queueScans brokers (brokerAddrs route) beginUnixMs route,
        Opened (brokerAddrs route) queues scan := fun scan hscan =>
      ((mem_queueScans hfixed).mp hscan).2
    have hstart : Scanned (brokerAddrs route) queues (clampPageSize pageSize)
        (queueScans brokers (brokerAddrs route) beginUnixMs route)
        (rounds 0 (queueScans brokers (brokerAddrs route) beginUnixMs route))
        (.start (queueScans brokers (brokerAddrs route) beginUnixMs route)) := Scanned.start hopen
    have hlimit : 0 < n * clampPageSize pageSize + clampPageSize pageSize :=
      Nat.add_pos_right _ hbatch
    obtain ⟨last, visits, hlast, hscanned, hcycle, hend⟩ :=
      hstart.loop hfixed hbatch hopen hlimit (Nat.lt_succ_self _)
    -- the scan has stopped at the limit or at the end, and the page is cut from what it has
    have hselected : (last.entries.drop (n * clampPageSize pageSize)).take (clampPageSize pageSize)
        = pageEntries brokers queues route beginUnixMs pageSize n := by
      have htake := take_entries hbatch hscanned hcycle hend
      rw [pageEntries, List.take_drop, List.take_drop, topicListing, htake]
    refine ⟨last.hasMore || !(pageEntries brokers queues route beginUnixMs pageSize n).isEmpty,
      fun hsome => by simp [hsome], fun hnil => absurd hnil hscans, fun fuel hfuel => ?_⟩
    rw [Nat.succ_mul] at hfuel
    -- more fuel than that gives the same
    have hsame : scanLoop brokers (brokerAddrs route) (clampPageSize pageSize)
        (n * clampPageSize pageSize + clampPageSize pageSize)
        (queueScans brokers (brokerAddrs route) beginUnixMs route) fuel
        (.start (queueScans brokers (brokerAddrs route) beginUnixMs route)) = some last :=
      scanLoop_mono hlast hfuel
    simp only [queryByTimeWindow, List.isEmpty_iff, if_neg hscans, Nat.le_add_left, max_eq_left,
      Nat.add_sub_cancel, hsame, pageMessages, ← hselected]
    rfl

/-! ### The messages of the window -/

/-- The messages of a queue that are not after the end of the window. -/
def queueMessages (brokers : Brokers μ) (addrs : Fields) (queues : String → ℕ → ConsumeQueue μ)
    (endUnixMs : ℤ) (key : String × ℕ) : List μ :=
  ((queueAt addrs queues key).entries.map Prod.snd).filter fun message =>
    brokers.storeTimestamp message ≤ endUnixMs

/-- The messages of a topic from the begin of the window to its end, queue by queue. -/
def windowMessages (brokers : Brokers μ) (queues : String → ℕ → ConsumeQueue μ)
    (route : TopicRouteData) (endUnixMs : ℤ) : List μ :=
  (readableQueues (brokerAddrs route) route).flatMap
    (queueMessages brokers (brokerAddrs route) queues endUnixMs)

theorem viewEntry_eq (hfixed : brokers.Fixed beginUnixMs queues) {key : String × ℕ} {addr : String}
    (haddr : addrs.lookup key.1 = some addr) {entry : ℤ × μ}
    (hentry : entry ∈ (queueAt addrs queues key).entries) :
    viewEntry brokers addrs endUnixMs (key.1, entry.1)
      = if brokers.storeTimestamp entry.2 ≤ endUnixMs then some entry.2 else none := by
  rw [queueAt_of_lookup haddr key.2] at hentry
  have hview := hfixed.view addr key.2 entry hentry
  simp only [viewEntry, haddr, hview, Option.bind_eq_bind, Option.bind_some]
  by_cases hlate : brokers.storeTimestamp entry.2 > endUnixMs
  · rw [if_pos hlate, if_neg (not_le.mpr hlate)]
  · rw [if_neg hlate, if_pos (not_lt.mp hlate)]

/-- The messages of the entries of a queue. -/
theorem filterMap_named (hfixed : brokers.Fixed beginUnixMs queues) {key : String × ℕ}
    (hknown : ∃ addr, addrs.lookup key.1 = some addr) :
    (named addrs queues key).filterMap (viewEntry brokers addrs endUnixMs)
      = queueMessages brokers addrs queues endUnixMs key := by
  obtain ⟨addr, haddr⟩ := hknown
  have hview : ∀ entry ∈ (queueAt addrs queues key).entries,
      viewEntry brokers addrs endUnixMs (key.1, entry.1)
        = if brokers.storeTimestamp entry.2 ≤ endUnixMs then some entry.2 else none :=
    fun entry hentry => viewEntry_eq hfixed haddr hentry
  unfold named queueMessages
  generalize (queueAt addrs queues key).entries = entries at hview
  induction entries with
  | nil => rfl
  | cons entry entries ih =>
    have hrest := ih fun entry' hentry' => hview entry' (List.mem_cons_of_mem _ hentry')
    rw [List.map_cons, List.filterMap_cons, hview entry List.mem_cons_self, List.map_cons,
      List.filter_cons]
    by_cases hin : brokers.storeTimestamp entry.2 ≤ endUnixMs
    · rw [if_pos hin, if_pos (decide_eq_true hin), hrest]
    · rw [if_neg hin, if_neg (by simpa using hin), hrest]

/-- A queue that can be read has entries exactly when it is scanned. -/
theorem mem_scanned_keys (hfixed : brokers.Fixed beginUnixMs queues) (key : String × ℕ) :
    key ∈ (queueScans brokers addrs beginUnixMs route).map QueueScan.key ↔
      key ∈ readableQueues addrs route ∧ (queueAt addrs queues key).entries ≠ [] := by
  constructor
  · intro hkey
    obtain ⟨scan, hscan, rfl⟩ := List.mem_map.mp hkey
    obtain ⟨hreadable, hopen⟩ := (mem_queueScans hfixed).mp hscan
    exact ⟨hreadable, List.length_pos_iff.mp hopen.filled⟩
  · rintro ⟨hreadable, hfilled⟩
    refine List.mem_map.mpr ⟨⟨key.1, key.2, (queueAt addrs queues key).start,
      (queueAt addrs queues key).start + (queueAt addrs queues key).entries.length - 1⟩, ?_, rfl⟩
    refine (mem_queueScans hfixed).mpr ⟨hreadable, ?_, rfl, rfl, List.length_pos_iff.mpr hfilled⟩
    unfold queueAt at hfilled
    split at hfilled
    · next addr haddr => exact ⟨addr, haddr⟩
    · exact absurd rfl hfilled

/-- Lists that are empty do not count. -/
theorem flatMap_filter_of_nil {κ α : Type} {keys : List κ} {f : κ → List α} {p : κ → Bool}
    (h : ∀ k, p k = false → f k = []) : (keys.filter p).flatMap f = keys.flatMap f := by
  induction keys with
  | nil => rfl
  | cons k keys ih =>
    rw [List.filter_cons, List.flatMap_cons]
    cases hk : p k with
    | true => rw [if_pos rfl, List.flatMap_cons, ih]
    | false => rw [if_neg Bool.false_ne_true, ih, h k hk, List.nil_append]

/-- **The listing holds the messages of the window**, each once. -/
theorem topicListing_perm (hfixed : brokers.Fixed beginUnixMs queues) (route : TopicRouteData)
    (endUnixMs : ℤ) (pageSize : ℕ) :
    ((topicListing brokers queues route beginUnixMs pageSize).filterMap
      (viewEntry brokers (brokerAddrs route) endUnixMs)).Perm
        (windowMessages brokers queues route endUnixMs) := by
  have hkeys : ∀ key, key ∈ (queueScans brokers (brokerAddrs route) beginUnixMs route).map
      QueueScan.key ↔ key ∈ readableQueues (brokerAddrs route) route ∧
        (queueAt (brokerAddrs route) queues key).entries ≠ [] := mem_scanned_keys hfixed
  generalize hscans : queueScans brokers (brokerAddrs route) beginUnixMs route = scans at hkeys
  -- the queues that are scanned are those with entries
  have hqueues : (scans.map QueueScan.key).dedup.Perm
      ((readableQueues (brokerAddrs route) route).filter fun key =>
        !(queueAt (brokerAddrs route) queues key).entries.isEmpty) := by
    refine (List.perm_ext_iff_of_nodup (List.nodup_dedup _)
      ((nodup_readableQueues _ route).filter _)).mpr fun key => ?_
    rw [List.mem_dedup, hkeys, List.mem_filter]
    simp
  calc ((topicListing brokers queues route beginUnixMs pageSize).filterMap
        (viewEntry brokers (brokerAddrs route) endUnixMs)).Perm
        (((scans.map QueueScan.key).dedup.flatMap (named (brokerAddrs route) queues)).filterMap
          (viewEntry brokers (brokerAddrs route) endUnixMs)) := by
        rw [topicListing, hscans]
        exact (listing_perm (clampPageSize_pos pageSize) scans).filterMap _
    _ = (scans.map QueueScan.key).dedup.flatMap
        (queueMessages brokers (brokerAddrs route) queues endUnixMs) := by
        rw [List.filterMap_flatMap]
        refine List.flatMap_congr fun key hkey => filterMap_named hfixed ?_
        obtain ⟨scan, hscan, rfl⟩ := List.mem_map.mp (List.mem_dedup.mp hkey)
        rw [← hscans] at hscan
        exact ((mem_queueScans hfixed).mp hscan).2.known
    List.Perm _ (((readableQueues (brokerAddrs route) route).filter fun key =>
          !(queueAt (brokerAddrs route) queues key).entries.isEmpty).flatMap
        (queueMessages brokers (brokerAddrs route) queues endUnixMs)) := hqueues.flatMap_right _
    _ = windowMessages brokers queues route endUnixMs := by
        refine flatMap_filter_of_nil fun key hkey => ?_
        have hempty : (queueAt (brokerAddrs route) queues key).entries = [] := by simpa using hkey
        rw [queueMessages, hempty]
        rfl

/-- A topic with queues to scan lists something. -/
theorem topicListing_ne_nil (hfixed : brokers.Fixed beginUnixMs queues)
    (hscans : queueScans brokers (brokerAddrs route) beginUnixMs route ≠ []) (pageSize : ℕ) :
    topicListing brokers queues route beginUnixMs pageSize ≠ [] := by
  obtain ⟨scan, hscan⟩ := List.exists_mem_of_ne_nil _ hscans
  have hfilled := ((mem_queueScans hfixed).mp hscan).2.filled
  obtain ⟨entry, hentry⟩ := List.exists_mem_of_length_pos
    ((length_named scan.key).symm ▸ hfilled : 0 < (named (brokerAddrs route) queues scan.key).length)
  have hmem : entry ∈ topicListing brokers queues route beginUnixMs pageSize :=
    (listing_perm (clampPageSize_pos pageSize) _).mem_iff.mpr (List.mem_flatMap.mpr
      ⟨scan.key, List.mem_dedup.mpr (List.mem_map_of_mem hscan), hentry⟩)
  exact List.ne_nil_of_mem hmem

/-- A list that is not empty has a last page with entries. -/
theorem exists_last_page {α : Type} {entries : List α} (hbatch : 0 < batch) (h : entries ≠ []) :
    ∃ n, (entries.drop (n * batch)).take batch ≠ [] ∧
      ∀ m, n < m → (entries.drop (m * batch)).take batch = [] := by
  have hpos := List.length_pos_iff.mpr h
  have hdiv := Nat.div_add_mod (entries.length - 1) batch
  have hmod := Nat.mod_lt (entries.length - 1) hbatch
  rw [mul_comm] at hdiv
  refine ⟨(entries.length - 1) / batch, ?_, fun m hm => ?_⟩
  · rw [Ne, ← List.length_eq_zero_iff, List.length_take, List.length_drop]
    omega
  · have hle : ((entries.length - 1) / batch + 1) * batch ≤ m * batch := Nat.mul_le_mul_right batch hm
    rw [Nat.succ_mul] at hle
    rw [List.drop_eq_nil_of_le (by omega), List.take_nil]

/-- **Pages list every message of the window once**, and their scans come to an end: from some number
of pages on, the pages together hold the messages of the readable queues from the begin of the window
that are not after its end, each once. Their flags for further pages are all right exactly when the
readable queues have no messages from the begin of the window on. -/
theorem pages_list_window (hfixed : brokers.Fixed beginUnixMs queues) (route : TopicRouteData)
    (endUnixMs : ℤ) (pageSize : ℕ) :
    ∃ pages : ℕ → MessagePage μ,
      (∀ page fuel, max page 1 * clampPageSize pageSize < fuel →
        queryByTimeWindow brokers route beginUnixMs endUnixMs fuel page pageSize
          = some (pages page)) ∧
      (∃ last, ∀ n ≥ last, ((List.range n).flatMap fun i => (pages (i + 1)).messages).Perm
        (windowMessages brokers queues route endUnixMs)) ∧
      ((∀ page ≥ 1, (pages page).hasMore = true ↔
          ∃ later > page, (pages later).messages ≠ []) ↔
        ∀ key ∈ readableQueues (brokerAddrs route) route,
          (queueAt (brokerAddrs route) queues key).entries = []) := by
  choose hasMore hsome hnone hquery using query_page hfixed route endUnixMs pageSize
  have hbatch := clampPageSize_pos pageSize
  refine ⟨fun page => ⟨pageMessages brokers queues route beginUnixMs endUnixMs pageSize (page - 1),
    (pageMessages brokers queues route beginUnixMs endUnixMs pageSize (page - 1)).length,
    hasMore (page - 1)⟩, ?_, ?_, ?_⟩
  · intro page fuel hfuel
    have hpage : queryByTimeWindow brokers route beginUnixMs endUnixMs fuel page pageSize
        = queryByTimeWindow brokers route beginUnixMs endUnixMs fuel (page - 1 + 1) pageSize := by
      have hmax : max page 1 = max (page - 1 + 1) 1 := by omega
      simp only [queryByTimeWindow, hmax]
    rw [hpage]
    refine hquery (page - 1) fuel ?_
    rw [show page - 1 + 1 = max page 1 by omega]
    exact hfuel
  · -- the pages cover the listing once they are as many as it has entries
    refine ⟨(topicListing brokers queues route beginUnixMs pageSize).length, fun n hn => ?_⟩
    have hmessages : (List.range n).flatMap
        (pageMessages brokers queues route beginUnixMs endUnixMs pageSize)
          = (topicListing brokers queues route beginUnixMs pageSize).filterMap
            (viewEntry brokers (brokerAddrs route) endUnixMs) := by
      have hcover : (topicListing brokers queues route beginUnixMs pageSize).length
          ≤ n * clampPageSize pageSize := hn.le.trans (Nat.le_mul_of_pos_right n hbatch)
      rw [← List.take_of_length_le hcover, ← flatMap_pageEntries, List.filterMap_flatMap]
      rfl
    simp only [Nat.add_sub_cancel]
    exact hmessages ▸ topicListing_perm hfixed route endUnixMs pageSize
  · have hscans : (∀ key ∈ readableQueues (brokerAddrs route) route,
        (queueAt (brokerAddrs route) queues key).entries = []) ↔
        queueScans brokers (brokerAddrs route) beginUnixMs route = [] := by
      rw [← List.map_eq_nil_iff (f := QueueScan.key), List.eq_nil_iff_forall_not_mem]
      refine forall_congr' fun key => ?_
      rw [mem_scanned_keys hfixed]
      tauto
    rw [hscans]
    constructor
    · intro hflags
      by_contra hfilled
      obtain ⟨n, hentries, hlater⟩ :=
        exists_last_page hbatch (topicListing_ne_nil hfixed hfilled pageSize)
      -- the last page with entries claims that there are more
      obtain ⟨later, hlt, hmessages⟩ := (hflags (n + 1) (Nat.le_add_left 1 n)).mp (hsome n hentries)
      refine hmessages ?_
      change pageMessages brokers queues route beginUnixMs endUnixMs pageSize (later - 1) = []
      rw [pageMessages, pageEntries, hlater (later - 1) (Nat.lt_sub_of_add_lt hlt)]
      rfl
    · intro hnil page _
      refine iff_of_false (by simp [hnone (page - 1) hnil]) ?_
      rintro ⟨later, -, hlater⟩
      refine hlater ?_
      simp only [pageMessages, pageEntries, topicListing_of_nil hnil, List.drop_nil, List.take_nil,
        List.filterMap_nil]

/-! ### A topic with one message -/

/-- A queue with a message of the time `1000`. -/
def loneQueue : ConsumeQueue ℤ := ⟨5, [(700, 1000)]⟩

/-- Brokers with that queue. A message is its time. -/
def loneBrokers : Brokers ℤ where
  searchOffset _ _ _ := .ok (some loneQueue.start)
  queryConsumeQueue _ _ index count :=
    some ⟨((loneQueue.entries.map Prod.fst).drop (index - loneQueue.start).toNat).take count,
      loneQueue.start + loneQueue.entries.length - 1⟩
  viewMessage _ offset := (loneQueue.entries.find? fun entry => entry.1 == offset).map Prod.snd
  storeTimestamp message := message

/-- A topic with one queue. -/
def loneRoute : TopicRouteData where
  queueDatas := [⟨"broker-a", 1, 1, 6⟩]
  brokerDatas := [⟨"broker-a", [(0, "10.0.0.1:10911")]⟩]

theorem fixed_loneBrokers : loneBrokers.Fixed 900 fun _ _ => loneQueue where
  search _ _ := rfl
  query _ _ i n _ := by simp [loneBrokers]
  view _ _ entry hentry := by
    obtain rfl : entry = (700, 1000) := List.mem_singleton.mp hentry
    rfl

theorem pages_list_window_lone :
    ∃ pages : ℕ → MessagePage ℤ,
      (∀ page fuel, max page 1 * 10 < fuel →
        queryByTimeWindow loneBrokers loneRoute 900 2000 fuel page 10 = some (pages page)) ∧
      ∃ last, ∀ n ≥ last,
        ((List.range n).flatMap fun i => (pages (i + 1)).messages).Perm [1000] := by
  obtain ⟨pages, hpages, hlist, -⟩ := pages_list_window fixed_loneBrokers loneRoute 2000 10
  exact ⟨pages, hpages, hlist⟩

theorem topicListing_lone :
    topicListing loneBrokers (fun _ _ => loneQueue) loneRoute 900 10 = [("broker-a", 700)] := by
  rfl

/-- The page with the message claims that there are more, and no later page has any. -/
theorem last_page_claims_more :
    loneBrokers.Fixed 900 (fun _ _ => loneQueue) ∧
      queryByTimeWindow loneBrokers loneRoute 900 2000 11 1 10 = some ⟨[1000], 1, true⟩ ∧
      ∀ later > 1, ∃ hasMore, ∀ fuel, later * 10 < fuel →
        queryByTimeWindow loneBrokers loneRoute 900 2000 fuel later 10 = some ⟨[], 0, hasMore⟩ := by
  refine ⟨fixed_loneBrokers, rfl, fun later hlater => ?_⟩
  obtain ⟨n, rfl⟩ : ∃ n, later = n + 1 + 1 := ⟨later - 2, by omega⟩
  obtain ⟨hasMore, -, -, hpage⟩ := query_page fixed_loneBrokers loneRoute 2000 10 (n + 1)
  have hnone : pageMessages loneBrokers (fun _ _ => loneQueue) loneRoute 900 2000 10 (n + 1) = [] := by
    rw [pageMessages, pageEntries, topicListing_lone, List.drop_eq_nil_of_le, List.take_nil]
    · rfl
    · change 1 ≤ (n + 1) * 10
      omega
  rw [hnone] at hpage
  exact ⟨hasMore, hpage⟩

end Rocketmq
end Navop
