import NavopExtensions.Rocketmq.Command

/-!
# Messages of a time window, page by page

`RocketmqConnection::query_by_time_window` of `rocketmq/src/admin.rs`. A page is cut out of a scan
over the queues of a topic: the queues are visited in turn, every visit reads a page's worth of
entries at the cursor of its queue, and the scan stops when it has read enough or when a round over all
queues has read nothing. The messages of the entries are fetched one by one, and those after the end
of the window are left out.

What the brokers answer is a parameter, and so are the messages. An answer that cannot be decoded is
one that did not come.
-/

namespace Navop
namespace Rocketmq

/-- `QueryConsumeQueueResponseBodyBody`: the physical offsets of the entries, and the largest index. -/
structure ConsumeQueueBody where
  queueData : List ℤ
  maxQueueIndex : ℤ

/-- What the brokers answer, for an address: the index for a point in time, the entries of a queue
from an index on, and the message at a physical offset. -/
structure Brokers (μ : Type) where
  searchOffset : String → ℕ → ℤ → Except RocketmqError (Option ℤ)
  queryConsumeQueue : String → ℕ → ℤ → ℕ → Option ConsumeQueueBody
  viewMessage : String → ℤ → Option μ
  storeTimestamp : μ → ℤ

/-- The addresses of the brokers, by name. -/
def brokerAddrs (route : TopicRouteData) : Fields :=
  route.brokerDatas.foldl (fun addrs broker =>
    match broker.selectBrokerAddr with
    | some addr => addrs.insert broker.brokerName addr
    | none => addrs) ∅

/-- `QueueScan`: a queue, and the offsets between which it is read. -/
structure QueueScan where
  brokerName : String
  queueId : ℕ
  index : ℤ
  maxIndex : ℤ

/-- The key of a queue in the table of cursors. -/
def QueueScan.key (scan : QueueScan) : String × ℕ := (scan.brokerName, scan.queueId)

/-- `MESSAGE_PAGE_MAX`: the messages of a page at most. -/
def messagePageMax : ℕ := 100

/-- `page_size.clamp(1, MESSAGE_PAGE_MAX)`: at least one message. -/
def clampPageSize (pageSize : ℕ) : ℕ := min (max pageSize 1) messagePageMax

/-- What a scan has found, and its cursors. -/
structure ScanState where
  entries : List (String × ℤ)
  hasMore : Bool
  cursor : Finmap fun _ : String × ℕ => ℤ
  progressed : Bool

/-- `MessagePage`: the messages of a page, how many were found, and whether more follow. -/
structure MessagePage (μ : Type) where
  messages : List μ
  total : ℕ
  hasMore : Bool

section TimeWindow

variable {μ : Type} (brokers : Brokers μ) (addrs : Fields)

/-- The scan of a queue, from the index of the window's begin; a queue without entries is not
scanned. -/
def openScan (beginUnixMs : ℤ) (brokerName addr : String) (queueId : ℕ) : Option QueueScan :=
  let index := match brokers.searchOffset addr queueId beginUnixMs with
    | .ok offset => offset.getD 0
    | .error _ => 0
  let maxIndex := match brokers.queryConsumeQueue addr queueId index 0 with
    | some body => body.maxQueueIndex
    | none => index - 1
  if maxIndex ≥ index then some ⟨brokerName, queueId, index, maxIndex⟩ else none

/-- The scans of a topic's queues. -/
def queueScans (beginUnixMs : ℤ) (route : TopicRouteData) : List QueueScan :=
  route.queueDatas.flatMap fun queue =>
    match addrs.lookup queue.brokerName with
    | none => []
    | some addr =>
      (List.range queue.readQueueNums.toNatClampNeg).filterMap
        (openScan brokers beginUnixMs queue.brokerName addr)

/-- A queue is visited. -/
def scanQueue (batch : ℕ) (state : ScanState) (scan : QueueScan) : ScanState :=
  let current := (state.cursor.lookup scan.key).getD 0
  if current > scan.maxIndex then state
  else
    match addrs.lookup scan.brokerName with
    | none => state
    | some addr =>
      match brokers.queryConsumeQueue addr scan.queueId current batch with
      | none => state
      | some body =>
        let count := body.queueData.length
        { entries := state.entries ++ body.queueData.map (scan.brokerName, ·)
          progressed := state.progressed || decide (count > 0)
          cursor := state.cursor.insert scan.key
            (if count > 0 then current + count else scan.maxIndex + 1)
          hasMore := state.hasMore || decide (body.maxQueueIndex ≥ current + count) }

/-- A round over the queues, cut off when enough is read. -/
def scanRound (batch limit : ℕ) : List QueueScan → ScanState → ScanState
  | [], state => state
  | scan :: scans, state =>
    if state.entries.length ≥ limit then state
    else scanRound batch limit scans (scanQueue brokers addrs batch state scan)

/-- Rounds, until one reads nothing or enough is read; `none` if they are not over after `fuel`
rounds. -/
def scanLoop (batch limit : ℕ) (scans : List QueueScan) : ℕ → ScanState → Option ScanState
  | 0, _ => none
  | fuel + 1, state =>
    let state := scanRound brokers addrs batch limit scans { state with progressed := false }
    if !state.progressed then some state
    else if state.entries.length ≥ limit then some state
    else scanLoop batch limit scans fuel state

/-- The scan before its first round. -/
def ScanState.start (scans : List QueueScan) : ScanState where
  entries := []
  hasMore := false
  cursor := scans.foldl (fun cursor scan => cursor.insert scan.key scan.index) ∅
  progressed := false

/-- The message of an entry, unless it cannot be fetched or is after the end of the window. -/
def viewEntry (endUnixMs : ℤ) (entry : String × ℤ) : Option μ := do
  let addr ← addrs.lookup entry.1
  let stored ← brokers.viewMessage addr entry.2
  if brokers.storeTimestamp stored > endUnixMs then none else some stored

/-- `RocketmqConnection::query_by_time_window`, with a number of rounds for the scan. -/
def queryByTimeWindow (route : TopicRouteData) (beginUnixMs endUnixMs : ℤ) (fuel page pageSize : ℕ) :
    Option (MessagePage μ) :=
  let page := max page 1
  let batch := clampPageSize pageSize
  let skip := (page - 1) * batch
  let addrs := brokerAddrs route
  let scans := queueScans brokers addrs beginUnixMs route
  if scans.isEmpty then some ⟨[], 0, false⟩
  else do
    let state ← scanLoop brokers addrs batch (skip + batch) scans fuel (.start scans)
    let selected := (state.entries.drop skip).take batch
    let messages := selected.filterMap (viewEntry brokers addrs endUnixMs)
    return ⟨messages, messages.length, state.hasMore || !selected.isEmpty⟩

end TimeWindow

end Rocketmq
end Navop
