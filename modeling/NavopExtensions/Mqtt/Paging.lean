import NavopExtensions.Lib.Chunks
import NavopExtensions.Mqtt.Admin

/-!
# Queries of the message history

`mqtt/src/admin.rs`: `filter_and_paginate` selects buffered messages and returns a page of them, and
`mqtt_topic_match` is the wildcard match of topics. The local time of a point in time and
`str::to_lowercase` are parameters.

`pages_partition` says that the pages of a query for a time window are those of the messages in it, and
`matchParts_iff` what the match means for the levels of a topic.
-/

namespace Navop
namespace Mqtt

open Saturating

/-! ### Topics -/

/-- The levels of a topic. -/
def levels (topic : String) : List (List Char) := topic.toList.splitOn '/'

/-- The loop of `mqtt_topic_match`, at the levels that are left. -/
def matchParts : List (List Char) → List (List Char) → Bool
  | [], topicParts => topicParts.isEmpty
  | part :: filterParts, topicParts =>
    if part = ['#'] then filterParts.isEmpty
    else
      match topicParts with
      | [] => false
      | level :: topicParts =>
        if part = ['+'] then matchParts filterParts topicParts
        else if part ≠ level then false
        else matchParts filterParts topicParts

/-- `mqtt_topic_match`: level by level. -/
def mqttTopicMatch (filter topic : String) : Bool := matchParts (levels filter) (levels topic)

/-- A level of a filter at a level of a topic. -/
def LevelMatches (part level : List Char) : Prop := part = ['+'] ∨ part = level

/-- The levels of a filter match those of a topic one by one; a final `#` matches what is left, and
there is no other `#`. -/
def TopicMatches (filter topic : List (List Char)) : Prop :=
  (['#'] ∉ filter ∧ List.Forall₂ LevelMatches filter topic) ∨
    ∃ front head rest, filter = front ++ [['#']] ∧ ['#'] ∉ front ∧ topic = head ++ rest ∧
      List.Forall₂ LevelMatches front head

theorem topicMatches_nil (topic : List (List Char)) : TopicMatches [] topic ↔ topic = [] := by
  constructor
  · rintro (⟨-, hall⟩ | ⟨front, head, rest, hfilter, -, -, -⟩)
    · exact List.forall₂_nil_left_iff.1 hall
    · exact absurd hfilter (by simp)
  · rintro rfl
    exact .inl ⟨List.not_mem_nil, .nil⟩

theorem topicMatches_rest (filter topic : List (List Char)) :
    TopicMatches (['#'] :: filter) topic ↔ filter = [] := by
  constructor
  · rintro (⟨hnone, -⟩ | ⟨front, head, rest, hfilter, hnone, -, -⟩)
    · exact absurd List.mem_cons_self hnone
    · cases front with
      | nil => exact (List.cons.inj hfilter).2
      | cons first front =>
        obtain ⟨rfl, -⟩ := List.cons.inj hfilter
        exact absurd List.mem_cons_self hnone
  · rintro rfl
    exact .inr ⟨[], [], topic, rfl, List.not_mem_nil, rfl, .nil⟩

theorem topicMatches_cons {part : List Char} (hpart : part ≠ ['#']) (filter topic : List (List Char)) :
    TopicMatches (part :: filter) topic ↔
      ∃ level topic', topic = level :: topic' ∧ LevelMatches part level ∧ TopicMatches filter topic' := by
  constructor
  · rintro (⟨hnone, hall⟩ | ⟨front, head, rest, hfilter, hnone, rfl, hall⟩)
    · obtain ⟨level, topic', hlevel, htail, rfl⟩ := List.forall₂_cons_left_iff.1 hall
      exact ⟨level, topic', rfl, hlevel, .inl ⟨fun hmem => hnone (List.mem_cons_of_mem _ hmem), htail⟩⟩
    · cases front with
      | nil => exact absurd (List.cons.inj hfilter).1 hpart
      | cons first front =>
        obtain ⟨rfl, rfl⟩ := List.cons.inj hfilter
        obtain ⟨level, head', hlevel, htail, rfl⟩ := List.forall₂_cons_left_iff.1 hall
        exact ⟨level, head' ++ rest, rfl, hlevel, .inr ⟨front, head', rest, rfl,
          fun hmem => hnone (List.mem_cons_of_mem _ hmem), rfl, htail⟩⟩
  · rintro ⟨level, topic', rfl, hlevel, ⟨hnone, hall⟩ | ⟨front, head, rest, rfl, hnone, rfl, hall⟩⟩
    · refine .inl ⟨fun hmem => ?_, .cons hlevel hall⟩
      exact (List.mem_cons.1 hmem).elim (fun heq => hpart heq.symm) hnone
    · refine .inr ⟨part :: front, level :: head, rest, rfl, fun hmem => ?_, rfl, .cons hlevel hall⟩
      exact (List.mem_cons.1 hmem).elim (fun heq => hpart heq.symm) hnone

/-- **What the match means.** -/
theorem matchParts_iff (filter topic : List (List Char)) :
    matchParts filter topic = true ↔ TopicMatches filter topic := by
  induction filter generalizing topic with
  | nil =>
    rw [topicMatches_nil]
    cases topic with
    | nil => exact iff_of_true rfl rfl
    | cons level topic => exact iff_of_false (by simp [matchParts]) (by simp)
  | cons part filter ih =>
    -- the rest of the levels, however many
    by_cases hrest : part = ['#']
    · rw [hrest, topicMatches_rest]
      cases topic <;> simp [matchParts]
    · rw [topicMatches_cons hrest]
      cases topic with
      | nil => simp [matchParts, hrest]
      | cons level topic =>
        -- one level against one part, and then the rest
        have hmatch : matchParts (part :: filter) (level :: topic)
            = if part = ['+'] then matchParts filter topic
              else if part ≠ level then false else matchParts filter topic := by
          simp only [matchParts, if_neg hrest]
        have hcons : (∃ level' topic', level :: topic = level' :: topic' ∧ LevelMatches part level' ∧
            TopicMatches filter topic') ↔ LevelMatches part level ∧ TopicMatches filter topic := by
          constructor
          · rintro ⟨level', topic', heq, hmatches⟩
            obtain ⟨rfl, rfl⟩ := List.cons.inj heq
            exact hmatches
          · exact fun hmatches => ⟨level, topic, rfl, hmatches⟩
        rw [hcons, ← ih, hmatch]
        by_cases hany : part = ['+']
        · rw [if_pos hany, LevelMatches]
          exact (and_iff_right (.inl hany)).symm
        · rw [if_neg hany, LevelMatches, or_iff_right hany]
          by_cases hlevel : part = level
          · rw [if_neg (not_not.2 hlevel)]
            exact (and_iff_right hlevel).symm
          · rw [if_pos hlevel]
            exact iff_of_false (by simp) fun h => hlevel h.1

/-! ### Queries -/

/-- `MessageQuery`: the three ways to look for messages. -/
inductive MessageQuery where
  | byTimeWindow (topic : String) (beginUnixMs endUnixMs : Int64) (page pageSize : UInt32)
  | byKey (topic key : String)
  | byId (topic messageId : String)

/-- `MiddlewareMessage`, with its body. -/
structure ConsoleMessage extends MiddlewareMessage where
  body : Option ByteArray

/-- `MessagePage`: the messages of a page, how many there are in all, and whether more follow. -/
structure MessagePage where
  messages : List ConsoleMessage
  total : ℕ
  hasMore : Bool

/-- `SUMMARY_TEXT_LIMIT_BYTES`: the text of a message in a list at most. -/
def summaryTextLimitBytes : ℕ := 1024

section Queries

variable (localTime : ℤ → String) (toLowercase : String → String)

/-- `buffered_to_model_inner`: a list shows the start of the text, and a single message all of it. -/
def bufferedToModelInner (detail : Bool) (buffered : BufferedMessage) : ConsoleMessage where
  messageId := buffered.id
  topic := buffered.message.topic
  bodyText :=
    let text := buffered.message.payloadText
    if detail then text else text.map (truncateText · summaryTextLimitBytes)
  storeTime := some (localTime buffered.message.receivedAt)
  properties :=
    [("qos", buffered.message.qos.label),
      ("retain", if buffered.message.retain then "true" else "false"),
      ("direction", if buffered.outgoing then "out" else "in"),
      ("received_at_ms", toString buffered.message.receivedAt),
      ("payload_size", toString buffered.message.payload.size)]
  body := if detail then some buffered.message.payload else none

/-- `buffered_to_model`: with the whole text. -/
def bufferedToModel : BufferedMessage → ConsoleMessage := bufferedToModelInner localTime true

/-- `buffered_to_summary`: with the start of the text. -/
def bufferedToSummary : BufferedMessage → ConsoleMessage := bufferedToModelInner localTime false

/-- `key_matches`: the key is found in the topic or in the text, in any case. -/
def keyMatches (buffered : BufferedMessage) (key : String) : Bool :=
  let contained (text : String) : Bool :=
    decide ((toLowercase key).toList <:+: (toLowercase text).toList)
  contained buffered.message.topic || buffered.message.payloadText.any contained

/-- The filter of `filter_and_paginate`: the topic, and the time, the key or the id. -/
def MessageQuery.selects : MessageQuery → BufferedMessage → Bool
  | .byTimeWindow topic beginUnixMs endUnixMs _ _, buffered =>
    let ts := buffered.message.receivedAt
    decide (beginUnixMs.toInt ≤ ts) && decide (ts ≤ endUnixMs.toInt)
      && (topic == "#" || mqttTopicMatch topic buffered.message.topic)
  | .byKey topic key, buffered =>
    (topic == "#" || mqttTopicMatch topic buffered.message.topic)
      && keyMatches toLowercase buffered key
  | .byId topic messageId, buffered =>
    buffered.id == messageId && (topic == "" || buffered.message.topic == topic)

/-- The page of a query and its size, for a number of messages. -/
def MessageQuery.pageAndSize (total : ℕ) : MessageQuery → ℕ × ℕ
  | .byTimeWindow _ _ _ page pageSize => (max page.toNat 1, max pageSize.toNat 1)
  | _ => (1, max total 1)

/-- `filter_and_paginate`: the messages that are selected, in the order of the buffer, and a page of
them. -/
def filterAndPaginate (buffer : List BufferedMessage) (query : MessageQuery) : MessagePage :=
  let filtered := buffer.filter (query.selects toLowercase)
  let total := filtered.length
  let (page, pageSize) := query.pageAndSize total
  let start := saturatingMul (page - 1) pageSize
  let detail := match query with
    | .byId .. => true
    | _ => false
  let messages := ((filtered.drop start).take pageSize).map
    (if detail then bufferedToModel localTime else bufferedToSummary localTime)
  { messages, total, hasMore := decide (start + messages.length < total) }

/-- The message is in the window, and its topic is one of the filter's. -/
def inWindow (topic : String) (beginUnixMs endUnixMs : Int64) (buffered : BufferedMessage) : Bool :=
  decide (beginUnixMs.toInt ≤ buffered.message.receivedAt)
    && decide (buffered.message.receivedAt ≤ endUnixMs.toInt)
    && mqttTopicMatch topic buffered.message.topic

theorem mqttTopicMatch_all (topic : String) : mqttTopicMatch "#" topic = true := by
  refine (matchParts_iff _ _).2 ?_
  exact .inr ⟨[], [], levels topic, rfl, List.not_mem_nil, rfl, .nil⟩

theorem selects_byTimeWindow (topic : String) (beginUnixMs endUnixMs : Int64) (page pageSize : UInt32) :
    (MessageQuery.byTimeWindow topic beginUnixMs endUnixMs page pageSize).selects toLowercase
      = inWindow topic beginUnixMs endUnixMs := by
  funext buffered
  have htopic : (topic == "#" || mqttTopicMatch topic buffered.message.topic)
      = mqttTopicMatch topic buffered.message.topic := by
    by_cases h : topic = "#"
    · rw [h, mqttTopicMatch_all, Bool.or_true]
    · rw [beq_eq_false_iff_ne.2 h, Bool.false_or]
  rw [MessageQuery.selects, inWindow, htopic]

/-- A page of a query for a time window. -/
theorem filterAndPaginate_byTimeWindow (buffer : List BufferedMessage) (topic : String)
    (beginUnixMs endUnixMs : Int64) {pageSize : UInt32} (hsize : 1 ≤ pageSize.toNat) {n : ℕ}
    (hn : n + 1 < 2 ^ 32) :
    let matching := buffer.filter (inWindow topic beginUnixMs endUnixMs)
    filterAndPaginate localTime toLowercase buffer
        (.byTimeWindow topic beginUnixMs endUnixMs (.ofNat (n + 1)) pageSize)
      = { messages := (Pages.page pageSize.toNat matching n).map (bufferedToSummary localTime)
          total := matching.length
          hasMore := decide (n * pageSize.toNat + (Pages.page pageSize.toNat matching n).length
            < matching.length) } := by
  have hpage : max (UInt32.ofNat (n + 1)).toNat 1 - 1 = n := by
    rw [UInt32.toNat_ofNat_of_lt' hn]
    omega
  have hstart : saturatingMul n pageSize.toNat = n * pageSize.toNat := by
    have hproduct : n * pageSize.toNat ≤ (2 ^ 32 - 1) * (2 ^ 32 - 1) :=
      Nat.mul_le_mul (by omega) (Nat.le_sub_one_of_lt pageSize.toNat_lt)
    exact Nat.min_eq_left (hproduct.trans (by decide))
  simp only [filterAndPaginate, selects_byTimeWindow, MessageQuery.pageAndSize, hpage,
    Nat.max_eq_left hsize, hstart, List.length_map]
  rfl

/-- **Pages partition the matches.** The first pages of a query for a time window are the first of the
messages that are in it, and all of them if they are many enough; every page has their number, and
says that there are more exactly when the next page is not empty. The topic of a message is one of the
filter's exactly when its levels match. -/
theorem pages_partition (buffer : List BufferedMessage) (topic : String)
    (beginUnixMs endUnixMs : Int64) (pageSize : UInt32) (hsize : 1 ≤ pageSize.toNat) :
    let matching := buffer.filter (inWindow topic beginUnixMs endUnixMs)
    let page := fun n => filterAndPaginate localTime toLowercase buffer
      (.byTimeWindow topic beginUnixMs endUnixMs (.ofNat n) pageSize)
    (∀ n < 2 ^ 32, ((List.range n).map fun i => (page (i + 1)).messages).flatten
      = (matching.take (n * pageSize.toNat)).map (bufferedToSummary localTime)) ∧
    (∀ n < 2 ^ 32, matching.length ≤ n * pageSize.toNat →
      ((List.range n).map fun i => (page (i + 1)).messages).flatten
        = matching.map (bufferedToSummary localTime)) ∧
    (∀ n < 2 ^ 32, 1 ≤ n → (page n).total = matching.length) ∧
    (∀ n, 1 ≤ n → n + 1 < 2 ^ 32 → ((page n).hasMore = true ↔ (page (n + 1)).messages ≠ [])) ∧
    ∀ filter name, mqttTopicMatch filter name = true ↔ TopicMatches (levels filter) (levels name) := by
  intro matching page
  have hpage {n : ℕ} (hn : n + 1 < 2 ^ 32) :=
    filterAndPaginate_byTimeWindow localTime toLowercase buffer topic beginUnixMs endUnixMs hsize hn
  -- the first pages laid side by side are the library's pages of what the window lets through
  have hfirst (n : ℕ) (hn : n < 2 ^ 32) : ((List.range n).map fun i => (page (i + 1)).messages).flatten
      = (matching.take (n * pageSize.toNat)).map (bufferedToSummary localTime) := by
    have hpages : (List.range n).map (fun i => (page (i + 1)).messages)
        = ((List.range n).map (Pages.page pageSize.toNat matching)).map
          (List.map (bufferedToSummary localTime)) := by
      rw [List.map_map]
      refine List.map_congr_left fun i hi => ?_
      have hlt : i + 1 < 2 ^ 32 := (Nat.succ_le_of_lt (List.mem_range.1 hi)).trans_lt hn
      exact congrArg MessagePage.messages (hpage hlt)
    rw [hpages, ← List.map_flatten, Pages.flatten_pages]
  refine ⟨hfirst, fun n hn hlength => ?_, fun n hn hpos => ?_, fun n hpos hn => ?_,
    fun filter name => matchParts_iff _ _⟩
  · rw [hfirst n hn, List.take_of_length_le hlength]
  · obtain ⟨m, rfl⟩ := Nat.exists_eq_add_of_le' hpos
    exact congrArg MessagePage.total (hpage hn)
  · obtain ⟨m, rfl⟩ := Nat.exists_eq_add_of_le' hpos
    have hmore : (page (m + 1)).hasMore = _ := congrArg MessagePage.hasMore (hpage (by omega))
    have hnext : (page (m + 1 + 1)).messages = _ := congrArg MessagePage.messages (hpage hn)
    rw [hmore, hnext, decide_eq_true_iff, Pages.more_iff hsize]
    exact not_congr List.map_eq_nil_iff.symm

end Queries

/-- Three messages of one topic. -/
def threeMessages : List BufferedMessage :=
  [⟨"mqtt-0", shortMessage, false⟩, ⟨"mqtt-1", shortMessage, true⟩, ⟨"mqtt-2", shortMessage, false⟩]

/-- Two pages of two are the three messages. -/
theorem pages_partition_three :
    ((List.range 2).map fun i => (filterAndPaginate toString id threeMessages
      (.byTimeWindow "a/#" 0 10 (.ofNat (i + 1)) 2)).messages).flatten
        = (threeMessages.filter (inWindow "a/#" 0 10)).map (bufferedToSummary toString) :=
  (pages_partition toString id threeMessages "a/#" 0 10 2 (by decide)).2.1 2 (by decide)
    ((List.length_filter_le _ _).trans (by decide))

end Mqtt
end Navop
