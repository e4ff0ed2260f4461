import NavopExtensions.Lib.Text
import NavopExtensions.Rocketmq.Command

/-!
# Sending a message

`RocketmqConnection::send_message` of `rocketmq/src/admin.rs`. The message goes to a queue of the
topic's route, as a `SEND_MESSAGE_V2` request, and once more as a `SEND_MESSAGE` request if the first
one fails. The network and the broker are one parameter: what becomes of a request is whether the
broker stores its message and how `invoke_addr` ends, and the two are independent, since an answer
can be lost or late. The route of the topic, the clock and the id of the producer group are parameters
too.

The second request follows whenever the first one has no answer, stored or not, so a message may be
stored twice; `stored_once_iff` says when.
-/

namespace Navop
namespace Rocketmq

/-- `RocketmqConnection::select_send_queue`, for the value of the cursor. -/
def selectSendQueue (cursor : ℕ) (route : TopicRouteData) : Option (QueueData × Int32) := do
  let queue ← (route.queueDatas.filter fun queue =>
    queue.perm &&& 0x02 != 0 && queue.writeQueueNums > 0).head?
  return (queue, Int32.ofNat (cursor % queue.writeQueueNums.toNatClampNeg))

/-! ### Requests -/

/-- `SendMessageRequest`: what is sent where. -/
structure SendMessageRequest where
  topic : String
  tag : Option String
  key : Option String
  body : List UInt8
  properties : List (String × String)
  deriving DecidableEq

/-- `SendResult`: the id that the broker gave, and how it went. -/
structure SendResult where
  messageId : String
  status : String
  deriving DecidableEq

/-- `!text.trim().is_empty()`: more than white space. -/
def isFilled (text : String) : Bool := !(Text.trim text.toList).isEmpty

/-- The properties of a message: tag and key, then the others in order. -/
def messageProperties (req : SendMessageRequest) : Fields :=
  let fields : Fields := match req.tag.filter isFilled with
    | some tag => Finmap.insert "TAGS" tag ∅
    | none => ∅
  let fields := match req.key.filter isFilled with
    | some key => fields.insert "KEYS" key
    | none => fields
  req.properties.foldl (fun fields property => fields.insert property.1 property.2) fields

/-- The text of the properties, in the order of their keys. -/
def propertiesText (fields : Fields) : String :=
  ";".intercalate ((fields.keys.sort (· ≤ ·)).map fun key =>
    key ++ "=" ++ (fields.lookup key).getD "")

/-- `DEFAULT_TOPIC_KEY`: the topic whose settings a new topic takes. -/
def defaultTopicKey : String := "TBW102"

/-- What a send takes from the clock and from `Uuid::new_v4`. -/
structure Stamp where
  bornTimestamp : Int64
  uid : String

/-- `producer_group`: a name with the start of a fresh id in it. -/
def Stamp.producerGroup (stamp : Stamp) : String :=
  "navop_admin_" ++ String.ofList (stamp.uid.toList.take 8)

section Send

variable (req : SendMessageRequest) (stamp : Stamp)

/-- `build_v2`: the same fields under one letter each. -/
def buildV2 (queueId : Int32) : RemotingCommand :=
  (RemotingCommand.createRequest 310 <| [
    ("a", stamp.producerGroup), ("b", req.topic), ("c", defaultTopicKey), ("d", "8"),
    ("e", toString queueId), ("f", "0"), ("g", toString stamp.bornTimestamp), ("h", "0"),
    ("i", propertiesText (messageProperties req))].foldl
      (fun fields field => fields.insert field.1 field.2) ∅).withBody req.body

/-- `build_v1`: the fields under their names. -/
def buildV1 (queueId : Int32) : RemotingCommand :=
  (RemotingCommand.createRequest 10 <| [
    ("producerGroup", stamp.producerGroup), ("topic", req.topic), ("defaultTopic", defaultTopicKey),
    ("defaultTopicQueueNums", "8"), ("queueId", toString queueId), ("sysFlag", "0"),
    ("bornTimestamp", toString stamp.bornTimestamp), ("flag", "0"),
    ("properties", propertiesText (messageProperties req))].foldl
      (fun fields field => fields.insert field.1 field.2) ∅).withBody req.body

/-! ### The exchange with the broker -/

/-- What becomes of a request: whether the broker stores its message, and how `invoke_addr` ends. -/
structure Exchange where
  stored : Bool
  response : Except RocketmqError RemotingCommand

/-- The network and the broker, at the requests of one send in their order. -/
abbrev Network := ℕ → String → RemotingCommand → Exchange

/-- `REQUEST_CODE_NOT_SUPPORTED`: the broker does not know the request. -/
def requestCodeNotSupported : Int32 := 3

/-- The queue and the address a message goes to. -/
def sendTarget (route : TopicRouteData) (cursor : ℕ) : Except RocketmqError (String × Int32) :=
  match selectSendQueue cursor route with
  | none => .error (.protocol ("Topic " ++ req.topic ++ " 无可写队列"))
  | some (queue, queueId) =>
    let broker := route.brokerDatas.find? fun broker => broker.brokerName == queue.brokerName
    match broker.bind BrokerData.selectBrokerAddr with
    | none => .error (.protocol ("Topic " ++ req.topic ++ " 路由缺少 Broker 地址"))
    | some addr => .ok (addr, queueId)

/-- The result of a send, from the response of the broker. -/
def sendResult (response : RemotingCommand) : Except RocketmqError SendResult := do
  let status ←
    if response.code = 0 then .ok "OK"
    else if response.code = 11 then .ok "SLAVE_NOT_AVAILABLE"
    else .error (.protocol ("发送失败 code=" ++ toString response.code ++ ": "
      ++ response.remark.getD ""))
  let messageId := match response.extFields.lookup "msgId" with
    | some messageId => messageId
    | none => ((messageProperties req).lookup "UNIQ_KEY").getD ""
  return ⟨messageId, status⟩

/-- The response to the first request that is taken as it is. -/
def accepted : Except RocketmqError RemotingCommand → Option RemotingCommand
  | .ok response => if response.code ≠ requestCodeNotSupported then some response else none
  | .error _ => none

/-- `RocketmqConnection::send_message`, with the exchanges it makes. -/
def sendMessage (network : Network) (route : Except RocketmqError TopicRouteData) (cursor : ℕ) :
    Except RocketmqError SendResult × List Exchange :=
  match route with
  | .error error => (.error error, [])
  | .ok route =>
    match sendTarget req route cursor with
    | .error error => (.error error, [])
    | .ok (addr, queueId) =>
      let first := network 0 addr (buildV2 req stamp queueId)
      match accepted first.response with
      | some response => (sendResult req response, [first])
      | none =>
        let second := network 1 addr (buildV1 req stamp queueId)
        let response := do
          let response ← second.response
          ensureSuccess response
          return response
        (response.bind (sendResult req), [first, second])

/-- How often a send has its message stored. -/
def copies (exchanges : List Exchange) : ℕ := (exchanges.filter (·.stored)).length

/-! ### How often a message is stored -/

variable {req stamp} {network : Network} {route : TopicRouteData} {cursor : ℕ}

/-- A send makes no exchange, one that is accepted, or two. -/
theorem exchanges_sendMessage {addr : String} {queueId : Int32}
    (htarget : sendTarget req route cursor = .ok (addr, queueId)) :
    (sendMessage req stamp network (.ok route) cursor).2
      = network 0 addr (buildV2 req stamp queueId) ::
        if (accepted (network 0 addr (buildV2 req stamp queueId)).response).isSome then []
        else [network 1 addr (buildV1 req stamp queueId)] := by
  simp only [sendMessage, htarget]
  split
  · next response haccepted => simp [haccepted]
  · next haccepted => simp [haccepted]

theorem copies_pair (first second : Exchange) :
    copies [first, second] ≤ 1 ↔ ¬ (first.stored = true ∧ second.stored = true) := by
  unfold copies
  cases hfirst : first.stored <;> cases hsecond : second.stored <;> simp [hfirst, hsecond]

theorem copies_single (first : Exchange) : copies [first] ≤ 1 := List.length_filter_le _ _

/-- **When a message is stored at most once.** A send stores its message twice exactly when it finds
a queue, the broker stores the message of the first request, that request ends without an answer or
with the code for a request that is not supported, and the broker stores the message of the second
request as well. -/
theorem stored_once_iff (req : SendMessageRequest) (stamp : Stamp) (network : Network)
    (route : Except RocketmqError TopicRouteData) (cursor : ℕ) :
    copies (sendMessage req stamp network route cursor).2 ≤ 1 ↔
      ∀ data addr queueId, route = .ok data → sendTarget req data cursor = .ok (addr, queueId) →
        (network 0 addr (buildV2 req stamp queueId)).stored = true →
        accepted (network 0 addr (buildV2 req stamp queueId)).response = none →
          (network 1 addr (buildV1 req stamp queueId)).stored = false := by
  cases route with
  | error error => exact iff_of_true (Nat.zero_le 1) fun data _ _ hroute => absurd hroute (by simp)
  | ok data =>
    cases htarget : sendTarget req data cursor with
    | error error =>
      refine iff_of_true ?_ ?_
      · have hnone : (sendMessage req stamp network (.ok data) cursor).2 = [] := by
          simp only [sendMessage, htarget]
        rw [hnone]
        exact Nat.zero_le 1
      · intro data' addr queueId hroute htarget'
        obtain rfl := Except.ok.inj hroute
        exact absurd (htarget.symm.trans htarget') (by simp)
    | ok target =>
      obtain ⟨addr, queueId⟩ := target
      -- with a route and a queue there is the first request, and the second one if it was not accepted
      rw [exchanges_sendMessage htarget]
      cases haccepted : accepted (network 0 addr (buildV2 req stamp queueId)).response with
      -- accepted at once: nothing is sent again
      | some response =>
        refine iff_of_true (copies_single _) ?_
        intro data' addr' queueId' hroute htarget' _ hnone
        obtain rfl := Except.ok.inj hroute
        obtain ⟨rfl, rfl⟩ := Prod.mk.inj (Except.ok.inj (htarget.symm.trans htarget'))
        exact absurd (haccepted.symm.trans hnone) (by simp)
      | none =>
        refine (copies_pair _ _).trans ⟨?_, ?_⟩
        · intro hnot data' addr' queueId' hroute htarget' hstored _
          obtain rfl := Except.ok.inj hroute
          obtain ⟨rfl, rfl⟩ := Prod.mk.inj (Except.ok.inj (htarget.symm.trans htarget'))
          exact Bool.eq_false_iff.mpr fun hsecond => hnot ⟨hstored, hsecond⟩
        · rintro hnever ⟨hfirst, hsecond⟩
          have hnot := hnever data addr queueId rfl htarget hfirst haccepted
          exact absurd hsecond (by simp [hnot])

end Send

/-- A topic with one queue on one broker. -/
def singleRoute : TopicRouteData := ⟨[⟨"broker-a", 4, 4, 6⟩], [⟨"broker-a", [(0, "10.0.0.1:10911")]⟩]⟩

/-- The broker stores what it gets; its first answer is late, its second one arrives. -/
def lateNetwork : Network := fun n _ _ =>
  if n = 0 then ⟨true, .error (.timeout "RocketMQ 请求超时(code=310, opaque=1, 通道 10.0.0.1:10911)")⟩
  else ⟨true, .ok { RemotingCommand.createRequest 0 ∅ with flag := 1, opaqueId := 2 }⟩

/-- **An order is stored twice** when the first answer is late. -/
theorem late_answer_stores_twice :
    copies (sendMessage ⟨"orders", none, none, [1], []⟩ ⟨1700000000000, "0123456789abcdef"⟩
      lateNetwork (.ok singleRoute) 0).2 = 2 := by
  have htarget : sendTarget ⟨"orders", none, none, [1], []⟩ singleRoute 0
      = .ok ("10.0.0.1:10911", 0) := by decide
  rw [exchanges_sendMessage htarget]
  rfl

end Rocketmq
end Navop
