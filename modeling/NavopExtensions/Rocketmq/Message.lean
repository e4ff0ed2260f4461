import NavopExtensions.Lib.Cursor
import NavopExtensions.Lib.Ip
import NavopExtensions.Rocketmq.Acl

/-!
# Stored messages

`rocketmq/src/message.rs`: a message of the commit log is read field by field from its bytes
(`decode_stored_message`). `MessageRecord` is a message as the log stores it and `layout` its bytes;
`decode_layout` says that decoding inverts the layout.

The text of an error of `String::from_utf8` is a parameter. An access out of range is the failure
`panic`.
-/

namespace Navop
namespace Rocketmq

open BigEndian Binary Net

/-- `STOREHOSTADDRESS_V6_FLAG`: the bit that says that the broker's address is one of IPv6. -/
def storehostaddressV6Flag : Int32 := (1 : Int32) <<< 4

/-- `BORNHOST_V6_FLAG`: the bit that says that the producer's address is one of IPv6. -/
def bornhostV6Flag : Int32 := (1 : Int32) <<< 5

/-- `StoredMessage`: a message of the commit log, field by field. -/
structure StoredMessage where
  totalSize : Int32
  magicCode : Int32
  bodyCrc : Int32
  queueId : Int32
  flag : Int32
  queueOffset : Int64
  physicOffset : Int64
  sysFlag : Int32
  bornTimestamp : Int64
  bornHost : String
  storeTimestamp : Int64
  storeHost : String
  reconsumeTimes : Int32
  preparedTransactionOffset : Int64
  topic : String
  body : List UInt8
  properties : Fields
  deriving DecidableEq

/-! ### Properties -/

/-- One turn of the loop of `parse_properties`. -/
def insertPair (map : Fields) (pair : List Char) : Fields :=
  if pair.isEmpty then map
  else
    match Text.splitOnce '=' pair with
    | some (key, value) => map.insert (.ofList key) (.ofList value)
    | none => map.insert (.ofList pair) ""

/-- `parse_properties`: the pairs between semicolons, a later one in place of an earlier. -/
def parseProperties (text : String) : Fields := (text.toList.splitOn ';').foldl insertPair ∅

/-! ### Reading -/

/-- `CursorReader`: it reads from bytes, and fails or goes on behind what it read. -/
abbrev CursorReader (α : Type) := Reader UInt8 Failure α

/-- `[bytes[start], …]`: so many bytes in order, each of which has to be there. -/
def bytesAt (bytes : List UInt8) (start : ℕ) : ℕ → Except Failure (List UInt8)
  | 0 => .ok []
  | count + 1 => do
    let byte ← byteAt bytes start
    let rest ← bytesAt bytes (start + 1) count
    return byte :: rest

/-- `from_be_bytes` of an unsigned type, at `[bytes[start], …]`. -/
def beAt (bytes : List UInt8) (start count : ℕ) : Except Failure ℕ :=
  (bytesAt bytes start count).map ofBe

/-- `i16::from_be_bytes`: two bytes, in two's complement. -/
def int16Be (bytes : List UInt8) : Except Failure Int16 :=
  (beAt bytes 0 2).map fun n => (UInt16.ofNat n).toInt16

/-- `i32::from_be_bytes`: four bytes, in two's complement. -/
def int32Be (bytes : List UInt8) : Except Failure Int32 :=
  (beAt bytes 0 4).map fun n => (UInt32.ofNat n).toInt32

/-- `i64::from_be_bytes`, at `[bytes[start], …]`: eight bytes, in two's complement. -/
def int64Be (bytes : List UInt8) (start : ℕ) : Except Failure Int64 :=
  (beAt bytes start 8).map fun n => (UInt64.ofNat n).toInt64

/-- `{ip}:{port}`: the brackets of IPv6 are the caller's. -/
def hostPort (ip : List Char) (port : ℕ) : String := .ofList (ip ++ ':' :: Nat.toDigits 10 port)

/-- `decode_host_bytes`: four bytes of address, and four of port. -/
def decodeHostBytes (bytes : List UInt8) : Except Failure String :=
  if bytes.length ≠ 8 then .error (.error (.protocol "主机字节长度应为 8"))
  else do
    let a ← byteAt bytes 0
    let b ← byteAt bytes 1
    let c ← byteAt bytes 2
    let d ← byteAt bytes 3
    -- the port takes four bytes, and is not cut to sixteen bits
    let port ← beAt bytes 4 4
    return hostPort (Ipv4Addr.display ⟨a, b, c, d⟩) port

/-- The IPv6 branch of `read_host`, at the bytes it has read. -/
def decodeHostV6 (bytes : List UInt8) : Except Failure String := do
  let a ← beAt bytes 0 2
  let b ← beAt bytes 2 2
  let c ← beAt bytes 4 2
  let d ← beAt bytes 6 2
  let e ← beAt bytes 8 2
  let f ← beAt bytes 10 2
  let g ← beAt bytes 12 2
  let h ← beAt bytes 14 2
  let ip : Ipv6Addr :=
    ⟨[.ofNat a, .ofNat b, .ofNat c, .ofNat d, .ofNat e, .ofNat f, .ofNat g, .ofNat h], rfl⟩
  let port ← beAt bytes 16 4
  -- an IPv6 address stands in brackets
  return hostPort ('[' :: ip.display ++ [']']) port

namespace CursorReader

/-- `CursorReader::remaining`: the bytes that are still to come. -/
def remaining (cursor : Cursor UInt8) : ℕ := cursor.bytes.length - cursor.pos

/-- `CursorReader::read_bytes`: the error says how many there are. -/
def readBytes (len : ℕ) : CursorReader (List UInt8) := fun cursor =>
  if remaining cursor < len then
    .error (.error (.protocol ("commitlog 消息字节不足: 需要 " ++ toString len ++ ", 剩余 "
      ++ toString (remaining cursor))))
  else do
    -- inside by the check above: this index never panics
    let bytes ← slice cursor.bytes cursor.pos (cursor.pos + len)
    return (bytes, { cursor with pos := cursor.pos + len })

/-- `CursorReader::read_i16`: the next two bytes. -/
def readI16 : CursorReader Int16 := do
  let bytes ← readBytes 2
  int16Be bytes

/-- `CursorReader::read_i32`: the next four bytes. -/
def readI32 : CursorReader Int32 := do
  let bytes ← readBytes 4
  int32Be bytes

/-- `CursorReader::read_i64`: the next eight bytes. -/
def readI64 : CursorReader Int64 := do
  let bytes ← readBytes 8
  int64Be bytes 0

/-- `CursorReader::read_host`: the flags of the message say how long the address is. -/
def readHost (ipv6 : Bool) : CursorReader String :=
  if ipv6 then do
    let bytes ← readBytes 20
    decodeHostV6 bytes
  else do
    let bytes ← readBytes 8
    decodeHostBytes bytes

/-- The body of a message. -/
def readBody : CursorReader (List UInt8) := do
  let bodyLen ← readI32
  -- the length is an `i32` on the wire
  if bodyLen < 0 then throw (.error (.protocol ("非法 body 长度: " ++ toString bodyLen)))
  else readBytes bodyLen.toNatClampNeg

section

variable (utf8Error : List UInt8 → String)

/-- `String::from_utf8`, with what the error is about. -/
def fromUtf8 (what : String) (bytes : List UInt8) : Except Failure String :=
  match String.fromUTF8? bytes.toByteArray with
  | some text => .ok text
  | none => .error (.error (.protocol (what ++ "非法 UTF-8: " ++ utf8Error bytes)))

/-- The topic of a message. -/
def readTopic : CursorReader String := do
  let topicLen ← readI16
  -- a message without a topic is refused, one without a body is not
  if topicLen ≤ 0 then throw (.error (.protocol ("非法 topic 长度: " ++ toString topicLen)))
  else do
    let bytes ← readBytes topicLen.toNatClampNeg
    fromUtf8 utf8Error "topic " bytes

/-- The properties of a message. -/
def readProperties : CursorReader Fields := do
  let propertiesLen ← readI16
  if propertiesLen > 0 then do
    let bytes ← readBytes propertiesLen.toNatClampNeg
    (fromUtf8 utf8Error "属性串" bytes).map parseProperties
  -- a negative length is none too
  else return ∅

/-- The fields of a message, in their order. -/
def readMessage : CursorReader StoredMessage := do
  let totalSize ← readI32
  let magicCode ← readI32
  let bodyCrc ← readI32
  let queueId ← readI32
  let flag ← readI32
  let queueOffset ← readI64
  let physicOffset ← readI64
  let sysFlag ← readI32
  let bornTimestamp ← readI64
  -- the flags come before the addresses whose lengths they tell
  let bornHost ← readHost (sysFlag &&& bornhostV6Flag != 0)
  let storeTimestamp ← readI64
  let storeHost ← readHost (sysFlag &&& storehostaddressV6Flag != 0)
  let reconsumeTimes ← readI32
  -- read, and passed on
  let preparedTransactionOffset ← readI64
  let body ← readBody
  let topic ← readTopic utf8Error
  let properties ← readProperties utf8Error
  return {
    totalSize, magicCode, bodyCrc, queueId, flag, queueOffset, physicOffset, sysFlag
    bornTimestamp, bornHost, storeTimestamp, storeHost, reconsumeTimes
    preparedTransactionOffset, topic, body, properties }

end

end CursorReader

/-- `decode_stored_message`: one message, from the start of the bytes. -/
def decodeStoredMessage (utf8Error : List UInt8 → String) (bytes : List UInt8) :
    Except Failure StoredMessage :=
  (CursorReader.readMessage utf8Error ⟨bytes, 0⟩).map Prod.fst

/-! ### The layout -/

/-- The address of a host. -/
inductive HostAddress where
  | v4 (ip : Ipv4Addr) (port : UInt32)
  | v6 (ip : Ipv6Addr) (port : UInt32)
  deriving DecidableEq

namespace HostAddress

def isV6 : HostAddress → Bool
  | v4 .. => false
  | v6 .. => true

/-- The bytes of an address, and its port. -/
def layout : HostAddress → List UInt8
  | v4 ip port => ip.octets ++ toBe 4 port.toNat
  | v6 ip port => ip.octets ++ toBe 4 port.toNat

/-- The text of an address, in brackets for IPv6, and its port. -/
def text : HostAddress → String
  | v4 ip port => hostPort ip.display port.toNat
  | v6 ip port => hostPort ('[' :: ip.display ++ [']']) port.toNat

end HostAddress

/-- A message as the commit log stores it: the flags say which kind of address the hosts have, and
the lengths fit into their fields. -/
structure MessageRecord where
  totalSize : Int32
  magicCode : Int32
  bodyCrc : Int32
  queueId : Int32
  flag : Int32
  queueOffset : Int64
  physicOffset : Int64
  sysFlag : Int32
  bornTimestamp : Int64
  bornHost : HostAddress
  storeTimestamp : Int64
  storeHost : HostAddress
  reconsumeTimes : Int32
  preparedTransactionOffset : Int64
  body : List UInt8
  topic : String
  properties : String
  bornHost_kind : (sysFlag &&& bornhostV6Flag != 0) = bornHost.isV6
  storeHost_kind : (sysFlag &&& storehostaddressV6Flag != 0) = storeHost.isV6
  body_length : body.length < 2 ^ 31
  topic_pos : 0 < (asBytes topic).length
  topic_length : (asBytes topic).length < 2 ^ 15
  properties_length : (asBytes properties).length < 2 ^ 15

namespace MessageRecord

/-- The bytes of a message: its seventeen fields one after another. -/
def layout (record : MessageRecord) : List UInt8 :=
  [toBe 4 record.totalSize.toUInt32.toNat,
    toBe 4 record.magicCode.toUInt32.toNat,
    toBe 4 record.bodyCrc.toUInt32.toNat,
    toBe 4 record.queueId.toUInt32.toNat,
    toBe 4 record.flag.toUInt32.toNat,
    toBe 8 record.queueOffset.toUInt64.toNat,
    toBe 8 record.physicOffset.toUInt64.toNat,
    toBe 4 record.sysFlag.toUInt32.toNat,
    toBe 8 record.bornTimestamp.toUInt64.toNat,
    record.bornHost.layout,
    toBe 8 record.storeTimestamp.toUInt64.toNat,
    record.storeHost.layout,
    toBe 4 record.reconsumeTimes.toUInt32.toNat,
    toBe 8 record.preparedTransactionOffset.toUInt64.toNat,
    toBe 4 record.body.length ++ record.body,
    toBe 2 (asBytes record.topic).length ++ asBytes record.topic,
    toBe 2 (asBytes record.properties).length ++ asBytes record.properties].flatten

/-- The message that is to be read from the layout. -/
def stored (record : MessageRecord) : StoredMessage where
  totalSize := record.totalSize
  magicCode := record.magicCode
  bodyCrc := record.bodyCrc
  queueId := record.queueId
  flag := record.flag
  queueOffset := record.queueOffset
  physicOffset := record.physicOffset
  sysFlag := record.sysFlag
  bornTimestamp := record.bornTimestamp
  bornHost := record.bornHost.text
  storeTimestamp := record.storeTimestamp
  storeHost := record.storeHost.text
  reconsumeTimes := record.reconsumeTimes
  preparedTransactionOffset := record.preparedTransactionOffset
  topic := record.topic
  body := record.body
  properties := parseProperties record.properties

end MessageRecord

/-! ### Numbers and hosts from their bytes -/

theorem bytesAt_append (before chunk rest : List UInt8) :
    bytesAt (before ++ (chunk ++ rest)) before.length chunk.length = .ok chunk := by
  induction chunk generalizing before with
  | nil => rfl
  | cons byte chunk ih =>
    have hbyte : byteAt (before ++ (byte :: chunk ++ rest)) before.length = .ok byte := by
      simp [byteAt]
    have hrest := ih (before ++ [byte])
    rw [List.append_assoc, List.singleton_append, ← List.cons_append, List.length_append,
      List.length_singleton] at hrest
    rw [List.length_cons, bytesAt, hbyte, hrest]
    rfl

theorem beAt_toBe (width n : ℕ) : beAt (toBe width n) 0 width = .ok (n % 256 ^ width) := by
  have hbytes := bytesAt_append [] (toBe width n) []
  rw [List.append_nil, List.nil_append, List.length_nil, length_toBe] at hbytes
  rw [beAt, hbytes, Except.map, ofBe_toBe]

theorem int32Be_toBe (n : Int32) : int32Be (toBe 4 n.toUInt32.toNat) = .ok n := by
  have hlt : n.toUInt32.toNat < 256 ^ 4 := n.toUInt32.toNat_lt
  rw [int32Be, beAt_toBe, Nat.mod_eq_of_lt hlt, Except.map, UInt32.ofNat_toNat,
    Int32.toInt32_toUInt32]

theorem int64Be_toBe (n : Int64) : int64Be (toBe 8 n.toUInt64.toNat) 0 = .ok n := by
  have hlt : n.toUInt64.toNat < 256 ^ 8 := n.toUInt64.toNat_lt
  rw [int64Be, beAt_toBe, Nat.mod_eq_of_lt hlt, Except.map, UInt64.ofNat_toNat,
    Int64.toInt64_toUInt64]

theorem int16Be_toBe (n : Int16) : int16Be (toBe 2 n.toUInt16.toNat) = .ok n := by
  have hlt : n.toUInt16.toNat < 256 ^ 2 := n.toUInt16.toNat_lt
  rw [int16Be, beAt_toBe, Nat.mod_eq_of_lt hlt, Except.map, UInt16.ofNat_toNat,
    Int16.toInt16_toUInt16]

theorem decodeHostBytes_layout (ip : Ipv4Addr) (port : UInt32) :
    decodeHostBytes (ip.octets ++ toBe 4 port.toNat) = .ok (HostAddress.v4 ip port).text := by
  have hlt : port.toNat < 256 ^ 4 := port.toNat_lt
  have hport : decodeHostBytes (ip.octets ++ toBe 4 port.toNat)
      = .ok (hostPort ip.display (ofBe (toBe 4 port.toNat))) := rfl
  rw [hport, ofBe_toBe_of_lt hlt]
  rfl

theorem decodeHostV6_layout (ip : Ipv6Addr) (port : UInt32) :
    decodeHostV6 (ip.octets ++ toBe 4 port.toNat) = .ok (HostAddress.v6 ip port).text := by
  obtain ⟨segments, hlength⟩ := ip
  match segments, hlength with
  | [a, b, c, d, e, f, g, h], _ =>
    have hport : port.toNat < 256 ^ 4 := port.toNat_lt
    have hsegment (segment : UInt16) : UInt16.ofNat (ofBe (toBe 2 segment.toNat)) = segment := by
      have hlt : segment.toNat < 256 ^ 2 := segment.toNat_lt
      rw [ofBe_toBe_of_lt hlt, UInt16.ofNat_toNat]
    have hdecode : decodeHostV6 (Ipv6Addr.octets ⟨[a, b, c, d, e, f, g, h], rfl⟩
        ++ toBe 4 port.toNat)
        = .ok (hostPort ('[' :: Ipv6Addr.display
          ⟨[a, b, c, d, e, f, g, h].map fun segment => .ofNat (ofBe (toBe 2 segment.toNat)), rfl⟩
            ++ [']']) (ofBe (toBe 4 port.toNat))) := rfl
    rw [hdecode, ofBe_toBe_of_lt hport]
    simp only [hsegment, List.map_id']
    rfl

/-! ### Decoding inverts the layout -/

section Decode

variable {utf8Error : List UInt8 → String}

open CursorReader

/-- An error that is no panic. -/
def Failure.IsError (failure : Failure) : Prop := failure ≠ .panic

theorem isError_error (error : RocketmqError) : (Failure.error error).IsError :=
  fun hpanic => Failure.noConfusion hpanic

theorem readBytes_short {len : ℕ} {cursor : Cursor UInt8} (h : remaining cursor < len) :
    ∃ error, readBytes len cursor = .error (.error error) :=
  ⟨_, by rw [readBytes, if_pos h]⟩

theorem readBytes_enough {len : ℕ} {cursor : Cursor UInt8}
    (h : cursor.pos + len ≤ cursor.bytes.length) :
    readBytes len cursor = .ok ((cursor.bytes.drop cursor.pos).take len,
      { cursor with pos := cursor.pos + len }) := by
  have hremaining : ¬ remaining cursor < len := by
    simp only [remaining]
    omega
  rw [readBytes, if_neg hremaining, slice, if_pos ⟨Nat.le_add_right _ _, h⟩,
    Nat.add_sub_cancel_left]
  rfl

theorem reads_readBytes {len : ℕ} {chunk : List UInt8} (h : chunk.length = len) :
    Reads Failure.IsError (readBytes len) chunk chunk where
  complete before rest := by
    subst h
    rw [readBytes_enough (by simp only [List.length_append]; omega)]
    simp only [List.drop_left, List.take_left]
  truncated before cut hcut hne := by
    have hshort : cut.length < len := by
      rcases Nat.lt_or_ge cut.length len with hlt | hge
      · exact hlt
      · exact absurd (hcut.eq_of_length_le (h.trans_le hge)) hne
    have hremaining : remaining ⟨before ++ cut, before.length⟩ < len := by
      simp only [remaining, List.length_append]
      omega
    obtain ⟨error, herror⟩ := readBytes_short hremaining
    exact ⟨_, isError_error error, herror⟩

theorem reads_readI32 (n : Int32) :
    Reads Failure.IsError readI32 (toBe 4 n.toUInt32.toNat) n :=
  (reads_readBytes (length_toBe _ _)).bind_lift (int32Be_toBe n)

theorem reads_readI64 (n : Int64) :
    Reads Failure.IsError readI64 (toBe 8 n.toUInt64.toNat) n :=
  (reads_readBytes (length_toBe _ _)).bind_lift (int64Be_toBe n)

theorem reads_readI16 (n : Int16) :
    Reads Failure.IsError readI16 (toBe 2 n.toUInt16.toNat) n :=
  (reads_readBytes (length_toBe _ _)).bind_lift (int16Be_toBe n)

theorem length_octets (ip : Ipv6Addr) : ip.octets.length = 16 := by
  obtain ⟨segments, hlength⟩ := ip
  simp [Ipv6Addr.octets, hlength]

theorem reads_readHost {ipv6 : Bool} {host : HostAddress} (hkind : ipv6 = host.isV6) :
    Reads Failure.IsError (readHost ipv6) host.layout host.text := by
  subst hkind
  cases host with
  | v4 ip port =>
    refine Reads.bind_lift (reads_readBytes ?_) (decodeHostBytes_layout ip port)
    rw [HostAddress.layout, List.length_append, length_toBe]
    rfl
  | v6 ip port =>
    refine Reads.bind_lift (reads_readBytes ?_) (decodeHostV6_layout ip port)
    rw [HostAddress.layout, List.length_append, length_toBe, length_octets]

/-- The length of a body is read back. -/
theorem reads_length32 {n : ℕ} (h : n < 2 ^ 31) :
    Reads Failure.IsError readI32 (toBe 4 n) (Int32.ofNat n) := by
  have hnat : (Int32.ofNat n).toUInt32.toNat = n := by
    change n % 2 ^ 32 = n
    exact Nat.mod_eq_of_lt (h.trans (by decide))
  have hreads := reads_readI32 (.ofNat n)
  rwa [hnat] at hreads

/-- The length of a text is read back. -/
theorem reads_length16 {n : ℕ} (h : n < 2 ^ 15) :
    Reads Failure.IsError readI16 (toBe 2 n) (Int16.ofNat n) := by
  have hnat : (Int16.ofNat n).toUInt16.toNat = n := by
    change n % 2 ^ 16 = n
    exact Nat.mod_eq_of_lt (h.trans (by decide))
  have hreads := reads_readI16 (.ofNat n)
  rwa [hnat] at hreads

theorem reads_readBody {body : List UInt8} (h : body.length < 2 ^ 31) :
    Reads Failure.IsError readBody (toBe 4 body.length ++ body) body := by
  refine (reads_length32 h).bind ?_
  have hnonneg : ¬ Int32.ofNat body.length < 0 := by
    rw [Int32.lt_iff_toInt_lt, Int32.toInt_ofNat_of_lt h]
    exact Int.not_lt.2 (Int.natCast_nonneg _)
  rw [if_neg hnonneg, Int32.toNatClampNeg_ofNat_of_lt h]
  exact reads_readBytes rfl

theorem fromUtf8_asBytes (what text : String) :
    fromUtf8 utf8Error what (asBytes text) = .ok text := by
  have hbytes : (asBytes text).toByteArray = text.toUTF8 := by
    apply ByteArray.ext
    rw [List.data_toByteArray, asBytes, Array.toArray_toList]
  have hutf8 : String.fromUTF8? text.toUTF8 = some text := by
    exact dif_pos text.isValidUTF8
  rw [fromUtf8, hbytes, hutf8]

theorem positive_iff {n : ℕ} (h : n < 2 ^ 15) : 0 < Int16.ofNat n ↔ 0 < n := by
  rw [Int16.lt_iff_toInt_lt, Int16.toInt_ofNat_of_lt h]
  exact Int.natCast_pos

theorem reads_readTopic {topic : String} (hpos : 0 < (asBytes topic).length)
    (h : (asBytes topic).length < 2 ^ 15) :
    Reads Failure.IsError (readTopic utf8Error)
      (toBe 2 (asBytes topic).length ++ asBytes topic) topic := by
  refine (reads_length16 h).bind ?_
  rw [if_neg (Int16.not_le.2 ((positive_iff h).2 hpos)), Int16.toNatClampNeg_ofNat_of_lt h]
  exact (reads_readBytes rfl).bind_lift (fromUtf8_asBytes _ _)

theorem reads_readProperties {properties : String} (h : (asBytes properties).length < 2 ^ 15) :
    Reads Failure.IsError (readProperties utf8Error)
      (toBe 2 (asBytes properties).length ++ asBytes properties) (parseProperties properties) := by
  refine (reads_length16 h).bind ?_
  rcases Nat.eq_zero_or_pos (asBytes properties).length with hzero | hpos
  · -- No bytes: there is no text to be parsed.
    have hempty : properties = "" := by
      exact String.utf8ByteSize_eq_zero_iff.1 hzero
    subst hempty
    exact Reads.pure _
  · rw [if_pos ((positive_iff h).2 hpos), Int16.toNatClampNeg_ofNat_of_lt h]
    refine (reads_readBytes rfl).bind_lift ?_
    rw [fromUtf8_asBytes]
    rfl

theorem reads_readMessage (record : MessageRecord) :
    Reads Failure.IsError (readMessage utf8Error) record.layout record.stored :=
  (reads_readI32 _).bind <| (reads_readI32 _).bind <| (reads_readI32 _).bind <|
  (reads_readI32 _).bind <| (reads_readI32 _).bind <| (reads_readI64 _).bind <|
  (reads_readI64 _).bind <| (reads_readI32 _).bind <| (reads_readI64 _).bind <|
  (reads_readHost record.bornHost_kind).bind <| (reads_readI64 _).bind <|
  (reads_readHost record.storeHost_kind).bind <| (reads_readI32 _).bind <|
  (reads_readI64 _).bind <| (reads_readBody record.body_length).bind <|
  (reads_readTopic record.topic_pos record.topic_length).bind <|
  (reads_readProperties record.properties_length).bind <| Reads.pure _

/-! ### Every text is read inside its bytes -/

theorem bytesAt_length {bytes : List UInt8} {start count : ℕ} (h : start + count ≤ bytes.length) :
    ∃ read, bytesAt bytes start count = .ok read ∧ read.length = count := by
  induction count generalizing start with
  | zero => exact ⟨[], rfl, rfl⟩
  | succ count ih =>
    have hstart : start < bytes.length := by omega
    obtain ⟨rest, hrest, hlength⟩ := @ih (start + 1) (by omega)
    refine ⟨bytes[start] :: rest, ?_, by rw [List.length_cons, hlength]⟩
    rw [bytesAt, byteAt, List.getElem?_eq_getElem hstart, hrest]
    rfl

theorem beAt_length {bytes : List UInt8} {start count : ℕ} (h : start + count ≤ bytes.length) :
    ∃ n, beAt bytes start count = .ok n ∧ n < 256 ^ count := by
  obtain ⟨read, hread, hlength⟩ := bytesAt_length h
  exact ⟨ofBe read, by rw [beAt, hread]; rfl, hlength ▸ ofBe_lt read⟩

theorem byteAt_length {bytes : List UInt8} {index : ℕ} (h : index < bytes.length) :
    ∃ byte, byteAt bytes index = .ok byte :=
  ⟨bytes[index], by rw [byteAt, List.getElem?_eq_getElem h]⟩

theorem safe_readBytes (len : ℕ) :
    Safe Failure.IsError (readBytes len) fun bytes => bytes.length = len := by
  intro cursor hpos
  by_cases hshort : remaining cursor < len
  · obtain ⟨error, herror⟩ := readBytes_short hshort
    exact .inr ⟨_, isError_error error, herror⟩
  · have hend : cursor.pos + len ≤ cursor.bytes.length := by
      simp only [remaining] at hshort
      omega
    have hlength : ((cursor.bytes.drop cursor.pos).take len).length = len := by
      rw [List.length_take, List.length_drop]
      omega
    exact .inl ⟨_, _, readBytes_enough hend, hlength, rfl, hend⟩

/-- A value is computed from bytes that are all there. -/
theorem safe_number {α : Type} {len : ℕ} {decode : List UInt8 → Except Failure α} {post : α → Prop}
    (h : ∀ bytes : List UInt8, bytes.length = len → ∃ a, decode bytes = .ok a ∧ post a) :
    Safe Failure.IsError (do
      let bytes ← readBytes len
      decode bytes) post :=
  (safe_readBytes len).bind fun bytes hlength => Safe.lift (.inl (h bytes hlength))

theorem safe_readI16 : Safe Failure.IsError readI16 fun _ => True :=
  safe_number fun bytes hlength => by
    obtain ⟨n, hn, -⟩ := @beAt_length bytes 0 2 hlength.ge
    exact ⟨_, by rw [int16Be, hn]; rfl, trivial⟩

theorem safe_readI32 : Safe Failure.IsError readI32 fun _ => True :=
  safe_number fun bytes hlength => by
    obtain ⟨n, hn, -⟩ := @beAt_length bytes 0 4 hlength.ge
    exact ⟨_, by rw [int32Be, hn]; rfl, trivial⟩

theorem safe_readI64 : Safe Failure.IsError readI64 fun _ => True :=
  safe_number fun bytes hlength => by
    obtain ⟨n, hn, -⟩ := @beAt_length bytes 0 8 hlength.ge
    exact ⟨_, by rw [int64Be, hn]; rfl, trivial⟩

/-- The text of an address of the kind that is asked for. -/
def HostText (ipv6 : Bool) (host : String) : Prop :=
  ∃ address : HostAddress, address.isV6 = ipv6 ∧ address.text = host

theorem decodeHostBytes_length {bytes : List UInt8} (h : bytes.length = 8) :
    ∃ host, decodeHostBytes bytes = .ok host ∧ HostText false host := by
  obtain ⟨a, ha⟩ := @byteAt_length bytes 0 (by omega)
  obtain ⟨b, hb⟩ := @byteAt_length bytes 1 (by omega)
  obtain ⟨c, hc⟩ := @byteAt_length bytes 2 (by omega)
  obtain ⟨d, hd⟩ := @byteAt_length bytes 3 (by omega)
  obtain ⟨port, hport, hlt⟩ := @beAt_length bytes 4 4 h.ge
  refine ⟨(HostAddress.v4 ⟨a, b, c, d⟩ (.ofNat port)).text, ?_, _, rfl, rfl⟩
  rw [decodeHostBytes, if_neg (not_not.2 h), ha, hb, hc, hd, hport, HostAddress.text,
    UInt32.toNat_ofNat_of_lt' hlt]
  rfl

theorem decodeHostV6_length {bytes : List UInt8} (h : bytes.length = 20) :
    ∃ host, decodeHostV6 bytes = .ok host ∧ HostText true host := by
  have hsegment (start : ℕ) (hstart : start + 2 ≤ 20) : ∃ n, beAt bytes start 2 = .ok n := by
    obtain ⟨n, hn, -⟩ := @beAt_length bytes start 2 (by omega)
    exact ⟨n, hn⟩
  obtain ⟨s₀, h₀⟩ := hsegment 0 (by decide)
  obtain ⟨s₁, h₁⟩ := hsegment 2 (by decide)
  obtain ⟨s₂, h₂⟩ := hsegment 4 (by decide)
  obtain ⟨s₃, h₃⟩ := hsegment 6 (by decide)
  obtain ⟨s₄, h₄⟩ := hsegment 8 (by decide)
  obtain ⟨s₅, h₅⟩ := hsegment 10 (by decide)
  obtain ⟨s₆, h₆⟩ := hsegment 12 (by decide)
  obtain ⟨s₇, h₇⟩ := hsegment 14 (by decide)
  obtain ⟨port, hport, hlt⟩ := @beAt_length bytes 16 4 h.ge
  let ip : Ipv6Addr :=
    ⟨[.ofNat s₀, .ofNat s₁, .ofNat s₂, .ofNat s₃, .ofNat s₄, .ofNat s₅, .ofNat s₆, .ofNat s₇], rfl⟩
  refine ⟨(HostAddress.v6 ip (.ofNat port)).text, ?_, _, rfl, rfl⟩
  rw [decodeHostV6, h₀, h₁, h₂, h₃, h₄, h₅, h₆, h₇, hport, HostAddress.text,
    UInt32.toNat_ofNat_of_lt' hlt]
  rfl

theorem safe_readHost (ipv6 : Bool) : Safe Failure.IsError (readHost ipv6) (HostText ipv6) := by
  cases ipv6 with
  | true => exact safe_number fun _ hlength => decodeHostV6_length hlength
  | false => exact safe_number fun _ hlength => decodeHostBytes_length hlength

theorem safe_throw {α : Type} (error : RocketmqError) (post : α → Prop) :
    Safe Failure.IsError (throw (.error error) : CursorReader α) post :=
  fun _ _ => .inr ⟨_, isError_error error, rfl⟩

theorem safe_fromUtf8 (what : String) (bytes : List UInt8) :
    (∃ text, fromUtf8 utf8Error what bytes = .ok text ∧ True) ∨
      ∃ failure, Failure.IsError failure ∧ fromUtf8 utf8Error what bytes = .error failure := by
  unfold fromUtf8
  split
  · next text _ => exact .inl ⟨text, rfl, trivial⟩
  · exact .inr ⟨_, isError_error _, rfl⟩

theorem safe_readBody : Safe Failure.IsError readBody fun _ => True := by
  refine safe_readI32.bind fun bodyLen _ => ?_
  split
  · exact safe_throw _ _
  · exact (safe_readBytes _).mono fun _ _ => trivial

theorem safe_readTopic : Safe Failure.IsError (readTopic utf8Error) fun _ => True := by
  refine safe_readI16.bind fun topicLen _ => ?_
  split
  · exact safe_throw _ _
  · exact (safe_readBytes _).bind fun bytes _ => Safe.lift (safe_fromUtf8 _ bytes)

theorem safe_readProperties : Safe Failure.IsError (readProperties utf8Error) fun _ => True := by
  refine safe_readI16.bind fun propertiesLen _ => ?_
  split
  · refine (safe_readBytes _).bind fun bytes _ => Safe.lift ?_
    rcases @safe_fromUtf8 utf8Error "属性串" bytes with
      ⟨text, htext, -⟩ | ⟨failure, hfailure, herror⟩
    · exact .inl ⟨parseProperties text, by rw [htext]; rfl, trivial⟩
    · exact .inr ⟨failure, hfailure, by rw [herror]; rfl⟩
  · exact Safe.pure trivial

/-- The hosts of a message have the addresses that its flags say. -/
def StoredMessage.HostsAsFlagged (message : StoredMessage) : Prop :=
  HostText (message.sysFlag &&& bornhostV6Flag != 0) message.bornHost ∧
    HostText (message.sysFlag &&& storehostaddressV6Flag != 0) message.storeHost

theorem safe_readMessage :
    Safe Failure.IsError (readMessage utf8Error) StoredMessage.HostsAsFlagged :=
  safe_readI32.bind fun _ _ => safe_readI32.bind fun _ _ => safe_readI32.bind fun _ _ =>
  safe_readI32.bind fun _ _ => safe_readI32.bind fun _ _ => safe_readI64.bind fun _ _ =>
  safe_readI64.bind fun _ _ => safe_readI32.bind fun _ _ => safe_readI64.bind fun _ _ =>
  (safe_readHost _).bind fun _ hborn => safe_readI64.bind fun _ _ =>
  (safe_readHost _).bind fun _ hstore => safe_readI32.bind fun _ _ => safe_readI64.bind fun _ _ =>
  safe_readBody.bind fun _ _ => safe_readTopic.bind fun _ _ => safe_readProperties.bind fun _ _ =>
  Safe.pure ⟨hborn, hstore⟩

theorem hostsAsFlagged_decode {bytes : List UInt8} {message : StoredMessage}
    (h : decodeStoredMessage utf8Error bytes = .ok message) : message.HostsAsFlagged := by
  rw [decodeStoredMessage] at h
  rcases @safe_readMessage utf8Error ⟨bytes, 0⟩ (Nat.zero_le _) with
    ⟨message', cursor, hread, hpost, -⟩ | ⟨failure, -, hread⟩
  · rw [hread] at h
    exact Except.ok.inj h ▸ hpost
  · rw [hread] at h
    exact absurd h (by simp [Except.map])

theorem decode_append (record : MessageRecord) (rest : List UInt8) :
    decodeStoredMessage utf8Error (record.layout ++ rest) = .ok record.stored := by
  have hread := (@reads_readMessage utf8Error record).complete [] rest
  rw [List.nil_append, List.length_nil] at hread
  rw [decodeStoredMessage, hread]
  rfl

/-- **Decoding inverts the layout.** A message is read back from its layout, whatever follows it; a
part of the layout is an error; and no text is read beyond its end. -/
theorem decode_layout (utf8Error : List UInt8 → String) :
    (∀ (record : MessageRecord) (rest : List UInt8),
      decodeStoredMessage utf8Error (record.layout ++ rest) = .ok record.stored) ∧
    (∀ (record : MessageRecord) (cut : List UInt8), cut <+: record.layout → cut ≠ record.layout →
      ∃ error, decodeStoredMessage utf8Error cut = .error (.error error)) ∧
    ∀ bytes, decodeStoredMessage utf8Error bytes ≠ .error .panic := by
  refine ⟨decode_append, fun record cut hcut hne => ?_, fun bytes hpanic => ?_⟩
  · obtain ⟨failure, hfailure, hread⟩ :=
      (@reads_readMessage utf8Error record).truncated [] cut hcut hne
    rw [List.nil_append, List.length_nil] at hread
    cases failure with
    | error error => exact ⟨error, by rw [decodeStoredMessage, hread]; rfl⟩
    | panic => exact absurd rfl hfailure
  · rcases @safe_readMessage utf8Error ⟨bytes, 0⟩ (Nat.zero_le _) with
      ⟨message, cursor, hread, -⟩ | ⟨failure, hfailure, hread⟩
    · rw [decodeStoredMessage, hread] at hpanic
      exact absurd hpanic (by simp [Except.map])
    · rw [decodeStoredMessage, hread] at hpanic
      exact hfailure (Except.error.inj hpanic)

end Decode

/-- A message whose hosts have an IPv4 and an IPv6 address. -/
def orderRecord : MessageRecord where
  totalSize := 0
  magicCode := -1430532899
  bodyCrc := 123456789
  queueId := 3
  flag := 0
  queueOffset := 7
  physicOffset := 2912
  sysFlag := 16
  bornTimestamp := 1735710000000
  bornHost := .v4 ⟨10, 0, 0, 9⟩ 52300
  storeTimestamp := 1735710000010
  storeHost := .v6 ⟨[0, 0, 0, 0, 0, 0, 0, 1], rfl⟩ 10911
  reconsumeTimes := 2
  preparedTransactionOffset := 0
  body := [1, 2, 3]
  topic := "order"
  properties := "KEYS=order-1;TAGS=create"
  bornHost_kind := by decide
  storeHost_kind := by decide
  body_length := by decide
  topic_pos := by decide
  topic_length := by decide
  properties_length := by decide

/-- A message is read in front of another byte; nothing is read from no bytes. -/
theorem decode_layout_order :
    decodeStoredMessage (fun _ => "") (orderRecord.layout ++ [0]) = .ok orderRecord.stored ∧
      ∃ error, decodeStoredMessage (fun _ => "") [] = .error (.error error) :=
  ⟨(decode_layout _).1 orderRecord [0],
    (decode_layout _).2.1 orderRecord [] List.nil_prefix (by simp [MessageRecord.layout, toBe])⟩

end Rocketmq
end Navop
