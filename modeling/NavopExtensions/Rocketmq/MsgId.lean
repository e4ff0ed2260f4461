import NavopExtensions.Rocketmq.Message

/-!
# Ids of stored messages

`rocketmq/src/message.rs`: the id of a stored message is the host and the offset of the message in
hexadecimal (`build_msg_id`), and is read back by `parse_msg_id`. The id has room for four bytes of
an address. The text of an IPv6 host has brackets, which no address is parsed with, so that such a
host becomes `0.0.0.0` in the id: `parseMsgId_offsetMsgId_iff` says that ids are read back for
messages with an IPv4 store host, and for no others.
-/

namespace Navop
namespace Rocketmq

open BigEndian Net

/-- `split_host_port`: at the last colon, and port 0 where no port stands behind it. -/
def splitHostPort (hostPort : List Char) : List Char × ℕ :=
  match Text.rsplitOnce ':' hostPort with
  | some (host, port) =>
    match Text.parseUnsigned 10 65535 port with
    | some port => (host, port)
    | none => (hostPort, 0)
  | none => (hostPort, 0)

/-- `encode_host_bytes`: an address that is not one of IPv4 is four zeros. -/
def encodeHostBytes (hostPort : List Char) : List UInt8 :=
  let (host, port) := splitHostPort hostPort
  let octets := match parseIpv4 host with
    | some ip => ip.octets
    | none =>
      match parseIpv6 host with
      | some ip => ip.octets
      | none => [0, 0, 0, 0]
  octets ++ toBe 4 port

/-- `{byte:02X}`: two digits in upper case. -/
def hexByte (byte : UInt8) : List Char :=
  [(Nat.digitChar (byte.toNat / 16)).toUpper, (Nat.digitChar (byte.toNat % 16)).toUpper]

/-- `build_msg_id`: the host and the offset in hexadecimal digits. -/
def buildMsgId (hostPort : String) (physicOffset : Int64) : String :=
  .ofList ((encodeHostBytes hostPort.toList ++ toBe 8 physicOffset.toUInt64.toNat).flatMap hexByte)

/-- `StoredMessage::offset_msg_id`: where the message lies, as an id. -/
def StoredMessage.offsetMsgId (message : StoredMessage) : String :=
  buildMsgId message.storeHost message.physicOffset

/-- `to_digit(16)`, with the error for a character that is no digit. -/
def hexDigit (c : Char) : Except Failure ℕ :=
  match Text.digitValue 16 c with
  | some digit => .ok digit
  | none => .error (.error (.protocol ("非法十六进制字符: " ++ c.toString)))

/-- The loop of `hex_to_bytes`: two digits a byte. -/
def hexPairs : List Char → Except Failure (List UInt8)
  | [] => .ok []
  | [c] => do
    let _ ← hexDigit c
    .error .panic
  | c :: d :: rest => do
    let high ← hexDigit c
    let low ← hexDigit d
    let bytes ← hexPairs rest
    return .ofNat (high <<< 4 ||| low) :: bytes

/-- `str::len`: in bytes of UTF-8. -/
def byteLen (text : List Char) : ℕ := (text.map Char.utf8Size).sum

/-- `hex_to_bytes`: the length is looked at in bytes, the digits in characters. -/
def hexToBytes (text : List Char) : Except Failure (List UInt8) :=
  if byteLen text % 2 ≠ 0 then .error (.error (.protocol "十六进制串长度应为偶数"))
  else hexPairs text

/-- `parse_msg_id`: 32 digits, a host and an offset. -/
def parseMsgId (msgId : String) : Except Failure (String × Int64) := do
  let trimmed := Text.trim msgId.toList
  let bytes ← hexToBytes trimmed
  if bytes.length ≠ 16 then
    .error (.error (.protocol ("非法消息 ID 长度: 期望 32 个十六进制字符, 实际 "
      ++ toString (byteLen trimmed))))
  else do
    let hostBytes ← slice bytes 0 8
    let host ← decodeHostBytes hostBytes
    let offset ← int64Be bytes 8
    return (host, offset)

/-! ### Hexadecimal texts -/

theorem hexDigit_digitChar : ∀ n < 16, hexDigit (Nat.digitChar n).toUpper = .ok n := by decide

theorem hexPairs_flatMap (bytes : List UInt8) : hexPairs (bytes.flatMap hexByte) = .ok bytes := by
  induction bytes with
  | nil => rfl
  | cons byte bytes ih =>
    have hlt : byte.toNat < 256 := byte.toNat_lt
    have hlow : byte.toNat % 16 < 16 := Nat.mod_lt _ (by decide)
    have hor : (byte.toNat / 16) <<< 4 ||| byte.toNat % 16 = byte.toNat := by
      rw [Nat.shiftLeft_eq, Nat.mul_comm, ← Nat.two_pow_add_eq_or_of_lt hlow]
      exact Nat.div_add_mod byte.toNat 16
    rw [List.flatMap_cons, hexByte, List.cons_append, List.cons_append, List.nil_append, hexPairs,
      hexDigit_digitChar _ (by omega), hexDigit_digitChar _ hlow, ih]
    change Except.ok (UInt8.ofNat _ :: bytes) = _
    rw [hor, UInt8.ofNat_toNat]

/-- A digit takes one byte and is no white space. -/
theorem digitChar_plain : ∀ n < 16, (Nat.digitChar n).toUpper.utf8Size = 1 ∧
    Text.isWhitespace (Nat.digitChar n).toUpper = false := by decide

theorem byteLen_flatMap (bytes : List UInt8) :
    byteLen (bytes.flatMap hexByte) = 2 * bytes.length := by
  induction bytes with
  | nil => rfl
  | cons byte bytes ih =>
    have hlt : byte.toNat < 256 := byte.toNat_lt
    have hhigh := (digitChar_plain (byte.toNat / 16) (by omega)).1
    have hlow := (digitChar_plain (byte.toNat % 16) (Nat.mod_lt _ (by decide))).1
    have hcons : byteLen ((byte :: bytes).flatMap hexByte)
        = (Nat.digitChar (byte.toNat / 16)).toUpper.utf8Size
          + ((Nat.digitChar (byte.toNat % 16)).toUpper.utf8Size
            + byteLen (bytes.flatMap hexByte)) := rfl
    rw [hcons, hhigh, hlow, ih, List.length_cons]
    omega

theorem trim_flatMap (bytes : List UInt8) :
    Text.trim (bytes.flatMap hexByte) = bytes.flatMap hexByte := by
  refine Text.trim_eq_self fun c hc => ?_
  obtain ⟨byte, -, hbyte⟩ := List.mem_flatMap.1 hc
  have hlt : byte.toNat < 256 := byte.toNat_lt
  rcases List.mem_pair.1 hbyte with rfl | rfl
  · exact (digitChar_plain _ (by omega)).2
  · exact (digitChar_plain _ (Nat.mod_lt _ (by decide))).2

/-! ### Ids of hosts -/

/-- The host and the offset of an id with four bytes of an address. -/
theorem parseMsgId_buildMsgId {text : String} {ip : Ipv4Addr} {port : ℕ} (physicOffset : Int64)
    (hport : port < 65536) (hencode : encodeHostBytes text.toList = ip.octets ++ toBe 4 port) :
    parseMsgId (buildMsgId text physicOffset) = .ok (hostPort ip.display port, physicOffset) := by
  have hbytes : hexToBytes (Text.trim (buildMsgId text physicOffset).toList)
      = .ok (ip.octets ++ toBe 4 port ++ toBe 8 physicOffset.toUInt64.toNat) := by
    rw [buildMsgId, hencode, String.toList_ofList, trim_flatMap, hexToBytes, byteLen_flatMap,
      if_neg (by omega), hexPairs_flatMap]
  have hlength : (ip.octets ++ toBe 4 port ++ toBe 8 physicOffset.toUInt64.toNat).length = 16 := by
    simp [Ipv4Addr.octets]
  have hhost : decodeHostBytes (ip.octets ++ toBe 4 port) = .ok (hostPort ip.display port) := by
    have hdecode := decodeHostBytes_layout ip (.ofNat port)
    rwa [HostAddress.text, UInt32.toNat_ofNat_of_lt' (hport.trans (by decide))] at hdecode
  have hslice : slice (ip.octets ++ toBe 4 port ++ toBe 8 physicOffset.toUInt64.toNat) 0 8
      = .ok (ip.octets ++ toBe 4 port) := rfl
  have hoffset : int64Be (ip.octets ++ toBe 4 port ++ toBe 8 physicOffset.toUInt64.toNat) 8
      = .ok physicOffset := int64Be_toBe physicOffset
  simp only [parseMsgId, hbytes, bind, Except.bind, hlength, ne_eq, not_true_eq_false, if_false,
    hslice, hhost, hoffset]
  rfl

theorem rsplitOnce_hostPort (ip : List Char) (port : ℕ) :
    Text.rsplitOnce ':' (hostPort ip port).toList = some (ip, Nat.toDigits 10 port) := by
  have hcolon : ':' ∉ (Nat.toDigits 10 port).reverse := fun hmem =>
    absurd (Text.isDigit_toDigits ':' (List.mem_reverse.1 hmem)) (by decide)
  rw [hostPort, String.toList_ofList, Text.rsplitOnce, List.reverse_append, List.reverse_cons,
    List.append_assoc, List.singleton_append, Text.splitOnce_append hcolon]
  simp only [Option.map_some, List.reverse_reverse]

theorem hostPort_inj {ip ip' : List Char} {port port' : ℕ}
    (h : hostPort ip port = hostPort ip' port') : ip = ip' ∧ port = port' := by
  have hsplit := rsplitOnce_hostPort ip port
  rw [h, rsplitOnce_hostPort] at hsplit
  obtain ⟨rfl, hdigits⟩ := Prod.mk.inj (Option.some.inj hsplit)
  refine ⟨rfl, ?_⟩
  rw [← @Nat.ofDigitChars_ten_toDigits port, ← hdigits, Nat.ofDigitChars_ten_toDigits]

theorem splitHostPort_hostPort (ip : List Char) {port : ℕ} (hport : port < 65536) :
    splitHostPort (hostPort ip port).toList = (ip, port) := by
  simp only [splitHostPort, rsplitOnce_hostPort,
    Text.parseUnsigned_toDigits (Nat.le_of_lt_succ hport)]

/-- The bytes of an IPv4 host are its own. -/
theorem encodeHostBytes_v4 (ip : Ipv4Addr) {port : ℕ} (hport : port < 65536) :
    encodeHostBytes (hostPort ip.display port).toList = ip.octets ++ toBe 4 port := by
  simp only [encodeHostBytes, splitHostPort_hostPort _ hport, parseIpv4_display]

/-- No address is parsed in the brackets of an IPv6 host. -/
theorem encodeHostBytes_v6 (ip : List Char) {port : ℕ} (hport : port < 65536) :
    encodeHostBytes (hostPort ('[' :: ip) port).toList
      = Ipv4Addr.octets ⟨0, 0, 0, 0⟩ ++ toBe 4 port := by
  simp only [encodeHostBytes, splitHostPort_hostPort _ hport, parseIpv4_bracket, parseIpv6_bracket]
  rfl

/-- **When an id is read back.** The id of a message that was read from the commit log, with a port
below 65536, is parsed as the store host and the offset of the message exactly when the flags say that
the store host has an IPv4 address. -/
theorem parseMsgId_offsetMsgId_iff {utf8Error : List UInt8 → String} {bytes : List UInt8}
    {message : StoredMessage} {host : List Char} {port : ℕ}
    (hdecode : decodeStoredMessage utf8Error bytes = .ok message)
    (hhost : message.storeHost = hostPort host port) (hport : port < 65536) :
    parseMsgId message.offsetMsgId = .ok (message.storeHost, message.physicOffset) ↔
      message.sysFlag &&& storehostaddressV6Flag = 0 := by
  obtain ⟨address, hkind, htext⟩ := (hostsAsFlagged_decode hdecode).2
  rw [hhost] at htext
  rw [StoredMessage.offsetMsgId, hhost]
  cases address with
  | v4 ip port' =>
    obtain ⟨rfl, rfl⟩ := hostPort_inj htext
    have hflag : message.sysFlag &&& storehostaddressV6Flag = 0 := by
      simpa [HostAddress.isV6] using hkind
    exact iff_of_true (parseMsgId_buildMsgId _ hport (encodeHostBytes_v4 ip hport)) hflag
  | v6 ip port' =>
    obtain ⟨rfl, rfl⟩ := hostPort_inj htext
    have hflag : message.sysFlag &&& storehostaddressV6Flag ≠ 0 := by
      simpa [HostAddress.isV6] using hkind
    refine iff_of_false ?_ hflag
    rw [List.cons_append, parseMsgId_buildMsgId _ hport (encodeHostBytes_v6 _ hport)]
    -- The id has the address 0.0.0.0.
    intro hsame
    have htexts := (hostPort_inj (Prod.mk.inj (Except.ok.inj hsame)).1).1
    have hhead : some '0' = some '[' := congrArg List.head? htexts
    exact absurd hhead (by decide)

/-- A message whose hosts have IPv4 addresses. -/
def plainRecord : MessageRecord :=
  { orderRecord with
    sysFlag := 0
    storeHost := .v4 ⟨10, 0, 0, 2⟩ 10911
    bornHost_kind := by decide
    storeHost_kind := by decide }

/-- The id of a message whose store host has an IPv4 address is read back. -/
theorem parseMsgId_offsetMsgId_v4 :
    parseMsgId plainRecord.stored.offsetMsgId
      = .ok (plainRecord.stored.storeHost, plainRecord.stored.physicOffset) :=
  (parseMsgId_offsetMsgId_iff (@decode_append (fun _ => "") plainRecord []) rfl
    (by decide)).2 (by decide)

/-- **An id names another host.** The store host of the message is `[::1]:10911`, and its id is that
of a message of the host `0.0.0.0:10911`. -/
theorem offsetMsgId_loses_host :
    decodeStoredMessage (fun _ => "") orderRecord.layout = .ok orderRecord.stored ∧
      orderRecord.stored.storeHost = hostPort "[::1]".toList 10911 ∧
      parseMsgId orderRecord.stored.offsetMsgId = .ok (hostPort "0.0.0.0".toList 10911, 2912) ∧
      parseMsgId orderRecord.stored.offsetMsgId
        ≠ .ok (orderRecord.stored.storeHost, orderRecord.stored.physicOffset) := by
  have hdecode := @decode_append (fun _ => "") orderRecord []
  rw [List.append_nil] at hdecode
  have hhost : orderRecord.stored.storeHost = hostPort "[::1]".toList 10911 := rfl
  have hparse : parseMsgId orderRecord.stored.offsetMsgId
      = .ok (hostPort "0.0.0.0".toList 10911, 2912) := by
    rw [StoredMessage.offsetMsgId, hhost]
    exact parseMsgId_buildMsgId 2912 (by decide) (encodeHostBytes_v6 _ (by decide))
  refine ⟨hdecode, hhost, hparse, fun hsame => ?_⟩
  rw [hparse, hhost] at hsame
  have htexts := (hostPort_inj (Prod.mk.inj (Except.ok.inj hsame)).1).1
  exact absurd htexts (by decide)

end Rocketmq
end Navop
