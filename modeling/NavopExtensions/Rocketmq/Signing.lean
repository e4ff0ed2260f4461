import NavopExtensions.Lib.Bytes
import NavopExtensions.Lib.Utf8
import NavopExtensions.Rocketmq.Acl

/-!
# What a signature covers

`rocketmq/src/acl.rs`, on top of its model: the signature of a request is the HMAC-SHA1 of the values
of its fields in the order of the bytes of their names, and of its body. Signing again changes
nothing, which `invoke_namesrv` of `rocketmq/src/remoting.rs` needs when it tries another server with
the same command.
-/

namespace Navop
namespace Rocketmq

open AclCredentials

/-! ### The order of names -/

theorem asBytes_eq (text : String) : asBytes text = text.toList.flatMap Utf8.encode := by
  have hbytes : text.toByteArray = text.toList.utf8Encode := by
    rw [← String.toByteArray_ofList, String.ofList_toList]
  rw [asBytes, String.toUTF8_eq_toByteArray, hbytes, List.utf8Encode, List.data_toByteArray]
  rfl

/-- Names are ordered like their bytes. -/
theorem asBytes_lt {a b : String} (h : a < b) : asBytes a < asBytes b := by
  rw [asBytes_eq, asBytes_eq]
  exact Utf8.flatMap_encode_lt (String.lt_iff_toList_lt.1 h)

/-- `signing_payload`, for an enumeration of the map. -/
def signingPayloadFrom (names : List String) (command : RemotingCommand) : List UInt8 :=
  let keys := (names.mergeSort (· ≤ ·)).filter (· ≠ "Signature")
  keys.flatMap (fun key => asBytes ((command.extFields.lookup key).getD ""))
    ++ command.body.getD []

/-- The enumeration does not matter. -/
theorem signingPayloadFrom_eq {names : List String} {command : RemotingCommand} (hnodup : names.Nodup)
    (hnames : ∀ key, key ∈ names ↔ key ∈ command.extFields) :
    signingPayloadFrom names command = signingPayload command := by
  have hperm : (names.mergeSort (· ≤ ·)).Perm (command.extFields.keys.sort (· ≤ ·)) := by
    refine (List.perm_ext_iff_of_nodup ?_ (Finset.sort_nodup _ _)).2 fun key => ?_
    · exact (List.mergeSort_perm names _).nodup_iff.2 hnodup
    · rw [List.mem_mergeSort, Finset.mem_sort, Finmap.mem_keys, hnames]
  have hsorted : (names.mergeSort (· ≤ ·)).Pairwise (· ≤ ·) := by
    have hpairwise := @List.pairwise_mergeSort String (fun a b => decide (a ≤ b))
      (by simpa using fun a b c => le_trans) (by simpa using le_total) names
    simpa using hpairwise
  have hsame : names.mergeSort (· ≤ ·) = command.extFields.keys.sort (· ≤ ·) :=
    hperm.eq_of_pairwise' hsorted (Finset.pairwise_sort _ _)
  rw [signingPayloadFrom, signingPayload, hsame]

/-- The values in the order of the bytes of their names. -/
theorem signingPayload_eq {command : RemotingCommand} {order : List String}
    (horder : order.Pairwise fun a b => asBytes a < asBytes b)
    (hmem : ∀ key, key ∈ order ↔ key ∈ command.extFields ∧ key ≠ "Signature") :
    signingPayload command
      = order.flatMap (fun key => asBytes ((command.extFields.lookup key).getD ""))
        ++ command.body.getD [] := by
  have hsorted : ((command.extFields.keys.sort (· ≤ ·)).filter (· ≠ "Signature")).Pairwise
      fun a b => asBytes a < asBytes b :=
    ((Finset.sortedLT_sort command.extFields.keys).pairwise.imp asBytes_lt).filter _
  have hnodup {names : List String} (h : names.Pairwise fun a b => asBytes a < asBytes b) :
      names.Nodup := by
    refine List.Pairwise.imp (fun {a b} hlt (heq : a = b) => ?_) h
    exact List.lt_irrefl (asBytes b) (heq ▸ hlt)
  have hperm : ((command.extFields.keys.sort (· ≤ ·)).filter (· ≠ "Signature")).Perm order := by
    refine (List.perm_ext_iff_of_nodup (hnodup hsorted) (hnodup horder)).2 fun key => ?_
    rw [List.mem_filter, Finset.mem_sort, Finmap.mem_keys, hmem, decide_eq_true_iff]
  have hsame : (command.extFields.keys.sort (· ≤ ·)).filter (· ≠ "Signature") = order :=
    hperm.eq_of_pairwise (fun a b _ _ hab hba => absurd hba (List.lt_asymm hab)) hsorted horder
  rw [signingPayload, hsame]

/-! ### Signing -/

/-- The fields with the credentials. -/
def accessFields (credentials : AclCredentials) (fields : Fields) : Fields :=
  let fields := Fields.orInsert fields "AccessKey" credentials.accessKey
  match credentials.securityToken with
  | some token => Fields.orInsert fields "SecurityToken" token
  | none => fields

theorem signRequest_eq (crypto : Crypto) (credentials : AclCredentials) (command : RemotingCommand) :
    credentials.signRequest crypto command
      = { command with
          extFields := (accessFields credentials command.extFields).insert "Signature"
            (hmacSha1Base64 crypto (signingPayload
              { command with extFields := accessFields credentials command.extFields })
              credentials.secretKey) } := by
  obtain ⟨accessKey, secretKey, _ | token⟩ := credentials
  · rfl
  · rfl

/-- The same fields, up to the signature. -/
def AgreeOffSignature (fields fields' : Fields) : Prop :=
  ∀ key, key ≠ "Signature" → fields.lookup key = fields'.lookup key

theorem agreeOffSignature_insert (fields : Fields) (signature : String) :
    AgreeOffSignature (fields.insert "Signature" signature) fields :=
  fun _ hkey => Finmap.lookup_insert_of_ne fields hkey

theorem AgreeOffSignature.mem_iff {fields fields' : Fields} (h : AgreeOffSignature fields fields')
    {key : String} (hkey : key ≠ "Signature") : key ∈ fields ↔ key ∈ fields' := by
  rw [Finmap.mem_iff, Finmap.mem_iff, h key hkey]

theorem AgreeOffSignature.orInsert {fields fields' : Fields} (h : AgreeOffSignature fields fields')
    {key value : String} (hkey : key ≠ "Signature") :
    AgreeOffSignature (Fields.orInsert fields key value) (Fields.orInsert fields' key value) := by
  intro other hother
  rw [Fields.orInsert, Fields.orInsert]
  by_cases hmem : key ∈ fields
  · rw [if_pos hmem, if_pos ((h.mem_iff hkey).1 hmem)]
    exact h other hother
  · rw [if_neg hmem, if_neg fun hmem' => hmem ((h.mem_iff hkey).2 hmem')]
    by_cases heq : other = key
    · rw [heq, Finmap.lookup_insert, Finmap.lookup_insert]
    · rw [Finmap.lookup_insert_of_ne _ heq, Finmap.lookup_insert_of_ne _ heq]
      exact h other hother

theorem AgreeOffSignature.accessFields {fields fields' : Fields} (h : AgreeOffSignature fields fields')
    (credentials : AclCredentials) :
    AgreeOffSignature (accessFields credentials fields) (accessFields credentials fields') := by
  have hkey := @AgreeOffSignature.orInsert _ _ h "AccessKey" credentials.accessKey (by decide)
  rw [Rocketmq.accessFields, Rocketmq.accessFields]
  cases credentials.securityToken with
  | none => exact hkey
  | some token => exact hkey.orInsert (by decide)

/-- The names of the signed fields, in the order of their bytes. -/
def signedNames (fields : Fields) : List String := (fields.keys.sort (· ≤ ·)).filter (· ≠ "Signature")

theorem signedNames_pairwise (fields : Fields) :
    (signedNames fields).Pairwise fun a b => asBytes a < asBytes b :=
  ((Finset.sortedLT_sort fields.keys).pairwise.imp asBytes_lt).filter _

theorem mem_signedNames {fields : Fields} {key : String} :
    key ∈ signedNames fields ↔ key ∈ fields ∧ key ≠ "Signature" := by
  rw [signedNames, List.mem_filter, Finset.mem_sort, Finmap.mem_keys, decide_eq_true_iff]

/-- The signature is no part of what is signed. -/
theorem signingPayload_congr {command : RemotingCommand} {fields fields' : Fields}
    (h : AgreeOffSignature fields fields') :
    signingPayload { command with extFields := fields }
      = signingPayload { command with extFields := fields' } := by
  rw [@signingPayload_eq { command with extFields := fields } _
    (signedNames_pairwise fields') fun key => ?_, signingPayload]
  · change (signedNames fields').flatMap _ ++ _ = (signedNames fields').flatMap _ ++ _
    congr 1
    refine List.flatMap_congr fun key hkey => ?_
    change asBytes ((fields.lookup key).getD "") = _
    rw [h key (mem_signedNames.1 hkey).2]
  · rw [mem_signedNames]
    exact and_congr_left fun hkey => (h.mem_iff hkey).symm

/-- Commands that differ in the signature are signed alike. -/
theorem signRequest_congr (crypto : Crypto) (credentials : AclCredentials) (command : RemotingCommand)
    {fields : Fields} (h : AgreeOffSignature fields command.extFields) :
    credentials.signRequest crypto { command with extFields := fields }
      = credentials.signRequest crypto command := by
  have haccess := h.accessFields credentials
  rw [signRequest_eq, signRequest_eq, signingPayload_congr haccess]
  congr 1
  refine Finmap.ext_lookup fun key => ?_
  by_cases hkey : key = "Signature"
  · rw [hkey, Finmap.lookup_insert, Finmap.lookup_insert]
  · rw [Finmap.lookup_insert_of_ne _ hkey, Finmap.lookup_insert_of_ne _ hkey]
    exact haccess key hkey

theorem orInsert_of_mem {fields : Fields} {key : String} (value : String) (h : key ∈ fields) :
    Fields.orInsert fields key value = fields := if_pos h

theorem mem_orInsert {fields : Fields} {key value other : String} :
    other ∈ Fields.orInsert fields key value ↔ other = key ∨ other ∈ fields := by
  rw [Fields.orInsert]
  split
  · next h =>
    refine ⟨.inr, ?_⟩
    rintro (rfl | hmem)
    · exact h
    · exact hmem
  · exact Finmap.mem_insert

/-- The credentials are not added twice. -/
theorem accessFields_insert (credentials : AclCredentials) (fields : Fields) (signature : String) :
    accessFields credentials ((accessFields credentials fields).insert "Signature" signature)
      = (accessFields credentials fields).insert "Signature" signature := by
  have hkey : "AccessKey" ∈ accessFields credentials fields := by
    rw [accessFields]
    cases credentials.securityToken with
    | none => exact mem_orInsert.2 (.inl rfl)
    | some token => exact mem_orInsert.2 (.inr (mem_orInsert.2 (.inl rfl)))
  rw [accessFields, orInsert_of_mem _ (Finmap.mem_insert.2 (.inr hkey))]
  cases htoken : credentials.securityToken with
  | none => rfl
  | some token =>
    refine orInsert_of_mem token (Finmap.mem_insert.2 (.inr ?_))
    rw [accessFields, htoken]
    exact mem_orInsert.2 (.inl rfl)

theorem signRequest_signRequest (crypto : Crypto) (credentials : AclCredentials)
    (command : RemotingCommand) :
    credentials.signRequest crypto (credentials.signRequest crypto command)
      = credentials.signRequest crypto command := by
  rw [signRequest_eq crypto credentials command, signRequest_eq]
  simp only [accessFields_insert]
  rw [signingPayload_congr (agreeOffSignature_insert _ _), Finmap.insert_insert]

theorem lookup_orInsert_of_ne (fields : Fields) {key other : String} (value : String)
    (h : other ≠ key) : (Fields.orInsert fields key value).lookup other = fields.lookup other := by
  rw [Fields.orInsert]
  split
  · rfl
  · exact Finmap.lookup_insert_of_ne _ h

theorem lookup_accessFields (credentials : AclCredentials) (fields : Fields) {key : String}
    (hkey : key ≠ "AccessKey") (htoken : key ≠ "SecurityToken") :
    (accessFields credentials fields).lookup key = fields.lookup key := by
  rw [accessFields]
  cases credentials.securityToken with
  | none => exact lookup_orInsert_of_ne _ _ hkey
  | some token => exact (lookup_orInsert_of_ne _ _ htoken).trans (lookup_orInsert_of_ne _ _ hkey)

/-- The source's HMAC is that of RFC 2104. -/
theorem hmacSha1_eq {crypto : Crypto} (hsha1 : ∀ text, (crypto.sha1 text).length = 20)
    (payload secretKey : List UInt8) :
    hmacSha1 crypto payload secretKey = Hmac.hmac crypto.sha1 64 secretKey payload := by
  have hlength : (Hmac.blockKey crypto.sha1 64 secretKey).length = 64 :=
    Hmac.length_blockKey (fun text => (hsha1 text).trans_le (by decide)) secretKey
  have hblock (byte : UInt8) : Hmac.xor (Hmac.blockKey crypto.sha1 64 secretKey)
      (List.replicate 64 byte) = (Hmac.blockKey crypto.sha1 64 secretKey).map (· ^^^ byte) := by
    have hxor := Hmac.xor_replicate (Hmac.blockKey crypto.sha1 64 secretKey) byte
    rwa [hlength] at hxor
  rw [Hmac.hmac]
  simp only [hblock]
  rfl

/-- **Signing is canonical and can be repeated.** It leaves everything but its own fields as it was;
the signature is the HMAC of the values in the order of the bytes of their names, and of the body; the
enumeration of the map and a signature that was there before do not matter; and signing again changes
nothing. -/
theorem signing_canonical (crypto : Crypto) (hsha1 : ∀ text, (crypto.sha1 text).length = 20)
    (credentials : AclCredentials) (command : RemotingCommand) :
    let signed := credentials.signRequest crypto command
    (signed = { command with extFields := signed.extFields } ∧
      ∀ key, key ≠ "AccessKey" → key ≠ "SecurityToken" → key ≠ "Signature" →
        signed.extFields.lookup key = command.extFields.lookup key) ∧
    (∃ order : List String, (order.Pairwise fun a b => asBytes a < asBytes b) ∧
      (∀ key, key ∈ order ↔ key ∈ signed.extFields ∧ key ≠ "Signature") ∧
      signed.extFields.lookup "Signature" = some (crypto.base64 (Hmac.hmac crypto.sha1 64
        (asBytes credentials.secretKey)
        (order.flatMap (fun key => asBytes ((signed.extFields.lookup key).getD ""))
          ++ signed.body.getD [])))) ∧
    (∀ names : List String, names.Nodup → (∀ key, key ∈ names ↔ key ∈ command.extFields) →
      signingPayloadFrom names command = signingPayload command) ∧
    (∀ signature, credentials.signRequest crypto
      { command with extFields := command.extFields.insert "Signature" signature } = signed) ∧
    credentials.signRequest crypto signed = signed ∧
    ∀ payload secretKey, hmacSha1 crypto payload secretKey
      = Hmac.hmac crypto.sha1 64 secretKey payload := by
  intro signed
  have hsigned : signed = _ := signRequest_eq crypto credentials command
  refine ⟨⟨?_, fun key hkey htoken hsignature => ?_⟩, ⟨signedNames signed.extFields,
    signedNames_pairwise _, fun _ => mem_signedNames, ?_⟩, fun names => signingPayloadFrom_eq,
    fun signature => ?_, signRequest_signRequest crypto credentials command, hmacSha1_eq hsha1⟩
  · rw [hsigned]
  · rw [hsigned]
    exact (Finmap.lookup_insert_of_ne _ hsignature).trans (lookup_accessFields _ _ hkey htoken)
  · -- The fields that are signed are those of the signed command.
    have hpayload : signingPayload signed = signingPayload
        { command with extFields := accessFields credentials command.extFields } := by
      rw [hsigned]
      exact @signingPayload_congr command _ _ (agreeOffSignature_insert _ _)
    have hlookup : signed.extFields.lookup "Signature" = some (hmacSha1Base64 crypto
        (signingPayload signed) credentials.secretKey) := by
      rw [hpayload, hsigned]
      exact Finmap.lookup_insert _
    rw [hlookup, hmacSha1Base64, hmacSha1_eq hsha1]
    rfl
  · exact signRequest_congr crypto credentials command (agreeOffSignature_insert _ _)

/-- SHA-1 and Base64 at one request. -/
def adminCrypto : Crypto where
  sha1 text :=
    if text = Hmac.xor (Hmac.blockKey id 64 [115, 107]) (List.replicate 64 0x36) ++ [97, 107, 49] then
      [93, 168, 10, 172, 95, 87, 244, 137, 95, 23, 0, 43, 211, 31, 180, 197, 55, 130, 136, 230]
    else [130, 226, 7, 219, 239, 62, 52, 184, 252, 158, 16, 148, 194, 195, 193, 229, 113, 51, 114, 180]
  base64 _ := "guIH2+8+NLj8nhCUwsPB5XEzcrQ="

/-- A request with one field is signed again. -/
theorem signing_canonical_admin :
    (AclCredentials.mk "ak" "sk" none).signRequest adminCrypto
        ((AclCredentials.mk "ak" "sk" none).signRequest adminCrypto
          (.createRequest 10 (Finmap.insert "a" "1" ∅)))
      = (AclCredentials.mk "ak" "sk" none).signRequest adminCrypto
        (.createRequest 10 (Finmap.insert "a" "1" ∅)) :=
  (signing_canonical adminCrypto (fun text => by
    simp only [adminCrypto]
    split <;> rfl) ⟨"ak", "sk", none⟩ (.createRequest 10 (Finmap.insert "a" "1" ∅))).2.2.2.2.1

end Rocketmq
end Navop
