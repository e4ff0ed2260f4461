import NavopExtensions.Rocketmq.Command

/-!
# Signing requests

`rocketmq/src/acl.rs`. SHA-1 and Base64 come from libraries and are parameters here; the HMAC on top
of SHA-1 is the source's own.
-/

namespace Navop
namespace Rocketmq

/-- The digest of `sha1` and the encoding of `base64`. -/
structure Crypto where
  sha1 : List UInt8 → List UInt8
  base64 : List UInt8 → String

/-- `AclCredentials`: who it is, the key to sign with, and a token for a session. -/
structure AclCredentials where
  accessKey : String
  secretKey : String
  securityToken : Option String
  deriving DecidableEq, Repr

/-- `String::as_bytes`: the UTF-8. -/
def asBytes (text : String) : List UInt8 := text.toUTF8.data.toList

/-- `hmac_sha1`: the key is hashed if it is longer than a block, and filled up with zeros. -/
def hmacSha1 (crypto : Crypto) (payload secretKey : List UInt8) : List UInt8 :=
  -- 64 bytes are a block of SHA-1
  let key := if secretKey.length > 64 then crypto.sha1 secretKey else secretKey
  let block := key ++ List.replicate (64 - key.length) 0
  let inner := crypto.sha1 (block.map (· ^^^ 0x36) ++ payload)
  crypto.sha1 (block.map (· ^^^ 0x5C) ++ inner)

/-- `hmac_sha1_base64`: the signature as a text. -/
def hmacSha1Base64 (crypto : Crypto) (payload : List UInt8) (secretKey : String) : String :=
  crypto.base64 (hmacSha1 crypto payload (asBytes secretKey))

/-- `entry(key).or_insert(value)`: a field that is there stays. -/
def Fields.orInsert (fields : Fields) (key value : String) : Fields :=
  if key ∈ fields then fields else fields.insert key value

namespace AclCredentials

/-- `AclCredentials::signing_payload`: the values in the order of their keys, without the signature,
then the body. -/
def signingPayload (command : RemotingCommand) : List UInt8 :=
  -- a signature that is there already does not sign itself
  let keys := (command.extFields.keys.sort (· ≤ ·)).filter (· ≠ "Signature")
  keys.flatMap (fun key => asBytes ((command.extFields.lookup key).getD ""))
    ++ command.body.getD []

/-- `AclCredentials::sign_request`: the credentials join the fields first, and then all of it is signed. -/
def signRequest (crypto : Crypto) (credentials : AclCredentials) (command : RemotingCommand) :
    RemotingCommand :=
  let fields := Fields.orInsert command.extFields "AccessKey" credentials.accessKey
  let fields := match credentials.securityToken with
    | some token => Fields.orInsert fields "SecurityToken" token
    | none => fields
  -- what is signed has the credentials in it, and not the signature
  let command := { command with extFields := fields }
  { command with
    extFields := command.extFields.insert "Signature"
      (hmacSha1Base64 crypto (signingPayload command) credentials.secretKey) }

end AclCredentials

/-- `if let Some(credentials) = acl`: without credentials the command goes as it is. -/
def signWith (crypto : Crypto) (acl : Option AclCredentials) (command : RemotingCommand) :
    RemotingCommand :=
  match acl with
  | some credentials => credentials.signRequest crypto command
  | none => command

/-- Signing leaves the number of a request alone. -/
@[simp] theorem opaqueId_signWith (crypto : Crypto) (acl : Option AclCredentials)
    (command : RemotingCommand) : (signWith crypto acl command).opaqueId = command.opaqueId := by
  cases acl <;> rfl

end Rocketmq
end Navop
