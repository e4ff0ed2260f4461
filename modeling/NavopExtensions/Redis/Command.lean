import Mathlib

/-!
# Redis commands and their retries

`RedisConnection::execute` and `execute_pipeline` of the Redis sidecar, with what they call. The client
library is seen through its answers: whether a connection manager could be opened, and what a call of
`query_async` returned. Every call is written down with its answer, since each one sends what it is
given to the server.
-/

namespace Navop
namespace Redis

/-- `WireBytes`: bytes as a text if they are one, and in base64 otherwise. -/
inductive WireBytes
  | utf8 (value : String)
  | base64 (value : String)

/-- The codes of the errors below. -/
inductive ErrorCode
  | invalidParams
  | dataInvalidEncoding
  | ioTimeout
  | ioConnectionRefused
  | extensionCustomStart
  deriving DecidableEq

/-- `ProtocolError`, with the `retryable` of its data. -/
structure ProtocolError where
  code : ErrorCode
  message : String
  retryable : Option Bool
  deriving DecidableEq

/-- `RedisError`: its text, and what the client library says about it. -/
structure RedisError where
  text : String
  isTimeout : Bool
  isConnectionRefusal : Bool
  isConnectionDropped : Bool
  isClusterError : Bool
  deriving DecidableEq

/-! ### Values -/

/-- `redis_client::Value`; doubles and errors are in their text. -/
inductive Value
  | nil
  | int (value : Int64)
  | bulkString (value : List UInt8)
  | array (values : List Value)
  | simpleString (value : String)
  | okay
  | map (values : List (Value × Value))
  | attribute (data : Value)
  | set (values : List Value)
  | double (text : String)
  | boolean (value : Bool)
  | verbatimString (text : String)
  | bigNumber (value : ℤ)
  | push (data : List Value)
  | serverError (text : String)

/-- `RedisRespValue`: a reply as the answer carries it. -/
inductive RespValue
  | nil
  | integer (value : Int64)
  | bytes (value : WireBytes)
  | array (values : List RespValue)
  | simpleString (value : String)
  | map (values : List (RespValue × RespValue))
  | set (values : List RespValue)
  | double (text : String)
  | boolean (value : Bool)
  | error (text : String)

/-- What is taken from libraries: base64, and `String::from_utf8`. -/
structure Codec where
  decode : String → Except String (List UInt8)
  encode : List UInt8 → String
  utf8 : List UInt8 → Option String

section Wire

variable (codec : Codec)

/-- `encode_bytes`: UTF-8 goes as it is. -/
def encodeBytes (bytes : List UInt8) : WireBytes :=
  match codec.utf8 bytes with
  | some value => .utf8 value
  -- a client reads it back either way
  | none => .base64 (codec.encode bytes)

mutual

/-- `redis_value`: a reply of the server, arrays within arrays. -/
def redisValue : Value → RespValue
  | .nil => .nil
  | .int value => .integer value
  | .bulkString value => .bytes (encodeBytes codec value)
  | .array values => .array (redisValues values)
  | .simpleString value => .simpleString value
  | .okay => .simpleString "OK"
  | .map values => .map (redisPairs values)
  -- the attributes themselves are dropped
  | .attribute data => redisValue data
  | .set values => .set (redisValues values)
  | .double text => .double text
  | .boolean value => .boolean value
  | .verbatimString text => .simpleString text
  -- there is no larger integer in the answer
  | .bigNumber value => .simpleString (toString value)
  | .push data => .array (redisValues data)
  | .serverError text => .error text

/-- The values of a reply, one by one. -/
def redisValues : List Value → List RespValue
  | [] => []
  | value :: values => redisValue value :: redisValues values

/-- The keys of a reply with their values. -/
def redisPairs : List (Value × Value) → List (RespValue × RespValue)
  | [] => []
  | (key, value) :: values => (redisValue key, redisValue value) :: redisPairs values

end

/-! ### Commands -/

/-- `decode_wire_bytes`: only base64 can fail. -/
def decodeWireBytes : WireBytes → Except ProtocolError (List UInt8)
  | .utf8 value => .ok value.toUTF8.toList
  | .base64 value =>
    match codec.decode value with
    | .ok bytes => .ok bytes
    | .error message => .error ⟨.dataInvalidEncoding, message, none⟩

/-- `build_command`: the name and the arguments, as they are sent. -/
def buildCommand : List WireBytes → Except ProtocolError (List (List UInt8))
  | [] => .error ⟨.invalidParams, "Redis command cannot be empty", none⟩
  -- the first part that cannot be decoded is the error
  | command :: args => (command :: args).mapM (decodeWireBytes codec)

/-- `build_pipeline`: the commands in turn, and the first that cannot be built ends it. -/
def buildPipeline (commands : List (List WireBytes)) :
    Except ProtocolError (List (List (List UInt8))) :=
  commands.mapM (buildCommand codec)

/-- `wire_bytes_for_retry_check`: none for base64 that is not any. -/
def wireBytesForRetryCheck : WireBytes → Option (List UInt8)
  | .utf8 value => some value.toUTF8.toList
  | .base64 value => (codec.decode value).toOption

/-- `u8::to_ascii_uppercase`: the letters of ASCII only. -/
def toAsciiUppercase (byte : UInt8) : UInt8 :=
  if 97 ≤ byte ∧ byte ≤ 122 then byte - 32 else byte

/-- `eq_ignore_ascii_case`: byte by byte. -/
def eqIgnoreAsciiCase (left right : List UInt8) : Bool :=
  left.map toAsciiUppercase = right.map toAsciiUppercase

/-- A name of a command. -/
def name (text : String) : List UInt8 := text.toUTF8.toList

/-- The commands that only read. -/
def readOnlyCommands : List (List UInt8) :=
  ["PING", "GET", "MGET", "EXISTS", "TYPE", "TTL", "PTTL", "SCAN", "SSCAN", "HSCAN", "ZSCAN", "KEYS",
    "STRLEN", "HLEN", "HGET", "HMGET", "HGETALL", "HKEYS", "HVALS", "LLEN", "LRANGE", "SCARD",
    "SMEMBERS", "ZCARD", "ZRANGE", "XRANGE", "XLEN", "INFO", "DBSIZE"].map name

/-- `can_retry_command`: by its name, and for `MEMORY` by its subcommand. -/
def canRetryCommand (args : List WireBytes) : Bool :=
  match args.head?.bind (wireBytesForRetryCheck codec) with
  | none => false
  | some command =>
    -- `MEMORY PURGE` changes something, `MEMORY USAGE` does not
    if eqIgnoreAsciiCase command (name "MEMORY") then
      match args[1]?.bind (wireBytesForRetryCheck codec) with
      | some subcommand => eqIgnoreAsciiCase subcommand (name "USAGE")
      | none => false
    else readOnlyCommands.any (eqIgnoreAsciiCase command)

/-- `can_retry_pipeline`: every command in it, and there is one. -/
def canRetryPipeline (commands : List (List WireBytes)) : Bool :=
  !commands.isEmpty && commands.all (canRetryCommand codec)

end Wire

/-! ### Errors -/

/-- `redis_protocol_error_with_retryability`: the network has to have failed, and a second run must do no
harm. -/
def redisProtocolErrorWithRetryability (code : ErrorCode) (error : RedisError) (replaySafe : Bool) :
    ProtocolError where
  code := code
  message := error.text
  retryable := some (replaySafe && (error.isTimeout || error.isConnectionRefusal
    || error.isConnectionDropped || error.isClusterError))

/-- `connection_error`: nothing has been sent, so a second attempt does no harm. -/
def connectionError (error : RedisError) : ProtocolError :=
  redisProtocolErrorWithRetryability
    (if error.isTimeout then .ioTimeout else .ioConnectionRefused) error true

/-- `command_error`: whether a second attempt does harm depends on the command. -/
def commandError (error : RedisError) (replaySafe : Bool) : ProtocolError :=
  redisProtocolErrorWithRetryability .extensionCustomStart error replaySafe

/-! ### Requests -/

/-- `RedisConnection`: the database of its configuration, and those that have a manager. -/
structure Connection where
  database : UInt8
  connections : Finset UInt8
  deriving DecidableEq

/-- How the client library answers in the course of a request: the attempts to open a manager, and the
calls of `query_async`, by their number. -/
structure Network (α : Type*) where
  opens : ℕ → Except RedisError Unit
  answers : ℕ → Except RedisError α

/-- What has come of a request: every call of `query_async` with what it sent and its answer, and the
result. -/
structure Outcome (κ α β : Type*) where
  connection : Connection
  sent : List (κ × Except RedisError α)
  result : Except ProtocolError β

section Requests

variable {κ α β : Type*}

/-- `manager`: opened by the given attempt, if it is not there. -/
def Connection.manager (connection : Connection) (opened : Except RedisError Unit)
    (database : UInt8) : Except ProtocolError Connection :=
  -- each database has a connection of its own, and keeps it
  if database ∈ connection.connections then .ok connection
  else match opened with
    | .error error => .error (connectionError error)
    | .ok () => .ok { connection with connections := insert database connection.connections }

/-- `reconnect_manager`: the old manager is gone in any case. -/
def Connection.reconnectManager (connection : Connection) (opened : Except RedisError Unit)
    (database : UInt8) : Connection × Except ProtocolError Unit :=
  let connection := { connection with connections := connection.connections.erase database }
  match opened with
  | .error error => (connection, .error (connectionError error))
  | .ok () => ({ connection with connections := insert database connection.connections }, .ok ())

/-- The part that `execute` and `execute_pipeline` share: something is sent, and once more if the
connection was lost and that is safe. -/
def exchange (network : Network α) (connection : Connection) (database : UInt8) (replaySafe : Bool)
    (payload : κ) (convert : α → β) : Outcome κ α β :=
  match connection.manager (network.opens 0) database with
  | .error error => ⟨connection, [], .error error⟩
  | .ok connection =>
    match network.answers 0 with
    | .ok value => ⟨connection, [(payload, .ok value)], .ok (convert value)⟩
    | .error error =>
      let lost : κ × Except RedisError α := (payload, .error error)
      -- the connection is made anew whether or not the command is sent again
      if error.isConnectionDropped then
        let (connection, reconnect) := connection.reconnectManager (network.opens 1) database
        -- the server may have run it before the connection was lost
        if !replaySafe then ⟨connection, [lost], .error (commandError error false)⟩
        else match reconnect with
          | .error failed => ⟨connection, [lost], .error failed⟩
          | .ok () =>
            -- the new connection is in the table already, unless it could not be made
            match connection.manager (network.opens 2) database with
            | .error failed => ⟨connection, [lost], .error failed⟩
            | .ok connection =>
              match network.answers 1 with
              | .ok value => ⟨connection, [lost, (payload, .ok value)], .ok (convert value)⟩
              | .error again =>
                ⟨connection, [lost, (payload, .error again)], .error (commandError again true)⟩
      else ⟨connection, [lost], .error (commandError error replaySafe)⟩

/-- `execute`: a command that cannot be built is never sent. -/
def execute (codec : Codec) (network : Network Value) (connection : Connection)
    (database : Option UInt8) (args : List WireBytes) : Outcome (List (List UInt8)) Value RespValue :=
  match buildCommand codec args with
  | .error error => ⟨connection, [], .error error⟩
  | .ok cmd =>
    exchange network connection (database.getD connection.database) (canRetryCommand codec args) cmd
      (redisValue codec)

/-- `execute_pipeline`: all of the commands are built before any is sent. -/
def executePipeline (codec : Codec) (network : Network (List Value)) (connection : Connection)
    (database : Option UInt8) (commands : List (List WireBytes)) :
    Outcome (List (List (List UInt8))) (List Value) (List RespValue) :=
  match buildPipeline codec commands with
  | .error error => ⟨connection, [], .error error⟩
  | .ok pipeline =>
    exchange network connection (database.getD connection.database) (canRetryPipeline codec commands)
      pipeline (fun values => values.map (redisValue codec))

end Requests

end Redis
end Navop
