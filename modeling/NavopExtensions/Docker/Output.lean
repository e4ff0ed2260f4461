import NavopExtensions.Docker.Jobs
import NavopExtensions.Lib.Lossy

/-!
# What containers and commands write

The daemon sends what a container or a command writes in messages, and may cut it anywhere. Every message
is decoded on its own, so that a text is that of the whole exactly if no message ends inside a character,
or inside what stands for one where the bytes are not valid (`text_iff`).
-/

namespace Navop
namespace Docker

open Utf8

/-- `LogOutput`, a message of the daemon. -/
inductive LogOutput
  | stdErr (message : List UInt8)
  | stdOut (message : List UInt8)
  | stdIn (message : List UInt8)
  | console (message : List UInt8)
  deriving DecidableEq

/-- `unavailable`: the error for what the daemon does not give. -/
def unavailable (message : String) : ProtocolError := ⟨.internalError, message⟩

/-- The loop of `exec_collect`, with the texts of `stdout` and `stderr` so far. -/
def execCollectLoop (stdout stderr : List Char) :
    List (Except String LogOutput) → Except ProtocolError (List Char × List Char)
  | [] => .ok (stdout, stderr)
  | .ok (.stdOut message) :: output => execCollectLoop (stdout ++ lossy message) stderr output
  | .ok (.stdErr message) :: output => execCollectLoop stdout (stderr ++ lossy message) output
  -- `stdin` and the console are dropped
  | .ok _ :: output => execCollectLoop stdout stderr output
  -- what has been read before the error is lost
  | .error error :: _ => .error (unavailable error)

/-- `exec_collect`, for a command that has been started. -/
def execCollect (output : List (Except String LogOutput)) :
    Except ProtocolError (List Char × List Char) :=
  execCollectLoop [] [] output

/-- The loop of `docker/container/logs`: the messages are decoded one by one, and the first error ends
it. -/
def logsLoop (logs : List Char) : List (Except String LogOutput) → Except ProtocolError (List Char)
  | [] => .ok logs
  | .ok (.stdOut message) :: stream => logsLoop (logs ++ lossy message) stream
  | .ok (.stdErr message) :: stream => logsLoop (logs ++ lossy message) stream
  | .ok (.console message) :: stream => logsLoop (logs ++ lossy message) stream
  -- only `stdin` is left
  | .ok _ :: stream => logsLoop logs stream
  | .error error :: _ => .error (unavailable error)

/-- The text of `docker/container/logs`, from a stream of messages. -/
def containerLogs (stream : List (Except String LogOutput)) : Except ProtocolError (List Char) :=
  logsLoop [] stream

/-! ### Texts and pieces -/

/-- What has been written to `stdout`, as it arrives. -/
def stdoutPieces (output : List LogOutput) : List (List UInt8) :=
  output.filterMap fun
    | .stdOut message => some message
    | _ => none

/-- What has been written to `stderr`, as it arrives. -/
def stderrPieces (output : List LogOutput) : List (List UInt8) :=
  output.filterMap fun
    | .stdErr message => some message
    | _ => none

/-- What has been written to any output, as it arrives. -/
def writtenPieces (output : List LogOutput) : List (List UInt8) :=
  output.filterMap fun
    | .stdIn _ => none
    | .stdOut message | .stdErr message | .console message => some message

theorem execCollectLoop_eq (stdout stderr : List Char) (output : List LogOutput) :
    execCollectLoop stdout stderr (output.map .ok) = .ok
      (stdout ++ (stdoutPieces output).flatMap lossy, stderr ++ (stderrPieces output).flatMap lossy) := by
  induction output generalizing stdout stderr with
  | nil => simp [execCollectLoop, stdoutPieces, stderrPieces]
  | cons message output ih =>
    cases message with
    | stdOut message => simp [execCollectLoop, ih, stdoutPieces, stderrPieces]
    | stdErr message => simp [execCollectLoop, ih, stdoutPieces, stderrPieces]
    | stdIn message => simp [execCollectLoop, ih, stdoutPieces, stderrPieces]
    | console message => simp [execCollectLoop, ih, stdoutPieces, stderrPieces]

theorem logsLoop_eq (logs : List Char) (output : List LogOutput) :
    logsLoop logs (output.map .ok) = .ok (logs ++ (writtenPieces output).flatMap lossy) := by
  induction output generalizing logs with
  | nil => simp [logsLoop, writtenPieces]
  | cons message output ih =>
    cases message with
    | stdOut message => simp [logsLoop, ih, writtenPieces]
    | stdErr message => simp [logsLoop, ih, writtenPieces]
    | stdIn message => simp [logsLoop, ih, writtenPieces]
    | console message => simp [logsLoop, ih, writtenPieces]

/-- A text of a command, from its pieces. -/
theorem execCollect_eq (output : List LogOutput) : execCollect (output.map .ok)
    = .ok ((stdoutPieces output).flatMap lossy, (stderrPieces output).flatMap lossy) :=
  execCollectLoop_eq [] [] output

theorem containerLogs_eq (output : List LogOutput) :
    containerLogs (output.map .ok) = .ok ((writtenPieces output).flatMap lossy) :=
  logsLoop_eq [] output

/-- **Texts** are those of all that was written exactly if every message ends between two units of it. -/
theorem text_iff (output : List LogOutput) :
    (execCollect (output.map .ok)
        = .ok (lossy (stdoutPieces output).flatten, lossy (stderrPieces output).flatten) ↔
      AllBetween (stdoutPieces output) ∧ AllBetween (stderrPieces output)) ∧
    (containerLogs (output.map .ok) = .ok (lossy (writtenPieces output).flatten) ↔
      AllBetween (writtenPieces output)) := by
  constructor
  · rw [execCollect_eq, Except.ok.injEq, Prod.mk.injEq, flatMap_lossy_iff, flatMap_lossy_iff]
  · rw [containerLogs_eq, Except.ok.injEq, flatMap_lossy_iff]

/-- **Two bytes** of one character arrive in two messages. -/
theorem character_split : execCollect [.ok (.stdOut [0xC3]), .ok (.stdOut [0xA9])]
    ≠ .ok (lossy [0xC3, 0xA9], []) := by
  intro h
  have heq : lossy [0xC3] ++ lossy [0xA9] = lossy [0xC3, 0xA9] := congrArg Prod.fst (Except.ok.inj h)
  have hlength := congrArg List.length heq
  have hwhole : units [0xC3, 0xA9] = [[0xC3, 0xA9]] := by
    rw [units_cons]
    exact congrArg _ units_nil
  have hfirst : units [0xC3] = [[0xC3]] := by
    rw [units_cons]
    exact congrArg _ units_nil
  have hsecond : units [0xA9] = [[0xA9]] := by
    rw [units_cons]
    exact congrArg _ units_nil
  rw [List.length_append, length_lossy, length_lossy, length_lossy, hwhole, hfirst, hsecond] at hlength
  exact absurd hlength (by decide)

end Docker
end Navop
