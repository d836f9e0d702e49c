import Interlock.Bytes
import Interlock.Daemon.Message
import Interlock.Json.Parser

/-!
Messages on a stream of bytes. A message is a frame: the length of its body as four bytes, the
largest first, and then the body. Nothing but the length says where a message ends, so whoever
reads takes exactly one frame and leaves the rest. A body may not exceed a limit, which is checked
before any of it is read or written. Specification, section 6: External Interfaces.
-/
namespace Interlock.Daemon

/-- The size of the largest body. -/
def bodyLimit : Nat := 1024 * 1024

/-- Why a message did not come through. -/
inductive WireError where
  /-- The stream ended inside a body. -/
  | cutShort
  /-- Nobody reads what is written. -/
  | brokenPipe
  /-- The other side closed the stream before it had read everything. -/
  | reset
  | malformed (reason : String)
  | tooLarge (size : Nat)
  | timeout
  /-- The stream ended before there was a length. -/
  | closed
  deriving DecidableEq, Repr

/-- The wording of a wire error. -/
def WireError.message : WireError → String
  | .cutShort => "io error: early eof"
  | .brokenPipe => "io error: broken pipe"
  | .reset => "io error: Connection reset by peer (os error 104)"
  | .malformed reason => "invalid message: " ++ reason
  | .tooLarge size =>
    "message of " ++ toString size ++ " bytes exceeds the " ++ toString bodyLimit ++ " byte limit"
  | .timeout => "timed out"
  | .closed => "connection closed"

namespace Frame

/-- A length as four bytes, the largest first. -/
def lengthBytes (n : Nat) : Bytes :=
  [.ofNat (n / 0x1000000), .ofNat (n / 0x10000), .ofNat (n / 0x100), .ofNat n]

/-- The number that bytes denote, the largest first. -/
def lengthOf (bs : Bytes) : Nat := bs.foldl (fun n b => n * 256 + b.toNat) 0

/-- The frame of a body, unless it is too large. -/
def ofBody (body : Bytes) : Except WireError Bytes :=
  if bodyLimit < body.length then .error (.tooLarge body.length)
  else .ok (lengthBytes body.length ++ body)

/-- What stands at the beginning of a stream. -/
inductive Reading where
  | body (b : Bytes)
  | tooLarge (size : Nat)
  /-- The stream stops inside the length. -/
  | shortLength
  /-- The stream stops inside the body. -/
  | shortBody
  deriving DecidableEq, Repr

/-- Read one frame and give what is left. What there is of an incomplete frame is used up, and of
one that is too large only the length. -/
def read (stream : Bytes) : Reading × Bytes :=
  let (head, rest) := stream.splitAt 4
  if head.length < 4 then (.shortLength, [])
  else
    let size := lengthOf head
    if bodyLimit < size then (.tooLarge size, rest)
    else
      let (body, rest) := rest.splitAt size
      if body.length < size then (.shortBody, []) else (.body body, rest)

/-- What comes after all that has been sent: the end of the stream, or nothing at all. -/
inductive Ending where
  | ended | silent
  deriving DecidableEq, Repr

/-- The body of a reading. An incomplete frame on a stream that stays open is waited for until the
time is up. -/
def Reading.body? (ending : Ending) : Reading → Except WireError Bytes
  | .body b => .ok b
  | .tooLarge size => .error (.tooLarge size)
  | .shortLength => .error (if ending = .ended then .closed else .timeout)
  | .shortBody => .error (if ending = .ended then .cutShort else .timeout)

/-- Receive one body and give what is left. -/
def receive (ending : Ending) (stream : Bytes) : Except WireError Bytes × Bytes :=
  let (reading, rest) := read stream
  (reading.body? ending, rest)

end Frame

/-- A pipe that takes so many bytes, or one whose reader is gone. -/
structure Pipe where
  capacity : Nat
  isClosed : Bool := false
  deriving DecidableEq, Repr

/-- Send a body through a pipe that nobody empties: what becomes of it, and the bytes the pipe took
before the time was up. -/
def Pipe.send (p : Pipe) (body : Bytes) : Except WireError Unit × Bytes :=
  match Frame.ofBody body with
  | .error e => (.error e, [])
  | .ok frame =>
    if p.isClosed then (.error .brokenPipe, [])
    else if p.capacity < frame.length then (.error .timeout, frame.take p.capacity)
    else (.ok (), frame)

/-- Read a message in a body. -/
def readBody {α : Type} (d : Json.Decoder α) (body : Bytes) : Except WireError α :=
  match body.toText? with
  | none => .error (.malformed "invalid unicode code point")
  | some text =>
    match Json.read text with
    | .error f => .error (.malformed (f.message text))
    | .ok v =>
      match d v with
      | .ok a => .ok a
      | .error e => .error (.malformed e.message)

/-- The body of a request. -/
def Request.body (r : Request) : Bytes := .ofText r.toJson.render

/-- The body of a response. -/
def Response.body (r : Response) : Bytes := .ofText r.toJson.render

/-- Read a request in a body. -/
def Request.ofBody : Bytes → Except WireError Request := readBody Request.decode

/-- Read a response in a body. -/
def Response.ofBody : Bytes → Except WireError Response := readBody Response.decode

end Interlock.Daemon
