import Xineliboutput.Foundation.DecimalText
import Xineliboutput.Foundation.Machine

/-!
# Serving a file over HTTP

`cHttpStreamer` of `tools/http.c`, one connection. `Action` answers the request the
streamer was made for, sends the file with `sendfile`, and waits for further
requests on the connection; the thread is not cancelled. Integers are the 64-bit ones
of the source; the number of bytes that are left is an `int`.
-/

namespace Xineliboutput.Http

open Xineliboutput.Foundation

set_option autoImplicit false

/-- `cConnState`: the headers of a request. -/
structure Request where
  headers : List (List UInt8 × List UInt8)
  deriving DecidableEq

/-- `cHttpReq::Header`. -/
def Request.header (request : Request) (name : List UInt8) : Option (List UInt8) :=
  (request.headers.find? fun header => header.1 == name).map Prod.snd

/-- The reply to a request: what the header announces, and the bytes that follow it. -/
structure Reply where
  request : Request
  status : Nat
  contentRange : Option (Int × Int × Int)
  contentLength : Option Int
  body : List UInt8
  deriving DecidableEq

/-- Where `Action` is: sending, waiting for a request with so many rounds left, or done. -/
inductive Phase where
  | sending
  | waiting (rounds : Nat)
  | closed
  deriving DecidableEq

/-- The replies are the latest first. `start` is the local variable of `Action`. -/
structure HttpStreamer where
  file : List UInt8
  mStart : Int
  mEnd : Int
  keepOpen : Bool
  start : Int
  phase : Phase
  replies : List Reply
  deriving DecidableEq

/-- A byte as `strcasecmp` compares it. -/
def lowerCase (byte : UInt8) : UInt8 :=
  if 65 ≤ byte.toNat ∧ byte.toNat ≤ 90 then byte + 32 else byte

/-- `sscanf(Range, "bytes=%" PRId64 "-%" PRId64, …)`: `m_Start` and `m_End`. -/
def parseRange (range : List UInt8) : Int × Int :=
  match (scanLiterals (ascii "bytes=".toList) range).bind scanInteger with
  | none => (0, -1)
  | some (first, rest) =>
      match (scanLiterals (ascii "-".toList) rest).bind scanInteger with
      | none => (storeInt64 first, -1)
      | some (last, _) => (storeInt64 first, storeInt64 last)

namespace HttpStreamer

def fileSize (streamer : HttpStreamer) : Int := streamer.file.length

def new (file : List UInt8) : HttpStreamer where
  file := file
  mStart := 0
  mEnd := -1
  keepOpen := true
  start := 0
  phase := .sending
  replies := []

def parseRequest (streamer : HttpStreamer) (request : Request) : HttpStreamer :=
  let (mStart, mEnd) :=
    match request.header (ascii "Range".toList) with
    | some value => parseRange value
    | none => (streamer.mStart, streamer.mEnd)
  let keepOpen :=
    match request.header (ascii "Connection".toList) with
    | some value => value.map lowerCase == ascii "keep-alive".toList
    | none => false
  { streamer with mStart := mStart, mEnd := mEnd, keepOpen := keepOpen }

/-- The end of the range, which a partial reply keeps inside the file. -/
def seekEnd (streamer : HttpStreamer) : Int :=
  if 0 < streamer.mStart ∧ (streamer.fileSize ≤ streamer.mEnd ∨ streamer.mEnd < 0) then
    streamer.fileSize - 1
  else streamer.mEnd

/-- `Content-Length`, in 64-bit arithmetic. -/
def announcedLength (streamer : HttpStreamer) : Int :=
  let len := if 0 ≤ streamer.seekEnd then streamer.seekEnd + 1 else streamer.fileSize
  Int.bmod (if 0 ≤ streamer.mStart then len - streamer.mStart else len) (2 ^ 64)

/-- `Seek` on a file that can be opened and is not empty. -/
def seek (streamer : HttpStreamer) (request : Request) : HttpStreamer × Bool :=
  if streamer.fileSize ≤ streamer.mStart then
    ({ streamer with replies := ⟨request, 416, none, none, []⟩ :: streamer.replies }, false)
  else
    let reply : Reply :=
      { request := request
        status := if 0 < streamer.mStart then 206 else 200
        contentRange := if 0 < streamer.mStart then
          some (streamer.mStart, streamer.seekEnd, streamer.fileSize) else none
        contentLength := some streamer.announcedLength
        body := [] }
    ({ streamer with mEnd := streamer.seekEnd, replies := reply :: streamer.replies }, true)

/-- The begin of `Action`. -/
def begin (file : List UInt8) (request : Request) : HttpStreamer :=
  let (streamer, seeked) := ((new file).parseRequest request).seek request
  { streamer with
      start := streamer.mStart
      phase := if seeked then .sending else .closed }

/-- `n`: the number of bytes that are left, in an `int`. -/
def remaining (streamer : HttpStreamer) : Int :=
  Int.bmod (if 0 < streamer.mEnd then streamer.mEnd - streamer.start + 1
    else streamer.fileSize - streamer.start) (2 ^ 32)

def send (streamer : HttpStreamer) (count : Nat) : HttpStreamer :=
  let bytes := (streamer.file.drop streamer.start.toNat).take count
  { streamer with
      start := streamer.start + count
      replies := match streamer.replies with
        | [] => []
        | reply :: others => { reply with body := reply.body ++ bytes } :: others }

/-- `while(--n && Running() && !Disc)`, and the timeout behind it. -/
def countDown (rounds : Nat) : Phase := if rounds ≤ 1 then .closed else .waiting (rounds - 1)

end HttpStreamer

/-- What happens next: `sendfile` transfers some bytes, is at the end of the file, is
interrupted or refuses a negative offset; nothing is left to send; a round of waiting
passes, brings a request, or something that is none. -/
inductive Event where
  | transfers (count : Nat)
  | atEndOfFile
  | interrupted
  | refused
  | complete
  | quiet
  | requested (request : Request)
  | unreadable
  deriving DecidableEq

namespace HttpStreamer

/-- One step of `Action`; `none` says that it cannot happen now. -/
def perform (streamer : HttpStreamer) : Event → Option HttpStreamer
  | .transfers count =>
      if streamer.phase = .sending ∧ 0 < count ∧ count ≤ streamer.remaining ∧
          0 ≤ streamer.start ∧ streamer.start + count ≤ streamer.fileSize then
        some (streamer.send count)
      else none
  | .atEndOfFile =>
      if streamer.phase = .sending ∧ 0 < streamer.remaining ∧
          streamer.fileSize ≤ streamer.start then
        some { streamer with phase := .closed }
      else none
  | .interrupted =>
      if streamer.phase = .sending ∧ 0 < streamer.remaining then some streamer else none
  | .refused =>
      if streamer.phase = .sending ∧ 0 < streamer.remaining ∧ streamer.start < 0 then
        some { streamer with phase := .closed }
      else none
  | .complete =>
      if streamer.phase = .sending ∧ streamer.remaining ≤ 0 then
        some { streamer with phase := if streamer.keepOpen then .waiting 30 else .closed }
      else none
  | .quiet =>
      match streamer.phase with
      | .waiting rounds => some { streamer with phase := countDown rounds }
      | _ => none
  | .requested request =>
      match streamer.phase with
      | .waiting rounds =>
          let (streamer, seeked) := (streamer.parseRequest request).seek request
          some { streamer with phase := if seeked then countDown rounds else .closed }
      | _ => none
  | .unreadable =>
      match streamer.phase with
      | .waiting _ => some { streamer with phase := .closed }
      | _ => none

/-- One connection: the streamer is made for a first request. -/
def machine (file : List UInt8) (request : Request) : Machine HttpStreamer Event where
  initial streamer := streamer = begin file request
  step streamer event next := streamer.perform event = some next

end HttpStreamer
end Xineliboutput.Http
