import Mathlib.Tactic.SplitIfs
import Xineliboutput.Http.Streamer

/-!
# What a connection serves

A reply serves a request if its body is the interval asked for and its header tells
that interval. The first reply of a connection does so within the limits of an `int`
and where the end asked for is neither byte 0 nor behind the file; the header of a
later one is never followed by a body.
-/

namespace Xineliboutput.Http

open Xineliboutput.Foundation

set_option autoImplicit false

/-- `bytes=a-b` or `bytes=a-`. -/
def rangeText (first : Nat) (last : Option Nat) : List UInt8 :=
  ascii "bytes=".toList ++ (decimal first ++ (ascii "-".toList ++ (last.map decimal).getD []))

/-- What a request asks for: everything, or from a first byte on, perhaps to a last one. -/
def Request.Asks (request : Request) : Option (Nat × Option Nat) → Prop
  | none => request.header (ascii "Range".toList) = none
  | some (first, last) => request.header (ascii "Range".toList) = some (rangeText first last)

def firstByte : Option (Nat × Option Nat) → Nat
  | none => 0
  | some (first, _) => first

def lastByte (size : Nat) : Option (Nat × Option Nat) → Nat
  | some (_, some last) => min last (size - 1)
  | _ => size - 1

def Reply.Answered (reply : Reply) : Prop := reply.status = 200 ∨ reply.status = 206

structure Reply.Serves (reply : Reply) (file : List UInt8) (range : Option (Nat × Option Nat)) :
    Prop where
  body : reply.body =
    (file.drop (firstByte range)).take (lastByte file.length range + 1 - firstByte range)
  length : reply.contentLength = some (reply.body.length : Int)
  interval : ∀ announced, reply.contentRange = some announced →
    announced = ((firstByte range : Int), (lastByte file.length range : Int), (file.length : Int))

def HttpStreamer.Served (streamer : HttpStreamer) : Prop :=
  ∀ reply ∈ streamer.replies, reply.Answered →
    ∀ range, reply.request.Asks range → reply.Serves streamer.file range

/-- The loop of `Action` sends what an `int` keeps of the number of bytes left. -/
def sentOf (left : Nat) : Nat := if left % 2 ^ 32 < 2 ^ 31 then left % 2 ^ 32 else 0

/-- When the first request of a connection is served, or not answered. -/
def FirstServed (size : Nat) : Option (Nat × Option Nat) → Prop
  | none => size < 2 ^ 31
  | some (first, none) => size ≤ first ∨ size - first < 2 ^ 31
  | some (first, some 0) =>
      size ≤ first ∨ (first = 0 ∧ sentOf size = 1) ∨ (first = 1 ∧ sentOf (size - 1) = 0)
  | some (first, some last) =>
      size ≤ first ∨ last + 1 = first ∨
        (first ≤ last ∧ (0 < first ∨ last < size) ∧ min last (size - 1) + 1 - first < 2 ^ 31)

/-- When a later request is: the interval is empty, or not in the file. -/
def LaterServed (size : Nat) : Option (Nat × Option Nat) → Prop
  | none => False
  | some (first, none) => size ≤ first
  | some (first, some last) => size ≤ first ∨ last + 1 = first

/-! ## The request -/

/-- A number as `sscanf` stores it, which keeps to 63 bits. -/
def stored (value : Nat) : Nat := min value (2 ^ 63 - 1)

/-- `m_End` for the last byte asked for. -/
def storedEnd : Option Nat → Int
  | none => -1
  | some last => stored last

theorem store_int64_nat (value : Nat) : storeInt64 value = stored value := by
  unfold storeInt64 stored
  omega

theorem parse_range_text (first : Nat) (last : Option Nat) :
    parseRange (rangeText first last) = ((stored first : Int), storedEnd last) := by
  have dash : ascii "-".toList ++ (last.map decimal).getD [] = 45 :: (last.map decimal).getD [] := rfl
  have readFirst : scanInteger (decimal first ++ (ascii "-".toList ++ (last.map decimal).getD [])) =
      some ((first : Int), ascii "-".toList ++ (last.map decimal).getD []) := by
    rw [dash]
    exact scan_integer_decimal first _ (scan_digits_stop first _ (by decide))
  simp only [parseRange, rangeText, scan_literals_append, Option.bind_some, readFirst,
    store_int64_nat]
  cases last with
  | none => rfl
  | some last =>
      have readLast := scan_integer_decimal last [] rfl
      rw [List.append_nil] at readLast
      simp only [Option.map_some, Option.getD_some, readLast, store_int64_nat, storedEnd]

/-- `m_Start` and `m_End` of a request that asks for a range. -/
theorem parse_request_range (streamer : HttpStreamer) {request : Request} {first : Nat}
    {last : Option Nat} (asks : request.Asks (some (first, last))) :
    (streamer.parseRequest request).mStart = stored first ∧
      (streamer.parseRequest request).mEnd = storedEnd last := by
  have header : request.header (ascii "Range".toList) = some (rangeText first last) := asks
  simp only [HttpStreamer.parseRequest, header, parse_range_text, and_self]

theorem parse_request_whole (streamer : HttpStreamer) {request : Request}
    (asks : request.Asks none) :
    (streamer.parseRequest request).mStart = streamer.mStart ∧
      (streamer.parseRequest request).mEnd = streamer.mEnd := by
  have header : request.header (ascii "Range".toList) = none := asks
  simp only [HttpStreamer.parseRequest, header, and_self]

/-! ## The reply header -/

/-- The reply that `seek` puts in front. -/
def HttpStreamer.replyHeader (streamer : HttpStreamer) (request : Request) : Reply :=
  if streamer.fileSize ≤ streamer.mStart then ⟨request, 416, none, none, []⟩
  else
    { request := request
      status := if 0 < streamer.mStart then 206 else 200
      contentRange := if 0 < streamer.mStart then
        some (streamer.mStart, streamer.seekEnd, streamer.fileSize) else none
      contentLength := some streamer.announcedLength
      body := [] }

theorem seek_replies (streamer : HttpStreamer) (request : Request) :
    (streamer.seek request).1.replies = streamer.replyHeader request :: streamer.replies := by
  unfold HttpStreamer.seek HttpStreamer.replyHeader
  split_ifs <;> rfl

@[simp] theorem seek_file (streamer : HttpStreamer) (request : Request) :
    (streamer.seek request).1.file = streamer.file := by
  unfold HttpStreamer.seek
  split_ifs <;> rfl

@[simp] theorem seek_mStart (streamer : HttpStreamer) (request : Request) :
    (streamer.seek request).1.mStart = streamer.mStart := by
  unfold HttpStreamer.seek
  split_ifs <;> rfl

theorem seek_found (streamer : HttpStreamer) (request : Request) :
    (streamer.seek request).2 = true ↔ streamer.mStart < streamer.fileSize := by
  unfold HttpStreamer.seek
  by_cases outside : streamer.fileSize ≤ streamer.mStart
  · simp [outside]
  · simp only [if_neg outside, true_iff]
    exact Int.lt_of_not_ge outside

@[simp] theorem reply_header_request (streamer : HttpStreamer) (request : Request) :
    (streamer.replyHeader request).request = request := by
  unfold HttpStreamer.replyHeader
  split_ifs <;> rfl

theorem reply_header_answered (streamer : HttpStreamer) (request : Request) :
    (streamer.replyHeader request).Answered ↔ streamer.mStart < streamer.fileSize := by
  unfold HttpStreamer.replyHeader Reply.Answered
  by_cases outside : streamer.fileSize ≤ streamer.mStart
  · simp [outside]
  · rw [if_neg outside]
    simp only []
    split_ifs <;> simp <;> omega

/-- The streamer has read a request for a range of a file of this size. -/
structure HttpStreamer.Asked (streamer : HttpStreamer) (size first : Nat) (last : Option Nat) :
    Prop where
  size : streamer.fileSize = size
  starts : streamer.mStart = stored first
  ends : streamer.mEnd = storedEnd last

theorem last_byte_bound {size : Nat} (nonempty : 0 < size) (range : Option (Nat × Option Nat)) :
    lastByte size range + 1 ≤ size := by
  unfold lastByte
  split <;> omega

section Header

variable {streamer : HttpStreamer} {size first : Nat} {last : Option Nat}

theorem stored_of_inside (sizeBound : size < 2 ^ 63) (inside : first < size) :
    stored first = first := Nat.min_eq_left (by omega)

theorem seek_end_inside (asked : streamer.Asked size first last) (sizeBound : size < 2 ^ 63)
    (inside : first < size) (some_start : 0 < first) :
    streamer.seekEnd = lastByte size (some (first, last)) := by
  unfold HttpStreamer.seekEnd
  rw [asked.starts, asked.ends, asked.size, stored_of_inside sizeBound inside]
  cases last with
  | none =>
      simp only [storedEnd, lastByte]
      split_ifs <;> omega
  | some last =>
      simp only [storedEnd, stored, lastByte]
      split_ifs <;> omega

theorem seek_end_at_start (asked : streamer.Asked size 0 last) :
    streamer.seekEnd = storedEnd last := by
  have atStart : ¬ 0 < streamer.mStart := by
    rw [asked.starts]
    decide
  rw [HttpStreamer.seekEnd, if_neg (fun both => atStart both.1), asked.ends]

theorem announced_inside (asked : streamer.Asked size first last) (sizeBound : size < 2 ^ 63)
    (inside : first < size) (some_start : 0 < first) :
    streamer.announcedLength = lastByte size (some (first, last)) + 1 - first := by
  have ends := seek_end_inside asked sizeBound inside some_start
  have bound := last_byte_bound (Nat.lt_of_le_of_lt (Nat.zero_le _) inside) (some (first, last))
  unfold HttpStreamer.announcedLength
  simp only [ends, asked.starts, stored_of_inside sizeBound inside]
  rw [if_pos (by omega), if_pos (by omega), Int.bmod_eq_of_le] <;> omega

theorem announced_at_start (asked : streamer.Asked size 0 last) (sizeBound : size < 2 ^ 63) :
    (last = none → streamer.announcedLength = size) ∧
      ∀ end_byte, last = some end_byte → ∀ sent : Nat, sent ≤ size →
        (streamer.announcedLength = sent ↔ sent = end_byte + 1) := by
  have ends := seek_end_at_start asked
  have start : streamer.mStart = 0 := asked.starts
  unfold HttpStreamer.announcedLength
  rw [start, ends, asked.size]
  constructor
  · rintro rfl
    rw [if_neg (show ¬ (0 : Int) ≤ storedEnd none by decide)]
    simp only [Int.le_refl, if_true, Int.sub_zero]
    rw [Int.bmod_eq_of_le] <;> omega
  · rintro end_byte rfl sent bound
    have ended : storedEnd (some end_byte) = stored end_byte := rfl
    rw [ended, if_pos (Int.natCast_nonneg _), stored]
    simp only [Int.le_refl, if_true, Int.sub_zero]
    by_cases large : 2 ^ 63 - 1 ≤ end_byte
    · rw [Nat.min_eq_right large]
      have wrapped : Int.bmod (((2 ^ 63 - 1 : Nat) : Int) + 1) (2 ^ 64) = -2 ^ 63 := by decide
      rw [wrapped]
      omega
    · rw [Nat.min_eq_left (by omega), Int.bmod_eq_of_le] <;> omega

end Header

/-! ## Bodies -/

section Body

variable {streamer : HttpStreamer} {request : Request} {file : List UInt8} {first : Nat}
  {last : Option Nat}

theorem take_drop_inj {from_byte left right : Nat} (leftBound : left ≤ file.length - from_byte)
    (rightBound : right ≤ file.length - from_byte) :
    (file.drop from_byte).take left = (file.drop from_byte).take right ↔ left = right := by
  constructor
  · intro same
    have lengths := congrArg List.length same
    simp only [List.length_take, List.length_drop] at lengths
    omega
  · rintro rfl
    rfl

theorem reply_header_inside (asked : streamer.Asked file.length first last)
    (sizeBound : file.length < 2 ^ 63) (inside : first < file.length) :
    streamer.replyHeader request =
      { request := request
        status := if 0 < first then 206 else 200
        contentRange := if 0 < first then
          some ((first : Int), streamer.seekEnd, (file.length : Int)) else none
        contentLength := some streamer.announcedLength
        body := [] } := by
  have starts := asked.starts
  rw [stored_of_inside sizeBound inside] at starts
  unfold HttpStreamer.replyHeader
  rw [if_neg (by rw [asked.size, starts]; omega), starts, asked.size]
  simp only [Int.natCast_pos]

/-- A partial reply serves its request if as much is sent as the header announces. -/
theorem serves_inside (asked : streamer.Asked file.length first last)
    (sizeBound : file.length < 2 ^ 63) (inside : first < file.length) (some_start : 0 < first)
    {sent : Nat} (bound : sent ≤ file.length - first) :
    Reply.Serves { streamer.replyHeader request with body := (file.drop first).take sent } file
        (some (first, last)) ↔
      (sent : Int) = lastByte file.length (some (first, last)) + 1 - first := by
  have length : ((file.drop first).take sent).length = sent := by
    rw [List.length_take, List.length_drop]
    omega
  have ends := seek_end_inside asked sizeBound inside some_start
  have announced := announced_inside asked sizeBound inside some_start
  have lastBound := last_byte_bound (Nat.lt_of_le_of_lt (Nat.zero_le _) inside) (some (first, last))
  rw [reply_header_inside asked sizeBound inside]
  constructor
  · intro serves
    have lengths := serves.length
    simp only [length, announced, Option.some.injEq] at lengths
    exact lengths.symm
  · intro same
    constructor
    · simp only [firstByte]
      rw [take_drop_inj bound] <;> omega
    · simp only [length, announced, same]
    · simp only [if_pos some_start, Option.some.injEq, ends, firstByte]
      intro told same
      exact same.symm

theorem serves_at_start (asked : streamer.Asked file.length 0 last)
    (sizeBound : file.length < 2 ^ 63) (nonempty : 0 < file.length) {sent : Nat}
    (bound : sent ≤ file.length) {range : Option (Nat × Option Nat)} (fromStart : firstByte range = 0) :
    Reply.Serves { streamer.replyHeader request with body := (file.drop 0).take sent } file range ↔
      sent = lastByte file.length range + 1 ∧ streamer.announcedLength = sent := by
  have length : ((file.drop 0).take sent).length = sent := by
    rw [List.length_take, List.length_drop]
    omega
  have lastBound : lastByte file.length range + 1 ≤ file.length := last_byte_bound nonempty range
  rw [reply_header_inside asked sizeBound nonempty]
  constructor
  · intro serves
    have bodies := serves.body
    have lengths := serves.length
    simp only [fromStart, Nat.sub_zero] at bodies
    rw [take_drop_inj bound lastBound] at bodies
    simp only [length, Option.some.injEq] at lengths
    exact ⟨bodies, lengths⟩
  · rintro ⟨same, announced⟩
    constructor
    · simp only [fromStart, Nat.sub_zero, same]
    · simp only [length, announced]
    · intro told impossible
      nomatch impossible

end Body

/-! ## What the loop sends -/

theorem sent_of_eq_self_iff (left : Nat) : sentOf left = left ↔ left < 2 ^ 31 := by
  unfold sentOf
  split_ifs <;> omega

theorem sent_of_stop {left : Nat} (stops : Int.bmod left (2 ^ 32) ≤ 0) : sentOf left = 0 := by
  unfold Int.bmod at stops
  unfold sentOf
  simp only [] at stops
  split_ifs <;> omega

theorem sent_of_step {left count : Nat} (room : (count : Int) ≤ Int.bmod left (2 ^ 32)) :
    count ≤ left ∧ sentOf left = count + sentOf (left - count) := by
  unfold Int.bmod at room
  simp only [] at room
  have fits : count ≤ left % 2 ^ 32 ∧ left % 2 ^ 32 < 2 ^ 31 ∨ count = 0 := by omega
  rcases fits with ⟨fits, small⟩ | rfl
  · have whole := Nat.mod_le left (2 ^ 32)
    have rest : (left - count) % 2 ^ 32 = left % 2 ^ 32 - count := by omega
    unfold sentOf
    rw [rest, if_pos small, if_pos (by omega)]
    omega
  · simp

/-! ## When a reply serves its request -/

section Replies

variable {file : List UInt8} (nonempty : 0 < file.length) (sizeBound : file.length < 2 ^ 63)
  {request : Request}

theorem asked_of_range (streamer : HttpStreamer) (sameFile : streamer.file = file) {first : Nat}
    {last : Option Nat} (asks : request.Asks (some (first, last))) :
    (streamer.parseRequest request).Asked file.length first last := by
  obtain ⟨starts, ends⟩ := parse_request_range streamer asks
  refine ⟨?_, starts, ends⟩
  rw [← sameFile]
  rfl

include sizeBound in
theorem not_answered_outside {streamer : HttpStreamer} {first : Nat} {last : Option Nat}
    (asked : streamer.Asked file.length first last) (outside : file.length ≤ first) :
    ¬ (streamer.replyHeader request).Answered := by
  rw [reply_header_answered, asked.size, asked.starts, stored]
  omega

def LaterReply (file : List UInt8) (request : Request) (reply : Reply) : Prop :=
  ∃ streamer : HttpStreamer, streamer.file = file ∧ streamer.mStart < streamer.fileSize ∧
    reply = (streamer.parseRequest request).replyHeader request

include nonempty sizeBound in
theorem later_reply_iff {reply : Reply} (later : LaterReply file request reply)
    {range : Option (Nat × Option Nat)} (asks : request.Asks range) :
    (reply.Answered → reply.Serves file range) ↔ LaterServed file.length range := by
  obtain ⟨streamer, sameFile, seekable, rfl⟩ := later
  cases range with
  | none =>
      obtain ⟨starts, -⟩ := parse_request_whole streamer asks
      have answered : ((streamer.parseRequest request).replyHeader request).Answered := by
        rw [reply_header_answered, starts]
        exact seekable
      have empty : ((streamer.parseRequest request).replyHeader request).body = [] := by
        unfold HttpStreamer.replyHeader
        split_ifs <;> rfl
      constructor
      · intro served
        have body := congrArg List.length (served answered).body
        rw [empty] at body
        simp only [firstByte, lastByte, List.length_nil, List.length_take, List.length_drop] at body
        omega
      · exact False.elim
  | some asked =>
      obtain ⟨first, last⟩ := asked
      have asked := asked_of_range streamer sameFile asks
      by_cases outside : file.length ≤ first
      · have unanswered : ¬((streamer.parseRequest request).replyHeader request).Answered :=
          not_answered_outside sizeBound asked outside
        constructor
        · intro _
          cases last with
          | none => exact outside
          | some last => exact .inl outside
        · exact fun _ answered => absurd answered unanswered
      · have inside : first < file.length := Nat.lt_of_not_le outside
        have answered : ((streamer.parseRequest request).replyHeader request).Answered := by
          rw [reply_header_answered, asked.size, asked.starts, stored_of_inside sizeBound inside]
          omega
        have bare : (streamer.parseRequest request).replyHeader request =
            { (streamer.parseRequest request).replyHeader request with
                body := (file.drop first).take 0 } := by
          rw [reply_header_inside asked sizeBound inside]
          rfl
        rw [forall_prop_of_true answered, bare]
        rcases Nat.eq_zero_or_pos first with rfl | some_start
        · rw [serves_at_start asked sizeBound nonempty (Nat.zero_le _) rfl]
          cases last <;> simp only [LaterServed] <;> omega
        · rw [serves_inside asked sizeBound inside some_start (Nat.zero_le _)]
          cases last <;> simp only [LaterServed, lastByte] <;> omega

def HttpStreamer.total (streamer : HttpStreamer) : Int :=
  if 0 < streamer.seekEnd then streamer.seekEnd - streamer.mStart + 1
  else streamer.fileSize - streamer.mStart

/-- The body of a first reply, once the loop is through with it. -/
def FirstBody (file : List UInt8) (streamer : HttpStreamer) (body : List UInt8) : Prop :=
  ∀ first : Nat, streamer.mStart = first → ∃ sent, first + sent ≤ file.length ∧
    body = (file.drop first).take sent ∧
    ∀ total : Nat, streamer.total = total → first + total ≤ file.length → sent = sentOf total

section FirstReply

variable {streamer : HttpStreamer} {body : List UInt8} {first : Nat} {last : Option Nat}

theorem total_whole (asked : streamer.Asked file.length 0 last) (starts : streamer.mStart = 0)
    (open_end : streamer.seekEnd ≤ 0) : streamer.total = file.length := by
  rw [HttpStreamer.total, if_neg (by omega), starts, asked.size]
  exact Int.sub_zero _

include nonempty sizeBound in
theorem first_whole_iff (asked : streamer.Asked file.length 0 none)
    (sent : FirstBody file streamer body) {range : Option (Nat × Option Nat)}
    (fromStart : firstByte range = 0) (toEnd : lastByte file.length range = file.length - 1) :
    Reply.Serves { streamer.replyHeader request with body := body } file range ↔
      file.length < 2 ^ 31 := by
  have starts := asked.starts
  rw [stored_of_inside sizeBound nonempty] at starts
  obtain ⟨count, bound, rfl, all⟩ := sent 0 starts
  have counted := all file.length
    (total_whole asked starts (by rw [seek_end_at_start asked]; decide)) (by omega)
  have announced := (announced_at_start asked sizeBound).1 rfl
  have whole := sent_of_eq_self_iff file.length
  refine (serves_at_start asked sizeBound nonempty (by omega) fromStart).trans ?_
  rw [toEnd, announced]
  omega

include nonempty sizeBound in
theorem first_from_start_iff {last : Nat} (asked : streamer.Asked file.length 0 (some last))
    (sent : FirstBody file streamer body) :
    Reply.Serves { streamer.replyHeader request with body := body } file (some (0, some last)) ↔
      FirstServed file.length (some (0, some last)) := by
  have starts := asked.starts
  rw [stored_of_inside sizeBound nonempty] at starts
  obtain ⟨count, bound, rfl, all⟩ := sent 0 starts
  have ends := seek_end_at_start asked
  have ended : storedEnd (some last) = stored last := rfl
  refine (serves_at_start asked sizeBound nonempty (by omega) rfl).trans ?_
  rw [(announced_at_start asked sizeBound).2 last rfl count (by omega)]
  cases last with
  | zero =>
      have counted := all file.length
        (total_whole asked starts (by rw [ends]; decide)) (by omega)
      simp only [FirstServed, lastByte, true_and]
      omega
  | succ last =>
      simp only [FirstServed, lastByte]
      by_cases within : last + 1 < file.length
      · have exact_end : stored (last + 1) = last + 1 := stored_of_inside sizeBound within
        have total : streamer.total = (last + 2 : Nat) := by
          rw [HttpStreamer.total, ends, ended, exact_end, if_pos (by omega), starts]
          omega
        have counted := all (last + 2) total (by omega)
        have whole := sent_of_eq_self_iff (last + 2)
        omega
      · omega

include sizeBound in
theorem first_inside_iff (asked : streamer.Asked file.length first last)
    (sent : FirstBody file streamer body) (inside : first < file.length) (some_start : 0 < first) :
    Reply.Serves { streamer.replyHeader request with body := body } file (some (first, last)) ↔
      FirstServed file.length (some (first, last)) := by
  have starts := asked.starts
  rw [stored_of_inside sizeBound inside] at starts
  obtain ⟨count, bound, rfl, all⟩ := sent first starts
  refine (serves_inside asked sizeBound inside some_start (by omega)).trans ?_
  have ends := seek_end_inside asked sizeBound inside some_start
  cases last with
  | none =>
      have lastIs : lastByte file.length (some (first, none)) = file.length - 1 := rfl
      have total : streamer.total = (file.length - first : Nat) := by
        rw [HttpStreamer.total, ends, lastIs, if_pos (by omega), starts]
        omega
      have counted := all (file.length - first) total (by omega)
      have whole := sent_of_eq_self_iff (file.length - first)
      simp only [FirstServed, lastIs]
      omega
  | some last =>
      have lastIs : lastByte file.length (some (first, some last)) =
        min last (file.length - 1) := rfl
      rw [lastIs] at ends ⊢
      cases last with
      | zero =>
          have total : streamer.total = (file.length - first : Nat) := by
            rw [HttpStreamer.total, ends, if_neg (by omega), starts, asked.size]
            omega
          have counted := all (file.length - first) total (by omega)
          simp only [FirstServed]
          by_cases second : first = 1
          · subst second
            omega
          · omega
      | succ last =>
          simp only [FirstServed]
          by_cases backwards : last + 2 < first
          · omega
          · have total : streamer.total =
                (min (last + 1) (file.length - 1) + 1 - first : Nat) := by
              rw [HttpStreamer.total, ends, if_pos (by omega), starts]
              omega
            have counted := all _ total (by omega)
            have whole := sent_of_eq_self_iff (min (last + 1) (file.length - 1) + 1 - first)
            omega

end FirstReply

include nonempty sizeBound in
theorem first_reply_iff {body : List UInt8}
    (sent : FirstBody file ((HttpStreamer.new file).parseRequest request) body)
    (seekable : ((HttpStreamer.new file).parseRequest request).mStart < file.length)
    {range : Option (Nat × Option Nat)} (asks : request.Asks range) :
    Reply.Serves { ((HttpStreamer.new file).parseRequest request).replyHeader request with
        body := body } file range ↔ FirstServed file.length range := by
  cases range with
  | none =>
      obtain ⟨starts, ends⟩ := parse_request_whole (HttpStreamer.new file) asks
      exact first_whole_iff nonempty sizeBound ⟨rfl, starts, ends⟩ sent rfl rfl
  | some asked =>
      obtain ⟨first, last⟩ := asked
      have asked : HttpStreamer.Asked _ file.length first last :=
        asked_of_range (HttpStreamer.new file) rfl asks
      have inside : first < file.length := by
        rw [asked.starts, stored] at seekable
        omega
      rcases Nat.eq_zero_or_pos first with rfl | some_start
      · cases last with
        | none =>
            refine (first_whole_iff nonempty sizeBound asked sent rfl rfl).trans ?_
            simp only [FirstServed]
            omega
        | some last => exact first_from_start_iff nonempty sizeBound asked sent
      · exact first_inside_iff sizeBound asked sent inside some_start

end Replies

/-! ## Runs -/

namespace HttpStreamer

inductive Performed (streamer : HttpStreamer) : Event → HttpStreamer → Prop where
  | transfers {count : Nat} (sending : streamer.phase = .sending)
      (room : (count : Int) ≤ streamer.remaining) (forward : 0 ≤ streamer.start)
      (inside : streamer.start + count ≤ streamer.fileSize) :
      Performed streamer (.transfers count) (streamer.send count)
  | atEndOfFile (sending : streamer.phase = .sending) (left : 0 < streamer.remaining)
      (behind : streamer.fileSize ≤ streamer.start) :
      Performed streamer .atEndOfFile { streamer with phase := .closed }
  | interrupted (sending : streamer.phase = .sending) : Performed streamer .interrupted streamer
  | refused (sending : streamer.phase = .sending) (backward : streamer.start < 0) :
      Performed streamer .refused { streamer with phase := .closed }
  | complete (sending : streamer.phase = .sending) (done : streamer.remaining ≤ 0) {phase : Phase}
      (left : phase ≠ .sending) : Performed streamer .complete { streamer with phase := phase }
  | waits {event : Event} {rounds : Nat} (waiting : streamer.phase = .waiting rounds)
      (silent : ∀ request, event ≠ .requested request) {phase : Phase} (left : phase ≠ .sending) :
      Performed streamer event { streamer with phase := phase }
  | requested {request : Request} {rounds : Nat} (waiting : streamer.phase = .waiting rounds)
      {phase : Phase} (left : phase ≠ .sending)
      (open_seekable : phase ≠ .closed →
        (streamer.parseRequest request).mStart < (streamer.parseRequest request).fileSize) :
      Performed streamer (.requested request)
        { ((streamer.parseRequest request).seek request).1 with phase := phase }

theorem count_down_not_sending (rounds : Nat) : countDown rounds ≠ .sending := by
  unfold countDown
  split_ifs <;> nofun

theorem perform_cases {streamer next : HttpStreamer} {event : Event}
    (performed : streamer.perform event = some next) : Performed streamer event next := by
  cases event with
  | transfers count =>
      simp only [perform, Option.ite_none_right_eq_some, Option.some.injEq] at performed
      obtain ⟨⟨sending, -, room, forward, inside⟩, rfl⟩ := performed
      exact .transfers sending room forward inside
  | atEndOfFile =>
      simp only [perform, Option.ite_none_right_eq_some, Option.some.injEq] at performed
      obtain ⟨⟨sending, left, behind⟩, rfl⟩ := performed
      exact .atEndOfFile sending left behind
  | interrupted =>
      simp only [perform, Option.ite_none_right_eq_some, Option.some.injEq] at performed
      obtain ⟨⟨sending, -⟩, rfl⟩ := performed
      exact .interrupted sending
  | refused =>
      simp only [perform, Option.ite_none_right_eq_some, Option.some.injEq] at performed
      obtain ⟨⟨sending, -, backward⟩, rfl⟩ := performed
      exact .refused sending backward
  | complete =>
      simp only [perform, Option.ite_none_right_eq_some, Option.some.injEq] at performed
      obtain ⟨⟨sending, done⟩, rfl⟩ := performed
      apply Performed.complete sending done
      split_ifs <;> nofun
  | quiet =>
      simp only [perform] at performed
      split at performed
      · rename_i waiting
        cases performed
        exact .waits waiting (fun _ same => Event.noConfusion same) (count_down_not_sending _)
      · nomatch performed
  | requested request =>
      simp only [perform] at performed
      split at performed
      · rename_i rounds waiting
        cases performed
        apply Performed.requested waiting
        · by_cases found : ((streamer.parseRequest request).seek request).2 = true
          · rw [if_pos found]
            exact count_down_not_sending rounds
          · rw [if_neg found]
            nofun
        · intro stays
          rw [← seek_found _ request]
          by_contra missing
          exact stays (if_neg missing)
      · nomatch performed
  | unreadable =>
      simp only [perform] at performed
      split at performed
      · rename_i waiting
        cases performed
        exact .waits waiting (fun _ same => Event.noConfusion same) nofun
      · nomatch performed

/-- While the first body is sent: the `start` of the loop tells how much of it is. -/
structure Underway (file : List UInt8) (request : Request) (streamer : HttpStreamer) : Prop where
  sameFile : streamer.file = file
  starts : streamer.mStart = ((new file).parseRequest request).mStart
  inside : streamer.mStart < file.length
  ends : streamer.mEnd = ((new file).parseRequest request).seekEnd
  sent : ∃ body,
    streamer.replies = [{ ((new file).parseRequest request).replyHeader request with body := body }] ∧
    ∀ first : Nat, streamer.mStart = first → ∃ sent : Nat, streamer.start = first + sent ∧
      first + sent ≤ file.length ∧ body = (file.drop first).take sent ∧
      ∀ total : Nat, ((new file).parseRequest request).total = total →
        first + total ≤ file.length → sent ≤ total ∧ sent + sentOf (total - sent) = sentOf total

/-- Behind the first body: there are the first reply and those to the requests read since. -/
structure Behind (file : List UInt8) (request : Request) (labels : List Event)
    (streamer : HttpStreamer) : Prop where
  sameFile : streamer.file = file
  inside : streamer.phase ≠ .closed → streamer.mStart < file.length
  first : ∃ body, FirstBody file ((new file).parseRequest request) body ∧
    { ((new file).parseRequest request).replyHeader request with body := body } ∈ streamer.replies ∧
    ∀ reply ∈ streamer.replies,
      reply = { ((new file).parseRequest request).replyHeader request with body := body } ∨
        ∃ later, .requested later ∈ labels ∧ LaterReply file later reply
  later : ∀ later, .requested later ∈ labels →
    ∃ reply ∈ streamer.replies, LaterReply file later reply

section Runs

variable {file : List UInt8} {request : Request} {streamer : HttpStreamer} {labels : List Event}

theorem Underway.remaining_eq (underway : Underway file request streamer) {first sent total : Nat}
    (starts : streamer.mStart = first) (start : streamer.start = first + sent)
    (counted : ((new file).parseRequest request).total = total) (within : sent ≤ total) :
    streamer.remaining = Int.bmod (total - sent : Nat) (2 ^ 32) := by
  have sameSize : streamer.fileSize = ((new file).parseRequest request).fileSize := by
    rw [fileSize, underway.sameFile]
    rfl
  have sameStart := underway.starts
  rw [starts] at sameStart
  rw [HttpStreamer.total, ← sameStart] at counted
  rw [remaining, underway.ends, start, sameSize]
  congr 1
  split_ifs at counted ⊢ <;> omega

theorem seek_of_inside (inside : streamer.mStart < streamer.fileSize) :
    (streamer.seek request).1 =
      { streamer with
        mEnd := streamer.seekEnd
        replies := streamer.replyHeader request :: streamer.replies } := by
  have notBehind : ¬ streamer.fileSize ≤ streamer.mStart := Int.not_le.mpr inside
  simp only [seek, replyHeader, if_neg notBehind]

theorem underway_begin (seekable : ((new file).parseRequest request).mStart < file.length) :
    Underway file request (begin file request) ∧ (begin file request).phase = .sending := by
  have found := (seek_found ((new file).parseRequest request) request).mpr seekable
  have begun : begin file request =
      { ((new file).parseRequest request) with
        mEnd := ((new file).parseRequest request).seekEnd
        replies := [((new file).parseRequest request).replyHeader request]
        start := ((new file).parseRequest request).mStart
        phase := .sending } := by
    simp only [begin, found, if_true, seek_of_inside seekable]
    rfl
  rw [begun]
  refine ⟨⟨rfl, rfl, seekable, rfl, [], ?_, ?_⟩, rfl⟩
  · simp only [replyHeader]
    split_ifs <;> rfl
  · intro first starts
    have inside : (first : Int) < file.length := starts ▸ seekable
    refine ⟨0, starts.trans (Int.add_zero _).symm, by omega, rfl, ?_⟩
    intro total _ _
    exact ⟨Nat.zero_le _, by rw [Nat.zero_add, Nat.sub_zero]⟩

/-- Where the loop leaves off, the body is what an `int` lets it send. -/
theorem Underway.behind (underway : Underway file request streamer)
    (silent : ∀ later, .requested later ∉ labels) (phase : Phase)
    (through : ∀ first sent total : Nat, streamer.start = first + sent → first + total ≤ file.length →
      sent ≤ total → streamer.remaining = Int.bmod (total - sent : Nat) (2 ^ 32) →
      sentOf (total - sent) = 0) :
    Behind file request labels { streamer with phase := phase } := by
  obtain ⟨body, replies, progress⟩ := underway.sent
  refine ⟨underway.sameFile, fun _ => underway.inside, ⟨body, ?_, ?_, ?_⟩, ?_⟩
  · intro first starts
    rw [← underway.starts] at starts
    obtain ⟨sent, start, inside, content, progress⟩ := progress first starts
    refine ⟨sent, inside, content, ?_⟩
    intro total totalIs fits
    obtain ⟨within, counted⟩ := progress total totalIs fits
    have none_left := through first sent total start fits within
      (underway.remaining_eq starts start totalIs within)
    omega
  · simp [replies]
  · intro reply member
    simp only [replies, List.mem_singleton] at member
    exact .inl member
  · intro later read
    exact absurd read (silent later)

theorem Underway.send (underway : Underway file request streamer) {count : Nat}
    (room : (count : Int) ≤ streamer.remaining)
    (within : streamer.start + count ≤ streamer.fileSize) :
    Underway file request (streamer.send count) := by
  obtain ⟨body, replies, progress⟩ := underway.sent
  refine ⟨underway.sameFile, underway.starts, underway.inside, underway.ends,
    body ++ (streamer.file.drop streamer.start.toNat).take count, ?_, ?_⟩
  · simp only [HttpStreamer.send, replies]
  · intro first starts
    obtain ⟨sent, start, inside, content, progress⟩ := progress first starts
    rw [fileSize, underway.sameFile] at within
    refine ⟨sent + count, ?_, by omega, ?_, ?_⟩
    · show streamer.start + count = _
      omega
    · have place : streamer.start.toNat = first + sent := by omega
      rw [content, underway.sameFile, place, List.take_add, List.drop_drop]
    · intro total counted fits
      obtain ⟨before, left⟩ := progress total counted fits
      rw [underway.remaining_eq starts start counted before] at room
      obtain ⟨few, steps⟩ := sent_of_step room
      rw [Nat.sub_sub] at steps
      omega

/-- Reading a request behind the first body adds a header and nothing else. -/
theorem Behind.requested (behind : Behind file request labels streamer) {later : Request}
    {rounds : Nat} (waiting : streamer.phase = .waiting rounds) {phase : Phase}
    (seekable : phase ≠ .closed →
      (streamer.parseRequest later).mStart < (streamer.parseRequest later).fileSize) :
    Behind file request (labels ++ [.requested later])
      { ((streamer.parseRequest later).seek later).1 with phase := phase } := by
  have inFile : streamer.mStart < file.length := behind.inside (by simp [waiting])
  have added : LaterReply file later ((streamer.parseRequest later).replyHeader later) :=
    ⟨streamer, behind.sameFile, by rw [fileSize, behind.sameFile]; exact inFile, rfl⟩
  have replies := seek_replies (streamer.parseRequest later) later
  obtain ⟨body, complete, first, all⟩ := behind.first
  refine ⟨(seek_file _ _).trans behind.sameFile, ?_, ⟨body, complete, ?_, ?_⟩, ?_⟩
  · intro open_phase
    have inside := seekable open_phase
    rw [fileSize] at inside
    simp only [seek_mStart]
    rw [← behind.sameFile]
    exact inside
  · simp only [replies]
    exact List.mem_cons_of_mem _ first
  · intro reply member
    simp only [replies, List.mem_cons] at member
    rcases member with rfl | old
    · exact .inr ⟨later, by simp, added⟩
    · rcases all reply old with same | ⟨other, read, its⟩
      · exact .inl same
      · exact .inr ⟨other, List.mem_append_left _ read, its⟩
  · intro other read
    simp only [replies]
    rcases List.mem_append.mp read with before | now
    · obtain ⟨reply, member, its⟩ := behind.later other before
      exact ⟨reply, List.mem_cons_of_mem _ member, its⟩
    · simp only [List.mem_singleton, Event.requested.injEq] at now
      subst now
      exact ⟨_, List.mem_cons_self, added⟩

theorem Behind.waits (behind : Behind file request labels streamer) {event : Event} {rounds : Nat}
    (waiting : streamer.phase = .waiting rounds) (silent : ∀ later, event ≠ .requested later)
    (phase : Phase) :
    Behind file request (labels ++ [event]) { streamer with phase := phase } := by
  have inFile : streamer.mStart < file.length := behind.inside (by simp [waiting])
  obtain ⟨body, complete, first, all⟩ := behind.first
  have before : ∀ later, .requested later ∈ labels ++ [event] → .requested later ∈ labels := by
    intro later read
    rcases List.mem_append.mp read with read | now
    · exact read
    · exact absurd (List.mem_singleton.mp now).symm (silent later)
  refine ⟨behind.sameFile, fun _ => inFile, ⟨body, complete, first, ?_⟩, ?_⟩
  · intro reply member
    rcases all reply member with same | ⟨later, read, its⟩
    · exact .inl same
    · exact .inr ⟨later, List.mem_append_left _ read, its⟩
  · intro later read
    exact behind.later later (before later read)

theorem run_invariant (seekable : ((new file).parseRequest request).mStart < file.length)
    (run : (machine file request).Run labels streamer) :
    (streamer.phase = .sending → Underway file request streamer ∧
      ∀ later, .requested later ∉ labels) ∧
    (streamer.phase ≠ .sending → Behind file request labels streamer) := by
  induction run with
  | start initially =>
      rw [show _ = begin file request from initially]
      obtain ⟨underway, sending⟩ := underway_begin seekable
      exact ⟨fun _ => ⟨underway, fun _ => List.not_mem_nil⟩, fun left => absurd sending left⟩
  | @snoc labels streamer prior event next move ih =>
      obtain ⟨sending_case, behind_case⟩ := ih
      have silent : streamer.phase = .sending → (∀ later, event ≠ .requested later) →
          ∀ later, .requested later ∉ labels ++ [event] := by
        intro sending other later read
        rcases List.mem_append.mp read with before | now
        · exact (sending_case sending).2 later before
        · exact other later (List.mem_singleton.mp now).symm
      cases perform_cases move with
      | transfers sending room forward inside =>
          refine ⟨fun _ => ⟨(sending_case sending).1.send room inside, ?_⟩, ?_⟩
          · exact silent sending fun _ same => Event.noConfusion same
          · exact fun left => absurd sending left
      | atEndOfFile sending left behind =>
          refine ⟨(fun phase => nomatch phase), fun _ => ?_⟩
          apply (sending_case sending).1.behind (silent sending fun _ same => Event.noConfusion same)
          intro first sent total start fits within _
          rw [fileSize, (sending_case sending).1.sameFile, start] at behind
          rw [show total - sent = 0 by omega]
          rfl
      | interrupted sending =>
          refine ⟨fun _ => ⟨(sending_case sending).1, ?_⟩, fun left => absurd sending left⟩
          exact silent sending fun _ same => Event.noConfusion same
      | refused sending backward =>
          refine ⟨(fun phase => nomatch phase), fun _ => ?_⟩
          apply (sending_case sending).1.behind (silent sending fun _ same => Event.noConfusion same)
          intro first sent total start _ _ _
          omega
      | complete sending done left =>
          refine ⟨fun phase => absurd phase left, fun _ => ?_⟩
          apply (sending_case sending).1.behind (silent sending fun _ same => Event.noConfusion same)
          intro first sent total _ _ _ remaining
          rw [remaining] at done
          exact sent_of_stop done
      | waits waiting other left =>
          refine ⟨fun phase => absurd phase left, fun _ => ?_⟩
          exact (behind_case (by simp [waiting])).waits waiting other _
      | requested waiting left seekable =>
          refine ⟨fun phase => absurd phase left, fun _ => ?_⟩
          exact (behind_case (by simp [waiting])).requested waiting seekable

theorem run_unanswered (outside : ¬ ((new file).parseRequest request).mStart < file.length)
    (run : (machine file request).Run labels streamer) :
    labels = [] ∧ streamer.phase = .closed ∧
      streamer.replies = [((new file).parseRequest request).replyHeader request] := by
  induction run with
  | start initially =>
      have missing : ((((new file).parseRequest request).seek request).2 = true) = False :=
        eq_false fun found => outside ((seek_found _ _).mp found)
      rw [show _ = begin file request from initially]
      refine ⟨rfl, ?_, seek_replies _ _⟩
      simp only [begin, missing, if_false]
  | snoc prior move ih =>
      obtain ⟨-, closed, -⟩ := ih
      cases perform_cases move <;> simp_all

end Runs

end HttpStreamer

/-- A connection that is over has served its requests if and only if the first one was
within the limits and every later one asked for nothing. -/
theorem connection_served_iff (file : List UInt8) (nonempty : 0 < file.length)
    (sizeBound : file.length < 2 ^ 63) (request : Request) {labels : List Event}
    {streamer : HttpStreamer} (run : (HttpStreamer.machine file request).Run labels streamer)
    (closed : streamer.phase = .closed) :
    streamer.Served ↔
      (∀ range, request.Asks range → FirstServed file.length range) ∧
        ∀ later, .requested later ∈ labels →
          ∀ range, later.Asks range → LaterServed file.length range := by
  by_cases seekable : ((HttpStreamer.new file).parseRequest request).mStart < file.length
  · have behind := (HttpStreamer.run_invariant seekable run).2 (by rw [closed]; nofun)
    obtain ⟨body, complete, first, all⟩ := behind.first
    have answered : (((HttpStreamer.new file).parseRequest request).replyHeader request).Answered :=
      (reply_header_answered _ request).mpr seekable
    unfold HttpStreamer.Served
    rw [behind.sameFile]
    constructor
    · intro served
      constructor
      · intro range asks
        rw [← first_reply_iff nonempty sizeBound complete seekable asks]
        exact served _ first answered range (by simpa using asks)
      · intro later read range asks
        obtain ⟨reply, member, its⟩ := behind.later later read
        rw [← later_reply_iff nonempty sizeBound its asks]
        intro isAnswered
        obtain ⟨_, _, _, same⟩ := its
        exact served reply member isAnswered range (by rw [same, reply_header_request]; exact asks)
    · rintro ⟨firstServed, laterServed⟩ reply member isAnswered range asks
      rcases all reply member with rfl | ⟨later, read, its⟩
      · simp only [reply_header_request] at asks
        rw [first_reply_iff nonempty sizeBound complete seekable asks]
        exact firstServed range asks
      · have asked : later.Asks range := by
          obtain ⟨_, _, _, same⟩ := its
          rwa [same, reply_header_request] at asks
        exact (later_reply_iff nonempty sizeBound its asked).mpr
          (laterServed later read range asked) isAnswered
  · obtain ⟨rfl, -, replies⟩ := HttpStreamer.run_unanswered seekable run
    have unanswered : ¬ (((HttpStreamer.new file).parseRequest request).replyHeader request).Answered :=
      fun answered => seekable ((reply_header_answered _ request).mp answered)
    constructor
    · intro _
      refine ⟨?_, fun later read => nomatch read⟩
      intro range asks
      cases range with
      | none =>
          obtain ⟨starts, -⟩ := parse_request_whole (HttpStreamer.new file) asks
          rw [starts] at seekable
          exact absurd (Int.natCast_pos.mpr nonempty) seekable
      | some asked =>
          obtain ⟨first, last⟩ := asked
          have starts := (asked_of_range (HttpStreamer.new file) rfl asks).starts
          rw [starts, stored] at seekable
          have behind : file.length ≤ first := by omega
          match last with
          | none => exact .inl behind
          | some 0 => exact .inl behind
          | some (last + 1) => exact .inl behind
    · intro _ reply member answered
      rw [replies, List.mem_singleton] at member
      exact absurd (member ▸ answered) unanswered

/-- A whole file, sent in two pieces. -/
theorem connection_served_iff_whole_file :
    ∃ labels streamer, (HttpStreamer.machine [1, 2, 3] ⟨[]⟩).Run labels streamer ∧
      streamer.phase = .closed ∧ streamer.replies.map Reply.body = [[1, 2, 3]] ∧
      streamer.Served := by
  have run := Machine.Run.follow (HttpStreamer.machine [1, 2, 3] ⟨[]⟩) HttpStreamer.perform
    (fun _ _ _ performed => performed)
    [.transfers 2, .interrupted, .transfers 1, .complete] (.start rfl) rfl
  refine ⟨_, _, run, rfl, rfl, ?_⟩
  refine (connection_served_iff [1, 2, 3] (by decide) (by decide) ⟨[]⟩ run rfl).mpr ⟨?_, ?_⟩
  · intro range asks
    cases range with
    | none => exact (by decide : 3 < 2 ^ 31)
    | some asked => nomatch asks
  · intro later read
    simp at read

/-- The second request of a connection gets a header, and then nothing. -/
theorem second_request_gets_no_body :
    ∃ labels streamer,
      (HttpStreamer.machine [1, 2, 3]
        ⟨[(ascii "Connection".toList, ascii "Keep-Alive".toList)]⟩).Run labels streamer ∧
      streamer.phase = .closed ∧ ¬ streamer.Served := by
  have run := Machine.Run.follow
    (HttpStreamer.machine [1, 2, 3] ⟨[(ascii "Connection".toList, ascii "Keep-Alive".toList)]⟩)
    HttpStreamer.perform (fun _ _ _ performed => performed)
    ([.transfers 3, .complete, .requested ⟨[]⟩] ++ List.replicate 29 .quiet) (.start rfl) rfl
  refine ⟨_, _, run, rfl, ?_⟩
  intro served
  have second := (served _ List.mem_cons_self (.inl rfl) none rfl).body
  exact absurd second (by decide)

end Xineliboutput.Http
