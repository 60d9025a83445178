import Xineliboutput.Frontend.ElementaryPacking
import Xineliboutput.Ts.TsPacket

/-!
# Conversion of PES headers

`Play_Mpeg1_PES` of `frontend.c` rewrites the header of a PES packet of MPEG 1 to that of MPEG 2
and passes the packet on. A call is `none` where it reads or writes outside of a buffer.
-/

namespace Xineliboutput.Frontend

open Xineliboutput.Foundation
open Xineliboutput.Ts

set_option autoImplicit false

/-- The condition at the beginning. A byte is looked at only where those before it have
passed. -/
def entryTest (data1 : Packet) : Option Bool :=
  (data1[0]?).bind fun first =>
    if first ≠ 0 then some false
    else (data1[1]?).bind fun second =>
      if second ≠ 0 then some false
      else (data1[2]?).bind fun third =>
        if third ≠ 1 ∨ ¬7 < data1.length then some false
        else (data1[3]?).bind fun streamId =>
          if ¬(isVideoPacket streamId ∨ isAudioPacket streamId) then some false
          else (data1[6]?).bind fun marker =>
            if marker &&& 0xc0 = 0x80 then some false
            else (data1[4]?).bind fun high => (data1[5]?).map fun low =>
              data1.length == high.toNat * 256 + low.toNat + 6

/-- `while ((data1[i1] & 0x80) == 0x80) i1++;` -/
def skipStuffing (data1 : Packet) : Nat → Nat → Option Nat
  | 0, _ => none
  | limit + 1, i1 =>
      (data1[i1]?).bind fun byte =>
        if byte &&& 0x80 = 0x80 then skipStuffing data1 limit (i1 + 1) else some i1

def copyStamp (data1 : Packet) (i1 : Nat) : Option (List UInt8) :=
  (data1[i1]?).bind fun first => (data1[i1 + 1]?).bind fun second =>
    (data1[i1 + 2]?).bind fun third => (data1[i1 + 3]?).bind fun fourth =>
      (data1[i1 + 4]?).map fun fifth =>
        [first &&& 0x0e, second &&& 0xff, third &&& 0xfe, fourth &&& 0xff, fifth &&& 0xfe]

/-- What is written behind the length, and `i1` after it. -/
def convertStamps (data1 : Packet) (i1 : Nat) : Option (List UInt8 × Nat) :=
  (data1[i1]?).bind fun first =>
    if first &&& 0xf0 = 0x20 then
      (copyStamp data1 i1).map fun pts => ([0x80, 0x80, 5] ++ pts, i1 + 5)
    else if first &&& 0xf0 = 0x30 then
      (copyStamp data1 i1).bind fun pts => (copyStamp data1 (i1 + 5)).map fun dts =>
        ([0x80, 0x80 ||| 0x40, 10] ++ pts ++ dts, i1 + 10)
    else some ([0x80, 0, 0], i1 + 1)

/-- The index behind the stuffing and the fields of the buffer size. -/
def skipFields (data1 : Packet) : Option Nat :=
  (skipStuffing data1 data1.length 6).bind fun i1 => (data1[i1]?).map fun first =>
    if first &&& 0xc0 = 0x40 then i1 + 2 else i1

/-- `data2` with `newlen`, for the bytes behind the length and what remains of `data1`. The index
into `data1` is at most its length, so that `newlen` is not negative. -/
def convertedPacket (data1 : Packet) (converted : List UInt8) (i1 : Nat) : Packet × Nat :=
  let newlen := pesLength data1 + (6 + converted.length) - i1
  (data1.take 4 ++ [.ofNat ((newlen &&& 0xff00) >>> 8), .ofNat (newlen &&& 0xff)] ++ converted ++
    data1.drop i1, newlen)

/-- `Play_Mpeg1_PES`: the packet that is played, if there is one, and the result. -/
def playMpeg1Pes (play : Packet → Int) (data1 : Packet) : Option (Option Packet × Nat) :=
  (entryTest data1).bind fun passes =>
    if ¬passes then some (none, data1.length)
    else (skipFields data1).bind fun i1 =>
      if data1.length < i1 + 5 then some (none, data1.length)
      else (convertStamps data1 i1).bind fun converted =>
        let played := convertedPacket data1 converted.1 converted.2
        if data1.length - converted.2 > 0 then
          if played.1.length ≤ data1.length + 64 then
            some (some (played.1.take (played.2 + 6)),
              if play (played.1.take (played.2 + 6)) = played.2 + 6 then pesLength data1 + 6
              else 0)
          else none
        else some (none, 0)

/-! ## Headers of MPEG 1 -/

/-- What follows the stuffing and the fields of the buffer size, if the stuffing ends. -/
def mpeg1Body (packet : Packet) : Option (List UInt8) :=
  match (packet.drop 6).dropWhile fun byte => byte &&& 0x80 = 0x80 with
  | [] => none
  | first :: behind => some (if first &&& 0xc0 = 0x40 then behind.drop 1 else first :: behind)

def withPts (body : List UInt8) : Bool :=
  body.getD 0 0 &&& 0xf0 = 0x20 || body.getD 0 0 &&& 0xf0 = 0x30

def withDts (body : List UInt8) : Bool := body.getD 0 0 &&& 0xf0 = 0x30

def stampLength (body : List UInt8) : Nat :=
  if withDts body then 10 else if withPts body then 5 else 1

def Complete (body : List UInt8) : Prop := stampLength body ≤ body.length

instance (body : List UInt8) : Decidable (Complete body) :=
  inferInstanceAs (Decidable (stampLength body ≤ body.length))

def timestampOf (bytes : List UInt8) : Int :=
  ((bytes.getD 0 0 &&& 0x0e).toNat * 536870912 + (bytes.getD 1 0).toNat * 4194304 +
    (bytes.getD 2 0 &&& 0xfe).toNat * 16384 + (bytes.getD 3 0).toNat * 128 +
      (bytes.getD 4 0 &&& 0xfe).toNat / 2 : Nat)

def mpeg1Payload (body : List UInt8) : List UInt8 := body.drop (stampLength body)

def mpeg1Pts (body : List UInt8) : Int := if withPts body then timestampOf body else noPts

def mpeg1Dts (body : List UInt8) : Int :=
  if withDts body then timestampOf (body.drop 5) else noPts

/-- A packet of MPEG 2 with the payload and the timestamps of a body. -/
structure CarriesBody (body : List UInt8) (packet : Packet) : Prop where
  length : pesLength packet + 6 = packet.length
  payload : pesPayload packet = mpeg1Payload body
  pts : (pesGetPts packet.length).run (Memory.ofList packet) = some (mpeg1Pts body)
  dts : (pesGetDts packet.length).run (Memory.ofList packet) = some (mpeg1Dts body)

/-- All accesses are inside; a packet that passes the test with a complete header is converted
where it is played, and the result tells whether it was accepted. -/
def Converts (play : Packet → Int) (data1 : Packet) : Prop :=
  ∃ played result, playMpeg1Pes play data1 = some (played, result) ∧
    ∀ body, entryTest data1 = some true → mpeg1Body data1 = some body → Complete body →
      (∀ packet, played = some packet → CarriesBody body packet) ∧
      ((∃ packet, played = some packet ∧ play packet = packet.length) → result = data1.length) ∧
      (¬(∃ packet, played = some packet ∧ play packet = packet.length) → result = 0)

def newLength (body : List UInt8) : Nat :=
  3 + (if withDts body then 10 else if withPts body then 5 else 0) + (mpeg1Payload body).length

/-! ## The entry test -/

section Entry

variable {data1 : Packet}

theorem entry_test_long (first second third streamId high low marker last : UInt8)
    (rest : List UInt8) :
    entryTest (first :: second :: third :: streamId :: high :: low :: marker :: last :: rest) =
      some (first == 0 && second == 0 && third == 1 &&
        (isVideoPacket streamId || isAudioPacket streamId) && marker &&& 0xc0 != 0x80 &&
        rest.length + 8 == high.toNat * 256 + low.toNat + 6) := by
  simp only [entryTest, List.getElem?_cons_zero, List.getElem?_cons_succ, Option.bind_some,
    Option.map_some, List.length_cons]
  by_cases first' : first = 0
  · by_cases second' : second = 0
    · by_cases third' : third = 1
      · by_cases stream : isVideoPacket streamId ∨ isAudioPacket streamId
        · by_cases marked : marker &&& 0xc0 = 0x80
          · simp [first', second', third', stream, marked]
          · simp [first', second', third', stream, marked, Bool.or_eq_true]
        · simp [first', second', third', stream]
      · simp [first', second', third']
    · simp [first', second']
  · simp [first']

theorem entry_test_short {first second third : UInt8} {rest : List UInt8}
    (short : rest.length < 5) : entryTest (first :: second :: third :: rest) = some false := by
  have brief : ¬7 < (first :: second :: third :: rest).length := by
    simp only [List.length_cons]
    omega
  simp only [entryTest, List.getElem?_cons_zero, List.getElem?_cons_succ, Option.bind_some, brief,
    not_false_eq_true, or_true, if_true, ite_self]

theorem eight_bytes {rest : List UInt8} (long : 5 ≤ rest.length) :
    ∃ streamId high low marker last others,
      rest = streamId :: high :: low :: marker :: last :: others := by
  rcases rest with _ | ⟨streamId, _ | ⟨high, _ | ⟨low, _ | ⟨marker, _ | ⟨last, others⟩⟩⟩⟩⟩
  case cons.cons.cons.cons.cons => exact ⟨streamId, high, low, marker, last, others, rfl⟩
  all_goals
    simp only [List.length_cons, List.length_nil] at long
    omega

theorem entry_test_reads_inside (data1 : Packet) :
    (entryTest data1).isSome = true ↔ (data1.length < 3 → ∃ byte ∈ data1, byte ≠ 0) := by
  rcases data1 with _ | ⟨first, _ | ⟨second, _ | ⟨third, rest⟩⟩⟩
  · simp [entryTest]
  · by_cases zero : first = 0 <;> simp [entryTest, zero]
  · by_cases zero : first = 0 <;> by_cases zero' : second = 0 <;> simp [entryTest, zero, zero']
  · have long : ¬(first :: second :: third :: rest).length < 3 := by
      simp only [List.length_cons]
      omega
    have ends : (entryTest (first :: second :: third :: rest)).isSome = true := by
      by_cases short : rest.length < 5
      · rw [entry_test_short short]
        rfl
      · obtain ⟨streamId, high, low, marker, last, others, rfl⟩ := eight_bytes (Nat.not_lt.mp short)
        rw [entry_test_long]
        rfl
    exact iff_of_true ends fun short => absurd short long

theorem entry_test_true (passes : entryTest data1 = some true) :
    ∃ streamId high low rest, data1 = 0 :: 0 :: 1 :: streamId :: high :: low :: rest ∧
      (isVideoPacket streamId || isAudioPacket streamId) = true ∧ 2 ≤ rest.length ∧
      pesLength data1 + 6 = data1.length := by
  rcases data1 with _ | ⟨first, _ | ⟨second, _ | ⟨third, rest⟩⟩⟩
  · cases passes
  · by_cases zero : first = 0 <;> simp [entryTest, zero] at passes
  · by_cases zero : first = 0 <;> by_cases zero' : second = 0 <;>
      simp [entryTest, zero, zero'] at passes
  · by_cases short : rest.length < 5
    · rw [entry_test_short short] at passes
      cases passes
    · obtain ⟨streamId, high, low, marker, last, others, rfl⟩ := eight_bytes (Nat.not_lt.mp short)
      rw [entry_test_long] at passes
      have all := Option.some.inj passes
      simp only [Bool.and_eq_true, beq_iff_eq] at all
      obtain ⟨⟨⟨⟨⟨rfl, rfl⟩, rfl⟩, stream⟩, _⟩, length⟩ := all
      refine ⟨streamId, high, low, marker :: last :: others, rfl, stream, ?_, ?_⟩
      · simp only [List.length_cons]
        omega
      · change high.toNat * 256 + low.toNat + 6 = _
        simp only [List.length_cons]
        omega

end Entry

/-! ## Stuffing and buffer size -/

section Fields

variable {data1 body : List UInt8} {i1 limit : Nat}

def isStuffing (byte : UInt8) : Bool := byte &&& 0x80 = 0x80

theorem getElem_of_drop {byte : UInt8} {rest : List UInt8} (behind : data1.drop i1 = byte :: rest) :
    data1[i1]? = some byte ∧ data1.drop (i1 + 1) = rest := by
  have here : (data1.drop i1)[0]? = some byte := by rw [behind]; rfl
  rw [List.getElem?_drop, Nat.add_zero] at here
  rw [← List.drop_drop, behind]
  exact ⟨here, rfl⟩

theorem skip_stuffing_ends {stuffing : List UInt8} {first : UInt8} {rest : List UInt8}
    (behind : data1.drop i1 = stuffing ++ first :: rest)
    (high : ∀ byte ∈ stuffing, byte &&& 0x80 = 0x80) (low : ¬first &&& 0x80 = 0x80)
    (enough : stuffing.length < limit) :
    skipStuffing data1 limit i1 = some (i1 + stuffing.length) := by
  induction stuffing generalizing i1 limit with
  | nil =>
      obtain ⟨limit, rfl⟩ := Nat.exists_eq_add_one_of_ne_zero (Nat.ne_of_gt enough)
      rw [skipStuffing, (getElem_of_drop behind).1, Option.bind_some, if_neg low]
      rfl
  | cons byte stuffing ih =>
      rw [List.length_cons] at enough
      obtain ⟨limit, rfl⟩ := Nat.exists_eq_add_one_of_ne_zero (Nat.ne_of_gt (by omega : 0 < limit))
      obtain ⟨here, next⟩ := getElem_of_drop behind
      rw [skipStuffing, here, Option.bind_some, if_pos (high byte List.mem_cons_self),
        ih next (fun other member => high other (List.mem_cons_of_mem byte member)) (by omega),
        List.length_cons]
      congr 1
      omega

theorem skip_stuffing_outside (high : ∀ byte ∈ data1.drop i1, byte &&& 0x80 = 0x80) :
    skipStuffing data1 limit i1 = none := by
  induction limit generalizing i1 with
  | zero => rfl
  | succ limit ih =>
      rw [skipStuffing]
      cases behind : data1.drop i1 with
      | nil =>
          rw [List.getElem?_eq_none (List.drop_eq_nil_iff.mp behind)]
          rfl
      | cons byte rest =>
          obtain ⟨here, next⟩ := getElem_of_drop behind
          rw [behind] at high
          rw [here, Option.bind_some, if_pos (high byte List.mem_cons_self)]
          apply ih
          intro other member
          rw [next] at member
          exact high other (List.mem_cons_of_mem byte member)

theorem skip_fields_none (missing : mpeg1Body data1 = none) : skipFields data1 = none := by
  rw [skipFields, skip_stuffing_outside]
  · rfl
  · intro byte member
    rw [mpeg1Body] at missing
    split at missing
    · next all => simpa using List.dropWhile_eq_nil_iff.mp all byte member
    · cases missing

/-- The index at which the body begins. It may be one behind the end of the packet. -/
theorem skip_fields_some (found : mpeg1Body data1 = some body) :
    ∃ i1, skipFields data1 = some i1 ∧ data1.drop i1 = body := by
  rw [mpeg1Body] at found
  split at found
  · cases found
  · next first behind parts =>
      have whole := List.takeWhile_append_dropWhile
        (p := fun byte : UInt8 => decide (byte &&& 0x80 = 0x80)) (l := data1.drop 6)
      rw [parts] at whole
      have low : ¬first &&& 0x80 = 0x80 := by
        have stops := List.head?_dropWhile_not
          (fun byte : UInt8 => decide (byte &&& 0x80 = 0x80)) (data1.drop 6)
        rw [parts] at stops
        simpa using stops
      obtain ⟨stuffing, here⟩ : ∃ stuffing, (data1.drop 6).takeWhile
          (fun byte : UInt8 => decide (byte &&& 0x80 = 0x80)) = stuffing := ⟨_, rfl⟩
      have high : ∀ byte ∈ stuffing, byte &&& 0x80 = 0x80 := by
        intro byte member
        rw [← here] at member
        simpa using List.mem_takeWhile_imp member
      rw [here] at whole
      have size := congrArg List.length whole
      rw [List.length_append, List.length_cons, List.length_drop] at size
      have start : data1.drop (6 + stuffing.length) = first :: behind := by
        rw [← List.drop_drop, ← whole, List.drop_left]
      obtain ⟨read, next⟩ := getElem_of_drop start
      rw [skipFields, skip_stuffing_ends whole.symm high low (by omega), Option.bind_some, read,
        Option.map_some, ← Option.some.inj found]
      split
      · exact ⟨_, rfl, by rw [← next, List.drop_drop]⟩
      · exact ⟨_, rfl, start⟩

end Fields

/-! ## Timestamps -/

section Stamps

variable {data1 body : List UInt8} {i1 : Nat}

def unmarked (bytes : List UInt8) : List UInt8 :=
  [bytes.getD 0 0 &&& 0x0e, bytes.getD 1 0 &&& 0xff, bytes.getD 2 0 &&& 0xfe,
    bytes.getD 3 0 &&& 0xff, bytes.getD 4 0 &&& 0xfe]

theorem read_of_drop (behind : data1.drop i1 = body) {k : Nat} (inside : k < body.length) :
    data1[i1 + k]? = some (body.getD k 0) := by
  rw [← List.getElem?_drop, behind, List.getD_eq_getElem?_getD, List.getElem?_eq_getElem inside,
    Option.getD_some]

theorem copy_stamp (behind : data1.drop i1 = body) (long : 5 ≤ body.length) :
    copyStamp data1 i1 = some (unmarked body) := by
  have first := read_of_drop behind (show 0 < body.length by omega)
  rw [Nat.add_zero] at first
  rw [copyStamp, first, Option.bind_some, read_of_drop behind (show 1 < body.length by omega),
    Option.bind_some, read_of_drop behind (show 2 < body.length by omega), Option.bind_some,
    read_of_drop behind (show 3 < body.length by omega), Option.bind_some,
    read_of_drop behind (show 4 < body.length by omega), Option.map_some]
  rfl

theorem copy_stamp_outside (behind : data1.drop i1 = body) (short : body.length < 5) :
    copyStamp data1 i1 = none := by
  have size := congrArg List.length behind
  rw [List.length_drop] at size
  have last : data1[i1 + 4]? = none := List.getElem?_eq_none (by omega)
  rw [copyStamp, last]
  simp

def convertedBytes (body : List UInt8) : List UInt8 :=
  if withDts body then [0x80, 0xc0, 10] ++ unmarked body ++ unmarked (body.drop 5)
  else if withPts body then [0x80, 0x80, 5] ++ unmarked body
  else [0x80, 0, 0]

theorem has_pts_iff : withPts body = true ↔
    body.getD 0 0 &&& 0xf0 = 0x20 ∨ body.getD 0 0 &&& 0xf0 = 0x30 := by
  rw [withPts, Bool.or_eq_true, decide_eq_true_eq, decide_eq_true_eq]

theorem has_dts_iff : withDts body = true ↔ body.getD 0 0 &&& 0xf0 = 0x30 := decide_eq_true_iff

theorem convert_stamps (behind : data1.drop i1 = body) (long : 5 ≤ body.length)
    (complete : Complete body) :
    convertStamps data1 i1 = some (convertedBytes body, i1 + stampLength body) := by
  have first := read_of_drop behind (show 0 < body.length by omega)
  have second : data1.drop (i1 + 5) = body.drop 5 := by rw [← List.drop_drop, behind]
  rw [Nat.add_zero] at first
  rw [Complete] at complete
  rw [convertStamps, first, Option.bind_some, convertedBytes, stampLength]
  rw [stampLength] at complete
  by_cases both : body.getD 0 0 &&& 0xf0 = 0x30
  · have other : ¬body.getD 0 0 &&& 0xf0 = 0x20 := by rw [both]; decide
    have dts : withDts body := has_dts_iff.mpr both
    rw [if_pos dts] at complete
    rw [if_neg other, if_pos both, if_pos dts, if_pos dts, copy_stamp behind long,
      Option.bind_some, copy_stamp second (by rw [List.length_drop]; omega)]
    rfl
  · have dts : ¬withDts body := mt has_dts_iff.mp both
    rw [if_neg both, if_neg dts, if_neg dts]
    by_cases one : body.getD 0 0 &&& 0xf0 = 0x20
    · have pts : withPts body := has_pts_iff.mpr (.inl one)
      rw [if_pos one, if_pos pts, if_pos pts, copy_stamp behind long]
      rfl
    · have pts : ¬withPts body := mt has_pts_iff.mp (not_or.mpr ⟨one, both⟩)
      rw [if_neg one, if_neg pts, if_neg pts]

theorem convert_stamps_outside (behind : data1.drop i1 = body) (long : 5 ≤ body.length)
    (broken : ¬Complete body) : convertStamps data1 i1 = none := by
  have first := read_of_drop behind (show 0 < body.length by omega)
  have second : data1.drop (i1 + 5) = body.drop 5 := by rw [← List.drop_drop, behind]
  rw [Nat.add_zero] at first
  rw [Complete, stampLength] at broken
  have dts : withDts body := by
    by_contra alone
    rw [if_neg alone] at broken
    split at broken
    · omega
    · omega
  rw [if_pos dts] at broken
  have both : body.getD 0 0 &&& 0xf0 = 0x30 := has_dts_iff.mp dts
  have other : ¬body.getD 0 0 &&& 0xf0 = 0x20 := by rw [both]; decide
  rw [convertStamps, first, Option.bind_some, if_neg other, if_pos both, copy_stamp behind long,
    Option.bind_some, copy_stamp_outside second (by rw [List.length_drop]; omega)]
  rfl

end Stamps

/-! ## The converted packet -/

section Converted

variable {data1 body : List UInt8} {i1 : Nat} {streamId : UInt8}

theorem dts_has_pts (dts : withDts body) : withPts body :=
  has_pts_iff.mpr (.inr (has_dts_iff.mp dts))

def mpeg2Packet (streamId : UInt8) (body : List UInt8) : Packet :=
  [0x00, 0x00, 0x01, streamId, .ofNat ((newLength body &&& 0xff00) >>> 8),
    .ofNat (newLength body &&& 0xff)] ++ convertedBytes body ++ mpeg1Payload body

theorem converted_bytes_length (body : List UInt8) :
    (convertedBytes body).length =
      3 + (if withDts body then 10 else if withPts body then 5 else 0) := by
  rw [convertedBytes]
  split
  · rfl
  · split
    · rfl
    · rfl

theorem mpeg2_packet_length (streamId : UInt8) (body : List UInt8) :
    (mpeg2Packet streamId body).length = newLength body + 6 := by
  rw [mpeg2Packet, List.length_append, List.length_append, converted_bytes_length, newLength]
  simp only [List.length_cons, List.length_nil]
  omega

theorem pes_length_lt (packet : Packet) : pesLength packet < 2 ^ 16 := by
  have high := (byteAt packet 4).toNat_lt
  have low := (byteAt packet 5).toNat_lt
  rw [pesLength]
  omega

theorem mpeg2_packet_pes_length (streamId : UInt8) (body : List UInt8) :
    pesLength (mpeg2Packet streamId body) + 6 = (mpeg2Packet streamId body).length ↔
      newLength body < 2 ^ 16 := by
  rw [mpeg2_packet_length, Nat.add_right_cancel_iff]
  constructor
  · intro same
    have bound := pes_length_lt (mpeg2Packet streamId body)
    omega
  · exact length_bytes

theorem mpeg2_packet_payload (streamId : UInt8) (body : List UInt8) :
    pesPayload (mpeg2Packet streamId body) = mpeg1Payload body := by
  rw [mpeg2Packet, convertedBytes]
  split
  · rfl
  · split
    · rfl
    · rfl

theorem masked_twice (byte mask : UInt8) : byte &&& mask &&& mask = byte &&& mask := by
  rw [UInt8.and_assoc, UInt8.and_self]

theorem and_ff (byte : UInt8) : byte &&& 0xff = byte := by
  apply UInt8.toNat_inj.mp
  rw [UInt8.toNat_and]
  exact (Nat.and_two_pow_sub_one_eq_mod byte.toNat 8).trans (Nat.mod_eq_of_lt byte.toNat_lt)

theorem timestamp_unmarked (bytes rest : List UInt8) :
    timestampOf (unmarked bytes ++ rest) = timestampOf bytes := by
  change (((bytes.getD 0 0 &&& 0x0e &&& 0x0e).toNat * 536870912 +
    (bytes.getD 1 0 &&& 0xff).toNat * 4194304 +
      (bytes.getD 2 0 &&& 0xfe &&& 0xfe).toNat * 16384 + (bytes.getD 3 0 &&& 0xff).toNat * 128 +
        (bytes.getD 4 0 &&& 0xfe &&& 0xfe).toNat / 2 : Nat) : Int) = _
  rw [masked_twice, masked_twice, masked_twice, and_ff, and_ff]
  rfl

/-- `parse_timestamp` on five bytes that are there. -/
theorem parse_timestamp_run {packet rest : List UInt8} {buf : Nat}
    (behind : packet.drop buf = rest) (long : 5 ≤ rest.length) :
    (parseTimestamp buf).run (Memory.ofList packet) = some (timestampOf rest) := by
  have first := read_of_drop behind (show 0 < rest.length by omega)
  rw [Nat.add_zero] at first
  simp only [parseTimestamp, Scan.run_bind, Scan.run_fetch, Scan.run_pure, Memory.ofList, first,
    read_of_drop behind (show 1 < rest.length by omega),
    read_of_drop behind (show 2 < rest.length by omega),
    read_of_drop behind (show 3 < rest.length by omega),
    read_of_drop behind (show 4 < rest.length by omega), Option.bind_some]
  rfl

theorem timestamp_at_run {packet : Packet} {buf before : Nat} {flag flags marker : UInt8}
    (stream : packet[3]? = some streamId)
    (known : (isVideoPacket streamId || isAudioPacket streamId) = true)
    (marked : packet[6]? = some marker) (mpeg2 : marker &&& 0xc0 = 0x80)
    (clear : marker &&& 0x30 = 0) (flagged : packet[7]? = some flags) (len : Nat) :
    (timestampAt buf before flag len).run (Memory.ofList packet) =
      if before < len ∧ flags &&& flag ≠ 0 then (parseTimestamp buf).run (Memory.ofList packet)
      else some noPts := by
  have known' : isVideoPacket streamId = true ∨ isAudioPacket streamId = true :=
    Bool.or_eq_true_iff.mp known
  simp only [timestampAt, Scan.run_bind, Scan.run_fetch, Scan.run_ite, Memory.ofList, stream,
    marked, Option.bind_some, if_pos known', if_neg (not_not_intro mpeg2),
    if_neg (not_not_intro clear), flagged, Scan.run_pure]
  by_cases long : before < len
  · by_cases set' : flags &&& flag ≠ 0
    · rw [if_pos long, if_pos set', if_pos ⟨long, set'⟩]
    · rw [if_pos long, if_neg set', if_neg fun both => set' both.2]
  · rw [if_neg long, if_neg fun both => long both.1]

def stampFlags (body : List UInt8) : UInt8 :=
  if withDts body then 0xc0 else if withPts body then 0x80 else 0

theorem converted_bytes_flags (body : List UInt8) :
    ∃ rest, convertedBytes body = 0x80 :: stampFlags body :: rest := by
  rw [convertedBytes, stampFlags]
  split
  · exact ⟨_, rfl⟩
  · split
    · exact ⟨_, rfl⟩
    · exact ⟨_, rfl⟩

theorem stamp_flags_pts (body : List UInt8) : stampFlags body &&& 0x80 ≠ 0 ↔ withPts body := by
  rw [stampFlags]
  split
  · next dts => exact iff_of_true (by decide) (dts_has_pts dts)
  · split
    · next pts => exact iff_of_true (by decide) pts
    · next pts => exact iff_of_false (by decide) pts

theorem stamp_flags_dts (body : List UInt8) : stampFlags body &&& 0x40 ≠ 0 ↔ withDts body := by
  rw [stampFlags]
  split
  · next dts => exact iff_of_true (by decide) dts
  · next dts =>
      split
      · exact iff_of_false (by decide) dts
      · exact iff_of_false (by decide) dts

theorem mpeg2_packet_first (streamId : UInt8) (pts : withPts body) :
    ∃ rest, (mpeg2Packet streamId body).drop 9 = unmarked body ++ rest := by
  rw [mpeg2Packet, convertedBytes, if_pos pts]
  split
  · exact ⟨unmarked (body.drop 5) ++ mpeg1Payload body, rfl⟩
  · exact ⟨mpeg1Payload body, rfl⟩

theorem mpeg2_packet_second (streamId : UInt8) (dts : withDts body) :
    ∃ rest, (mpeg2Packet streamId body).drop 14 = unmarked (body.drop 5) ++ rest := by
  rw [mpeg2Packet, convertedBytes, if_pos dts]
  exact ⟨mpeg1Payload body, rfl⟩

theorem mpeg2_packet_timestamp (buf before : Nat) (flag : UInt8)
    (known : (isVideoPacket streamId || isAudioPacket streamId) = true) :
    (timestampAt buf before flag (mpeg2Packet streamId body).length).run
        (Memory.ofList (mpeg2Packet streamId body)) =
      if before < newLength body + 6 ∧ stampFlags body &&& flag ≠ 0 then
        (parseTimestamp buf).run (Memory.ofList (mpeg2Packet streamId body))
      else some noPts := by
  obtain ⟨rest, bytes⟩ := converted_bytes_flags body
  have flags : (mpeg2Packet streamId body)[7]? = some (stampFlags body) := by
    rw [mpeg2Packet, bytes]
    rfl
  have marker : (mpeg2Packet streamId body)[6]? = some 0x80 := by
    rw [mpeg2Packet, bytes]
    rfl
  rw [timestamp_at_run rfl known marker (by decide) (by decide) flags, mpeg2_packet_length]

theorem unmarked_long (bytes rest : List UInt8) : 5 ≤ (unmarked bytes ++ rest).length := by
  rw [List.length_append]
  exact Nat.le_add_right 5 rest.length

theorem mpeg2_packet_pts (known : (isVideoPacket streamId || isAudioPacket streamId) = true) :
    (pesGetPts (mpeg2Packet streamId body).length).run (Memory.ofList (mpeg2Packet streamId body)) =
      some (mpeg1Pts body) := by
  rw [pesGetPts, mpeg2_packet_timestamp 9 13 0x80 known, mpeg1Pts]
  by_cases pts : withPts body
  · obtain ⟨rest, behind⟩ := mpeg2_packet_first streamId pts
    have long : 13 < newLength body + 6 := by
      rw [newLength, if_pos pts]
      split <;> omega
    rw [if_pos ⟨long, (stamp_flags_pts body).mpr pts⟩,
      parse_timestamp_run behind (unmarked_long body rest), timestamp_unmarked, if_pos pts]
  · rw [if_neg fun both => pts ((stamp_flags_pts body).mp both.2), if_neg pts]

theorem mpeg2_packet_dts (known : (isVideoPacket streamId || isAudioPacket streamId) = true) :
    (pesGetDts (mpeg2Packet streamId body).length).run (Memory.ofList (mpeg2Packet streamId body)) =
      some (mpeg1Dts body) := by
  rw [pesGetDts, mpeg2_packet_timestamp 14 18 0x40 known, mpeg1Dts]
  by_cases dts : withDts body
  · obtain ⟨rest, behind⟩ := mpeg2_packet_second streamId dts
    have long : 18 < newLength body + 6 := by
      rw [newLength, if_pos dts]
      omega
    rw [if_pos ⟨long, (stamp_flags_dts body).mpr dts⟩,
      parse_timestamp_run behind (unmarked_long _ rest), timestamp_unmarked, if_pos dts]
  · rw [if_neg fun both => dts ((stamp_flags_dts body).mp both.2), if_neg dts]

theorem mpeg2_packet_carries (known : (isVideoPacket streamId || isAudioPacket streamId) = true)
    (fits : newLength body < 2 ^ 16) : CarriesBody body (mpeg2Packet streamId body) :=
  ⟨(mpeg2_packet_pes_length streamId body).mpr fits, mpeg2_packet_payload streamId body,
    mpeg2_packet_pts known, mpeg2_packet_dts known⟩

end Converted

/-! ## The call -/

section Call

variable {data1 body : Packet} {play : Packet → Int}

/-- What a packet that passes the test has become, where its header is complete and five bytes
long at least. -/
theorem converted_packet {i1 : Nat} {streamId high low : UInt8} {rest : List UInt8}
    (packet : data1 = 0 :: 0 :: 1 :: streamId :: high :: low :: rest)
    (length : pesLength data1 + 6 = data1.length) (behind : data1.drop i1 = body)
    (long : 5 ≤ body.length) (complete : Complete body) :
    convertedPacket data1 (convertedBytes body) (i1 + stampLength body) =
      (mpeg2Packet streamId body, newLength body) := by
  have size := congrArg List.length behind
  rw [List.length_drop] at size
  rw [Complete] at complete
  have newlen : pesLength data1 + (6 + (convertedBytes body).length) - (i1 + stampLength body) =
      newLength body := by
    rw [converted_bytes_length, newLength, mpeg1Payload, List.length_drop]
    omega
  have front : data1.take 4 = [0x00, 0x00, 0x01, streamId] := by rw [packet]; rfl
  have payload : data1.drop (i1 + stampLength body) = mpeg1Payload body := by
    rw [← List.drop_drop, behind]
    rfl
  rw [convertedPacket, newlen, front, payload]
  rfl

theorem play_entered (passes : entryTest data1 = some true) {i1 : Nat}
    (skipped : skipFields data1 = some i1) :
    playMpeg1Pes play data1 =
      if data1.length < i1 + 5 then some (none, data1.length)
      else (convertStamps data1 i1).bind fun converted =>
        let played := convertedPacket data1 converted.1 converted.2
        if data1.length - converted.2 > 0 then
          if played.1.length ≤ data1.length + 64 then
            some (some (played.1.take (played.2 + 6)),
              if play (played.1.take (played.2 + 6)) = played.2 + 6 then pesLength data1 + 6
              else 0)
          else none
        else some (none, 0) := by
  rw [playMpeg1Pes, passes, Option.bind_some, if_neg (by decide), skipped, Option.bind_some]

theorem play_outside (refused : entryTest data1 = none) : playMpeg1Pes play data1 = none := by
  rw [playMpeg1Pes, refused]
  rfl

theorem play_refused (refused : entryTest data1 = some false) :
    playMpeg1Pes play data1 = some (none, data1.length) := by
  rw [playMpeg1Pes, refused]
  rfl

theorem play_endless (passes : entryTest data1 = some true) (missing : mpeg1Body data1 = none) :
    playMpeg1Pes play data1 = none := by
  rw [playMpeg1Pes, passes, Option.bind_some, if_neg (by decide), skip_fields_none missing]
  rfl

theorem play_short (passes : entryTest data1 = some true) (found : mpeg1Body data1 = some body)
    (short : body.length < 5) : playMpeg1Pes play data1 = some (none, data1.length) := by
  obtain ⟨i1, skipped, behind⟩ := skip_fields_some found
  have size := congrArg List.length behind
  rw [List.length_drop] at size
  rw [play_entered passes skipped, if_pos (by omega)]

theorem play_broken (passes : entryTest data1 = some true) (found : mpeg1Body data1 = some body)
    (long : 5 ≤ body.length) (broken : ¬Complete body) : playMpeg1Pes play data1 = none := by
  obtain ⟨i1, skipped, behind⟩ := skip_fields_some found
  have size := congrArg List.length behind
  rw [List.length_drop] at size
  rw [play_entered passes skipped, if_neg (by omega), convert_stamps_outside behind long broken]
  rfl

theorem play_complete (passes : entryTest data1 = some true)
    (found : mpeg1Body data1 = some body) (long : 5 ≤ body.length) (complete : Complete body) :
    ∃ streamId, (isVideoPacket streamId || isAudioPacket streamId) = true ∧
      playMpeg1Pes play data1 =
        if mpeg1Payload body ≠ [] then some (some (mpeg2Packet streamId body),
          if play (mpeg2Packet streamId body) = newLength body + 6 then data1.length else 0)
        else some (none, 0) := by
  obtain ⟨streamId, high, low, rest, packet, known, _, length⟩ := entry_test_true passes
  obtain ⟨i1, skipped, behind⟩ := skip_fields_some found
  have size := congrArg List.length behind
  rw [List.length_drop] at size
  refine ⟨streamId, known, ?_⟩
  rw [play_entered passes skipped, if_neg (by omega), convert_stamps behind long complete,
    Option.bind_some]
  dsimp only
  rw [converted_packet packet length behind long complete]
  have whole := mpeg2_packet_length streamId body
  have remains : (mpeg1Payload body).length = data1.length - (i1 + stampLength body) := by
    rw [mpeg1Payload, List.length_drop]
    omega
  by_cases empty : mpeg1Payload body = []
  · rw [empty, List.length_nil] at remains
    rw [if_neg (by omega), if_neg (not_not_intro empty)]
  · have some' := List.length_pos_iff.mpr empty
    have room : (mpeg2Packet streamId body).length ≤ data1.length + 64 := by
      rw [whole, newLength]
      split <;> [skip; split] <;> omega
    rw [if_pos (by omega), if_pos room, if_pos empty, List.take_of_length_le (Nat.le_of_eq whole),
      length]

end Call

/-- A packet is converted exactly where the test and the stuffing end inside of it, the bytes
behind the stuffing are five at least if they are a complete header and only then, and the new
length has two bytes. -/
theorem converts_iff (play : Packet → Int) (data1 : Packet) :
    Converts play data1 ↔
      (data1.length < 3 → ∃ byte ∈ data1, byte ≠ 0) ∧
      (entryTest data1 = some true → ∃ body, mpeg1Body data1 = some body ∧
        (5 ≤ body.length ↔ Complete body) ∧ (5 ≤ body.length → newLength body < 2 ^ 16)) := by
  rw [← entry_test_reads_inside]
  constructor
  · rintro ⟨played, result, ran, converted⟩
    constructor
    · by_contra outside
      rw [play_outside (Option.not_isSome_iff_eq_none.mp outside)] at ran
      cases ran
    · intro passes
      obtain ⟨_, _, _, rest, packet, _, _, length⟩ := entry_test_true passes
      cases found : mpeg1Body data1 with
      | none =>
          rw [play_endless passes found] at ran
          cases ran
      | some body =>
          refine ⟨body, rfl, ⟨?_, ?_⟩, ?_⟩
          · intro long
            by_contra broken
            rw [play_broken passes found long broken] at ran
            cases ran
          · intro complete
            by_contra short
            rw [play_short passes found (Nat.not_le.mp short)] at ran
            obtain ⟨rfl, rfl⟩ := Prod.mk.inj (Option.some.inj ran)
            have nothing := (converted body passes found complete).2.2 (by simp)
            omega
          · intro long
            by_cases complete : Complete body
            · obtain ⟨streamId, _, plays⟩ := @play_complete _ _ play passes found long complete
              rw [plays] at ran
              by_cases empty : mpeg1Payload body = []
              · rw [newLength, empty, List.length_nil]
                split <;> [skip; split] <;> decide
              · rw [if_pos empty] at ran
                obtain ⟨rfl, _⟩ := Prod.mk.inj (Option.some.inj ran)
                have carried := (converted body passes found complete).1 _ rfl
                exact (mpeg2_packet_pes_length streamId body).mp carried.length
            · rw [play_broken passes found long complete] at ran
              cases ran
  · rintro ⟨ends, fits⟩
    obtain ⟨passes, tested⟩ := Option.isSome_iff_exists.mp ends
    cases passes with
    | false =>
        refine ⟨none, data1.length, play_refused tested, ?_⟩
        intro body entered
        rw [tested] at entered
        cases entered
    | true =>
        obtain ⟨body, found, five, fit⟩ := fits tested
        by_cases long : 5 ≤ body.length
        · obtain ⟨streamId, known, plays⟩ :=
            @play_complete _ _ play tested found long (five.mp long)
          by_cases empty : mpeg1Payload body = []
          · rw [if_neg (not_not_intro empty)] at plays
            refine ⟨none, 0, plays, ?_⟩
            intro other _ _ _
            exact ⟨by simp, by simp, fun _ => rfl⟩
          · rw [if_pos empty] at plays
            refine ⟨_, _, plays, ?_⟩
            intro other _ same _
            obtain rfl : body = other := Option.some.inj (found.symm.trans same)
            have whole := mpeg2_packet_length streamId body
            refine ⟨?_, ?_, ?_⟩
            · rintro packet ⟨⟩
              exact mpeg2_packet_carries known (fit long)
            · rintro ⟨packet, ⟨⟩, accepted⟩
              rw [whole] at accepted
              exact if_pos (by exact_mod_cast accepted)
            · intro refused
              apply if_neg
              intro accepted
              exact refused ⟨_, rfl, by rw [accepted, whole]; rfl⟩
        · refine ⟨none, data1.length, play_short tested found (Nat.not_le.mp long), ?_⟩
          intro other _ same complete
          obtain rfl : body = other := Option.some.inj (found.symm.trans same)
          exact absurd (five.mpr complete) long

/-- A video packet that ends with its stuffing is read beyond its end. -/
theorem stuffing_only : ¬Converts (fun _ => 0) [0, 0, 1, 0xe0, 0, 2, 0xff, 0xff] := by
  rintro ⟨played, result, ran, _⟩
  have outside : playMpeg1Pes (fun _ => 0) [0, 0, 1, 0xe0, 0, 2, 0xff, 0xff] = none := by decide
  rw [outside] at ran
  cases ran

end Xineliboutput.Frontend
