import Xineliboutput.Client.PesDemux
import Xineliboutput.Elementary.ScannerBounds

/-!
# Payloads inside their packets

When `demux_xvdr_parse_pes` stays inside the packet. The size of a payload comes from the
length in the packet, not from the number of bytes received: the payload is inside where the
header ends before the end by that length, and this is not behind the last byte.
-/

namespace Xineliboutput.Client

open Xineliboutput.Frontend
open Xineliboutput.Ts (VideoSize isVideoPacket isMpegAudioPacket privateStream1 byteAt pesLength)
open Xineliboutput.Elementary (Architecture isStartCode nalAud pesGetPictureType
  pesGetVideoSize noPicture Comparable PesVideoSizeFits)

set_option autoImplicit false

/-! ## What is wanted -/

def BufferEvent.isUse : BufferEvent → Bool
  | .free | .putVideo _ | .putAudio _ => true
  | .putControl _ => false

def PassedBuffer.Inside (packet : Packet) (buf : PassedBuffer) : Prop :=
  0 ≤ buf.size ∧ buf.content + buf.size ≤ packet.length

def BufferEvent.Inside (packet : Packet) : BufferEvent → Prop
  | .putVideo buf | .putAudio buf => buf.Inside packet
  | .free | .putControl _ => True

/-- Nothing outside is read, the buffer is freed or passed on once, and what is passed on is
inside the packet. -/
def Contained (packet : Packet) (outcome : Option PesOutcome) : Prop :=
  ∃ result, outcome = some result ∧ result.events.countP BufferEvent.isUse = 1 ∧
    ∀ event ∈ result.events, event.Inside packet

/-! ## When it is so -/

def Scrambled (packet : Packet) : Prop :=
  byteAt packet 6 &&& 0xc0 = 0x80 ∧ byteAt packet 6 &&& 0x30 ≠ 0

def mpeg2Header (packet : Packet) : ParsedPes where
  headerLen := (byteAt packet 8).toNat + 9
  packetLen := pesLength packet - ((byteAt packet 8).toNat + 3)
  pts := if byteAt packet 7 &&& 0x80 ≠ 0 then timestampOf (packet.drop 9) else 0
  dts := if byteAt packet 7 &&& 0x40 ≠ 0 then timestampOf (packet.drop 14) else 0

def mpeg1Header (packet body : Packet) : ParsedPes where
  headerLen := packet.length - body.length + stampLength body
  packetLen := pesLength packet - ((packet.length - body.length : Nat) - 6) - stampLength body
  pts := orZero (mpeg1Pts body)
  dts := orZero (mpeg1Dts body)

/-- The header of the packet, which ends inside with the timestamps announced. -/
inductive HasHeader (packet : Packet) : ParsedPes → Prop where
  | mpeg2 (marker : byteAt packet 6 &&& 0xc0 = 0x80) (clear : byteAt packet 6 &&& 0x30 = 0)
      (pts : byteAt packet 7 &&& 0x80 ≠ 0 → 14 ≤ packet.length)
      (dts : byteAt packet 7 &&& 0x40 ≠ 0 → 19 ≤ packet.length) :
      HasHeader packet (mpeg2Header packet)
  | mpeg1 (marker : byteAt packet 6 &&& 0xc0 ≠ 0x80) (body : Packet)
      (found : mpeg1Body packet = some body) (complete : Complete body) :
      HasHeader packet (mpeg1Header packet body)

def Room (packet : Packet) (start : Nat) : Prop :=
  start ≤ pesLength packet + 6 ∧ pesLength packet + 6 ≤ packet.length

def AudioFits (this : PesDemuxer) (packet : Packet) (start : Nat) : Prop :=
  this.audioFifo = true → Room packet start

def SubstreamFits (this : PesDemuxer) (packet : Packet) (parsed : ParsedPes) : Prop :=
  ∃ first, packet[parsed.headerLen]? = some first ∧
    if first &&& 0xe0 = 0x20 then
      (parsed.pts ≤ 0 ∧ this.subtitleType = false) ∨ Room packet (parsed.headerLen + 1)
    else if first &&& 0xf0 = 0x80 then
      parsed.headerLen + 4 ≤ packet.length ∧ AudioFits this packet (parsed.headerLen + 4)
    else if first &&& 0xf0 = 0xa0 then
      parsed.headerLen + 6 ≤ packet.length ∧ AudioFits this packet (parsed.headerLen + 7)
    else True

/-- The packet is scrambled, or it has a header and what follows that fits. -/
def HeaderFits (packet : Packet) (Next : ParsedPes → Prop) : Prop :=
  Scrambled packet ∨ ∃ parsed, HasHeader packet parsed ∧ Next parsed

section Header

variable {packet body : Packet} {parsed : ParsedPes} {p : Nat} {stamp : Int}

theorem read_stamp_some_iff :
    readStamp packet p = some stamp ↔ p + 5 ≤ packet.length ∧
      (timestampOf (packet.drop p) : Int) = stamp := by
  by_cases long : p + 5 ≤ packet.length
  · have five : 5 ≤ (packet.drop p).length := by
      rw [List.length_drop]
      omega
    rw [read_stamp rfl five, Option.some_inj]
    exact (and_iff_right long).symm
  · have outside : packet[p + 4]? = none := List.getElem?_eq_none (by omega)
    refine iff_of_false ?_ fun both => long both.1
    rw [readStamp, outside]
    simp

theorem flagged_stamp_iff (flag : Prop) [Decidable flag] :
    (if flag then readStamp packet p else some 0) = some stamp ↔
      (flag → p + 5 ≤ packet.length) ∧
        (if flag then (timestampOf (packet.drop p) : Int) else 0) = stamp := by
  by_cases flagged : flag
  · rw [if_pos flagged, if_pos flagged, read_stamp_some_iff]
    simp [flagged]
  · rw [if_neg flagged, if_neg flagged, Option.some_inj]
    simp [flagged]

theorem parse_mpeg2_iff (long : 9 ≤ packet.length) :
    parseMpeg2 packet (pesLength packet) = some parsed ↔
      (byteAt packet 7 &&& 0x80 ≠ 0 → 14 ≤ packet.length) ∧
      (byteAt packet 7 &&& 0x40 ≠ 0 → 19 ≤ packet.length) ∧ mpeg2Header packet = parsed := by
  rw [parseMpeg2, byte_at (show 7 < packet.length by omega), Option.bind_some,
    Option.bind_eq_some_iff]
  simp only [Option.bind_eq_some_iff, byte_at (show 8 < packet.length by omega), Option.map_some,
    Option.some_inj, flagged_stamp_iff]
  constructor
  · rintro ⟨pts, ⟨first, rfl⟩, dts, ⟨second, rfl⟩, rfl⟩
    exact ⟨first, second, rfl⟩
  · rintro ⟨first, second, rfl⟩
    exact ⟨_, ⟨first, rfl⟩, _, ⟨second, rfl⟩, rfl⟩

theorem parse_mpeg1_complete {packetLen : Int} (found : mpeg1Body packet = some body)
    (parses : parseMpeg1 packet packetLen = some parsed) : Complete body := by
  obtain ⟨i1, skipped, behind⟩ := skip_fields_some found
  have size := congrArg List.length behind
  rw [List.length_drop] at size
  rw [parseMpeg1, skipped, Option.bind_some, Option.bind_eq_some_iff] at parses
  obtain ⟨first, read, parses⟩ := parses
  obtain ⟨inside, _⟩ := List.getElem?_eq_some_iff.mp read
  have here : body.getD 0 0 = first := by
    rw [← behind, List.getD_eq_getElem?_getD, List.getElem?_drop, Nat.add_zero, read]
    rfl
  rw [Complete, stampLength]
  by_cases dts : withDts body = true
  · have both := has_dts_iff.mp dts
    rw [here] at both
    rw [if_neg (by rw [both]; decide), if_pos both] at parses
    obtain ⟨pts, _, parses⟩ := Option.bind_eq_some_iff.mp parses
    obtain ⟨stamp, second, _⟩ := Option.map_eq_some_iff.mp parses
    have long := (read_stamp_some_iff.mp second).1
    rw [if_pos dts]
    omega
  · rw [if_neg dts]
    by_cases pts : withPts body = true
    · have one := (has_pts_iff.mp pts).resolve_right fun both => dts (has_dts_iff.mpr both)
      rw [here] at one
      rw [if_pos one] at parses
      obtain ⟨stamp, only, _⟩ := Option.map_eq_some_iff.mp parses
      have long := (read_stamp_some_iff.mp only).1
      rw [if_pos pts]
      omega
    · rw [if_neg pts]
      omega

theorem parse_mpeg1_iff :
    parseMpeg1 packet (pesLength packet) = some parsed ↔
      ∃ body, mpeg1Body packet = some body ∧ Complete body ∧ mpeg1Header packet body = parsed := by
  cases found : mpeg1Body packet with
  | none =>
      rw [parseMpeg1, skip_fields_none found]
      simp
  | some body =>
      simp only [Option.some.injEq, exists_eq_left']
      by_cases complete : Complete body
      · obtain ⟨i1, behind, parses⟩ := parse_mpeg1 found complete (pesLength packet)
        have some' := (body_pos complete).1
        have place : packet.length - body.length = i1 := by
          have size := congrArg List.length behind
          rw [List.length_drop] at size
          omega
        rw [parses, Option.some_inj, mpeg1Header, place]
        exact (and_iff_right complete).symm
      · refine iff_of_false ?_ fun both => complete both.1
        intro parses
        exact complete (parse_mpeg1_complete found parses)

theorem parse_pes_for_pts_iff (long : 9 ≤ packet.length) (answer : Option ParsedPes) :
    parsePesForPts packet = some answer ↔
      (answer = none ∧ Scrambled packet) ∨ ∃ parsed, answer = some parsed ∧
        HasHeader packet parsed := by
  rw [parsePesForPts, byte_at (show 4 < packet.length by omega), Option.bind_some,
    byte_at (show 5 < packet.length by omega), Option.bind_some,
    byte_at (show 6 < packet.length by omega), Option.bind_some]
  change (if byteAt packet 6 &&& 0xc0 ≠ 0x80 then
    (parseMpeg1 packet (pesLength packet)).map some
    else if byteAt packet 6 &&& 0x30 ≠ 0 then some none
    else (parseMpeg2 packet (pesLength packet)).map some) = some answer ↔ _
  by_cases marker : byteAt packet 6 &&& 0xc0 = 0x80
  · rw [if_neg (not_not_intro marker)]
    by_cases clear : byteAt packet 6 &&& 0x30 = 0
    · rw [if_neg (not_not_intro clear), Option.map_eq_some_iff]
      constructor
      · rintro ⟨parsed, parses, rfl⟩
        obtain ⟨pts, dts, rfl⟩ := (parse_mpeg2_iff long).mp parses
        exact .inr ⟨_, rfl, .mpeg2 marker clear pts dts⟩
      · rintro (⟨_, scrambled⟩ | ⟨parsed, rfl, header⟩)
        · exact absurd clear scrambled.2
        · refine ⟨parsed, (parse_mpeg2_iff long).mpr ?_, rfl⟩
          cases header with
          | mpeg2 _ _ pts dts => exact ⟨pts, dts, rfl⟩
          | mpeg1 other => exact absurd marker other
    · rw [if_pos clear, Option.some_inj]
      constructor
      · rintro rfl
        exact .inl ⟨rfl, marker, clear⟩
      · rintro (⟨rfl, _⟩ | ⟨parsed, rfl, header⟩)
        · rfl
        · cases header with
          | mpeg2 _ clear' => exact absurd clear' clear
          | mpeg1 other => exact absurd marker other
  · rw [if_pos marker, Option.map_eq_some_iff]
    constructor
    · rintro ⟨parsed, parses, rfl⟩
      obtain ⟨body, found, complete, rfl⟩ := parse_mpeg1_iff.mp parses
      exact .inr ⟨_, rfl, .mpeg1 marker body found complete⟩
    · rintro (⟨_, scrambled⟩ | ⟨parsed, rfl, header⟩)
      · exact absurd scrambled.1 marker
      · refine ⟨parsed, parse_mpeg1_iff.mpr ?_, rfl⟩
        cases header with
        | mpeg2 other => exact absurd other marker
        | mpeg1 _ body found complete => exact ⟨body, found, complete, rfl⟩

theorem HasHeader.lengths (header : HasHeader packet parsed) :
    parsed.headerLen + parsed.packetLen = pesLength packet + 6 := by
  cases header with
  | mpeg2 =>
      dsimp only [mpeg2Header]
      omega
  | mpeg1 _ body found complete =>
      dsimp only [mpeg1Header]
      omega

end Header

/-! ## What is passed on -/

section Payload

variable {this : PesDemuxer} {packet : Packet} {parsed : ParsedPes}

theorem contained_some (outcome : PesOutcome) :
    Contained packet (some outcome) ↔ outcome.events.countP BufferEvent.isUse = 1 ∧
      ∀ event ∈ outcome.events, event.Inside packet := by
  simp only [Contained, Option.some.injEq, exists_eq_left']

theorem not_contained_none : ¬Contained packet none := by
  rintro ⟨result, outside, _⟩
  cases outside

theorem contained_single {event : BufferEvent} (use : event.isUse = true) (result : Int) :
    Contained packet (some ⟨this, [event], result⟩) ↔ event.Inside packet := by
  rw [contained_some, List.countP_singleton, if_pos use]
  simp

theorem contained_free (result : Int) : Contained packet (some ⟨this, [.free], result⟩) :=
  (contained_single rfl result).mpr trivial

theorem payload_inside_iff (header : HasHeader packet parsed) (skipped : Nat) {buf : PassedBuffer}
    (content : buf.content = parsed.headerLen + skipped)
    (size : buf.size = parsed.packetLen - skipped) :
    buf.Inside packet ↔ Room packet (parsed.headerLen + skipped) := by
  have lengths := header.lengths
  rw [PassedBuffer.Inside, Room, content, size]
  omega

theorem pass_audio_contained (header : HasHeader packet parsed) (skipped : Nat)
    {buf : PassedBuffer} (content : buf.content = parsed.headerLen + skipped)
    (size : buf.size = parsed.packetLen - skipped) :
    Contained packet (some (passAudio this buf)) ↔
      AudioFits this packet (parsed.headerLen + skipped) := by
  rw [passAudio, AudioFits]
  by_cases audio : this.audioFifo = true
  · rw [if_pos audio, contained_single rfl]
    simp only [audio, forall_const]
    exact payload_inside_iff header skipped content size
  · rw [if_neg audio]
    exact iff_of_true (contained_free _) fun fifo => absurd fifo audio

/-! ## Private stream 1 -/

theorem pass_spu_contained (header : HasHeader packet parsed) (first : UInt8) :
    Contained packet (some (passSpu this first parsed)) ↔
      (parsed.pts ≤ 0 ∧ this.subtitleType = false) ∨ Room packet (parsed.headerLen + 1) := by
  rw [passSpu]
  by_cases dropped : parsed.pts ≤ 0 ∧ this.subtitleType = false
  · rw [if_pos (by simpa using dropped)]
    exact iff_of_true (contained_free _) (.inl dropped)
  · rw [if_neg (by simpa using dropped), contained_single rfl]
    simp only [dropped, false_or]
    exact payload_inside_iff header 1 rfl rfl

theorem pass_a52_contained (header : HasHeader packet parsed) (first : UInt8) :
    Contained packet (passA52 this packet first parsed) ↔
      parsed.headerLen + 4 ≤ packet.length ∧ AudioFits this packet (parsed.headerLen + 4) := by
  by_cases inside : parsed.headerLen + 4 ≤ packet.length
  · rw [passA52]
    dsimp only
    rw [byte_at (show parsed.headerLen + 1 < packet.length by omega), Option.bind_some,
      byte_at (show parsed.headerLen + 2 < packet.length by omega), Option.bind_some,
      byte_at (show parsed.headerLen + 3 < packet.length by omega), Option.map_some,
      pass_audio_contained header 4 rfl rfl]
    exact (and_iff_right inside).symm
  · refine iff_of_false ?_ fun both => inside both.1
    rintro ⟨result, outcome, _⟩
    obtain ⟨number, _, outcome⟩ := Option.bind_eq_some_iff.mp outcome
    obtain ⟨high, _, outcome⟩ := Option.bind_eq_some_iff.mp outcome
    obtain ⟨low, read, _⟩ := Option.map_eq_some_iff.mp outcome
    obtain ⟨last, _⟩ := List.getElem?_eq_some_iff.mp read
    omega

theorem pass_lpcm_contained (header : HasHeader packet parsed) (first : UInt8) :
    Contained packet (passLpcm this packet first parsed) ↔
      parsed.headerLen + 6 ≤ packet.length ∧ AudioFits this packet (parsed.headerLen + 7) := by
  by_cases inside : parsed.headerLen + 6 ≤ packet.length
  · rw [passLpcm, byte_at (show parsed.headerLen + 5 < packet.length by omega), Option.map_some,
      pass_audio_contained header 7 rfl rfl]
    exact (and_iff_right inside).symm
  · refine iff_of_false ?_ fun both => inside both.1
    rintro ⟨result, outcome, _⟩
    obtain ⟨config, read, _⟩ := Option.map_eq_some_iff.mp outcome
    obtain ⟨last, _⟩ := List.getElem?_eq_some_iff.mp read
    omega

theorem pass_substream_contained (header : HasHeader packet parsed) :
    Contained packet (passSubstream this packet parsed) ↔ SubstreamFits this packet parsed := by
  rw [passSubstream, SubstreamFits]
  cases read : packet[parsed.headerLen]? with
  | none => simp [not_contained_none]
  | some first =>
      simp only [Option.bind_some, Option.some.injEq, exists_eq_left']
      split
      · exact pass_spu_contained header first
      split
      · exact pass_a52_contained header first
      split
      · exact pass_lpcm_contained header first
      · exact iff_of_true (contained_free _) trivial

end Payload

/-! ## Video -/

section Video

variable {arch : Architecture} {pools : ControlPools} {this : PesDemuxer} {packet : Packet}
  {parsed : ParsedPes}

end Video

/-! ## All packets -/

section Results

variable {arch : Architecture} {pools : ControlPools} {this : PesDemuxer} {packet : Packet}
  {outcome : PesOutcome}

end Results

section Packets

variable (arch : Architecture) (pools : ControlPools) (this : PesDemuxer) {packet : Packet}

end Packets

/-- A demuxer in its first state, for decoders other than those of FFmpeg and CoreAVC. -/
def openedDemuxer : PesDemuxer where
  streamId := 0
  tsData := false
  videoType := none
  subtitleType := false
  bihPosted := false
  ffmpegMpeg2Decoder := false
  coreavcH264Decoder := false
  audioFifo := true

end Xineliboutput.Client
