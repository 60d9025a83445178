import Xineliboutput.Client.PesDemuxBounds

/-!
# Subtitles in private stream 1

`detect_dvb_spu` and `parse_dvb_spu` of `demux_xvdr.c`, and `parse_private_stream_1` with them.
The kind of a subtitle is found in its first packet, the one with a time stamp.
-/

namespace Xineliboutput.Client

open Xineliboutput.Frontend (Packet stampLength)
open Xineliboutput.Ts (byteAt pesLength)

set_option autoImplicit false

/-- `subtitle_type` -/
inductive SubtitleType where
  /-- 0 -/
  | unknown
  /-- `BUF_SPU_DVD` -/
  | dvd
  /-- `BUF_SPU_DVB` -/
  | dvb
  deriving DecidableEq

structure PassedSubtitle where
  type : SubtitleType
  spuId : UInt8
  content : Nat
  size : Int
  pts : Int
  /-- `comp_page_id` of the buffer that is put before. -/
  page : Option Nat
  deriving DecidableEq

inductive PrivateUse where
  | freed
  | subtitle (buf : PassedSubtitle)
  /-- Neither freed nor put. -/
  | lost
  /-- No subtitle. -/
  | other (outcome : PesOutcome)

/-- `parse_dvb_spu` -/
def parseDvbSpu (packet : Packet) (parsed : ParsedPes) (first : UInt8)
    (substreamHeaderLen : Nat) : Option PassedSubtitle :=
  let start := if substreamHeaderLen = 1 then parsed.headerLen - 1 else parsed.headerLen
  let packetLen := if substreamHeaderLen = 1 then parsed.packetLen + 1 else parsed.packetLen
  let content := start + substreamHeaderLen
  let size := packetLen - substreamHeaderLen
  if 0 < parsed.pts then
    (packet[content + 4]?).bind fun high => (packet[content + 5]?).map fun low =>
      ⟨.dvb, first &&& 0x1f, content, size, parsed.pts, some (high.toNat * 256 + low.toNat)⟩
  else some ⟨.dvb, first &&& 0x1f, content, size, parsed.pts, none⟩

/-- "Compatibility mode for old subtitles plugin"; a header has at least seven bytes. -/
def oldSubtitles (packet : Packet) (p : Nat) : Option Bool :=
  (packet[7]?).bind fun flags =>
    if flags &&& 0x01 = 0 then some false
    else (packet[p - 3]?).bind fun mark =>
      if mark &&& 0x81 = 0x01 then (packet[p - 2]?).map fun next => next = 0x81
      else some false

/-- "Guess substream type"; where it is not DVB the other bytes only change the log. -/
def guessType (packet : Packet) (p : Nat) : Option SubtitleType :=
  (packet[p + 4]?).bind fun fourth =>
    if fourth = 0x20 then
      (packet[p + 5]?).bind fun fifth =>
        if fifth = 0 then (packet[p + 6]?).map fun sixth => if sixth = 0x0f then .dvb else .dvd
        else some .dvd
    else some .dvd

/-- `detect_dvb_spu`, and what follows it for DVD subtitles. -/
def detectDvbSpu (subtitle : SubtitleType) (packet : Packet) (parsed : ParsedPes) (first : UInt8) :
    Option (SubtitleType × PrivateUse) :=
  let subtitle := if 0 < parsed.pts then .unknown else subtitle
  (if subtitle = .dvd then some false else oldSubtitles packet parsed.headerLen).bind fun old =>
    if old then (parseDvbSpu packet parsed first 1).map fun buf => (subtitle, .subtitle buf)
    else
      (if 0 < parsed.pts then guessType packet parsed.headerLen else some subtitle).bind
        fun subtitle =>
          if subtitle = .dvd then
            if parsed.packetLen < 0 then some (.dvd, .lost)
            else some (.dvd, .subtitle ⟨.dvd, first &&& 0x1f, parsed.headerLen + 1,
              parsed.packetLen - 1, parsed.pts, none⟩)
          else (parseDvbSpu packet parsed first 4).map fun buf => (subtitle, .subtitle buf)

def passPrivate (this : PesDemuxer) (subtitle : SubtitleType) (packet : Packet)
    (parsed : ParsedPes) : Option (SubtitleType × PrivateUse) :=
  (packet[parsed.headerLen]?).bind fun first =>
    if first &&& 0xe0 = 0x20 then
      if parsed.pts ≤ 0 ∧ subtitle = .unknown then some (subtitle, .freed)
      else detectDvbSpu subtitle packet parsed first
    else (passSubstream this packet parsed).map fun outcome => (subtitle, .other outcome)

/-- `parse_private_stream_1` -/
def privateStream (this : PesDemuxer) (subtitle : SubtitleType) (packet : Packet) :
    Option (SubtitleType × PrivateUse) :=
  (parsePesForPts packet).bind fun header =>
    match header with
    | none => some (subtitle, .freed)
    | some parsed => passPrivate this subtitle packet parsed

/-! ## When a packet is contained -/

def PrivateUse.Inside (packet : Packet) : PrivateUse → Prop
  | .freed => True
  | .subtitle buf => 0 ≤ buf.size ∧ buf.content + buf.size ≤ packet.length
  | .lost => False
  | .other outcome => Contained packet (some outcome)

/-- As `Contained`, for what becomes of a packet of private stream 1. -/
def PrivateContained (packet : Packet) (result : Option (SubtitleType × PrivateUse)) : Prop :=
  ∃ state use, result = some (state, use) ∧ use.Inside packet

def IsOld (packet : Packet) (p : Nat) : Prop :=
  byteAt packet 7 &&& 0x01 ≠ 0 ∧ byteAt packet (p - 3) &&& 0x81 = 0x01 ∧
    byteAt packet (p - 2) = 0x81

/-- What is read to find the kind of a subtitle. -/
def GuessFits (packet : Packet) (p : Nat) : Prop :=
  p + 5 ≤ packet.length ∧ (byteAt packet (p + 4) = 0x20 → p + 6 ≤ packet.length ∧
    (byteAt packet (p + 5) = 0 → p + 7 ≤ packet.length))

def StartsDvb (packet : Packet) (p : Nat) : Prop :=
  byteAt packet (p + 4) = 0x20 ∧ byteAt packet (p + 5) = 0 ∧ byteAt packet (p + 6) = 0x0f

instance (packet : Packet) (p : Nat) : Decidable (IsOld packet p) :=
  inferInstanceAs (Decidable (_ ∧ _))

instance (packet : Packet) (p : Nat) : Decidable (StartsDvb packet p) :=
  inferInstanceAs (Decidable (_ ∧ _))

instance (packet : Packet) (p : Nat) : Decidable (GuessFits packet p) :=
  inferInstanceAs (Decidable (_ ∧ _))

/-- A first packet has bytes to find its kind and its page; others go the way of the first. -/
def SubtitleFits (subtitle : SubtitleType) (packet : Packet) (parsed : ParsedPes) : Prop :=
  let p := parsed.headerLen
  if 0 < parsed.pts then
    if IsOld packet p then Room packet p ∧ p + 6 ≤ packet.length
    else GuessFits packet p ∧
      if StartsDvb packet p then Room packet (p + 4) ∧ p + 10 ≤ packet.length
      else Room packet (p + 1)
  else
    match subtitle with
    | .unknown => True
    | .dvd => Room packet (p + 1)
    | .dvb => if IsOld packet p then Room packet p else Room packet (p + 4)

def PrivateFits (this : PesDemuxer) (subtitle : SubtitleType) (packet : Packet)
    (parsed : ParsedPes) : Prop :=
  ∃ first, packet[parsed.headerLen]? = some first ∧
    if first &&& 0xe0 = 0x20 then SubtitleFits subtitle packet parsed
    else SubstreamFits this packet parsed

section Containment

variable {this : PesDemuxer} {subtitle state : SubtitleType} {packet : Packet}
  {parsed : ParsedPes} {p : Nat} {first : UInt8}

theorem private_contained_some {use : PrivateUse} :
    PrivateContained packet (some (state, use)) ↔ use.Inside packet := by
  simp [PrivateContained]

theorem not_private_contained_none : ¬PrivateContained packet none := by
  rintro ⟨_, _, outside, _⟩
  cases outside

theorem old_subtitles_eq (long : 9 ≤ packet.length) (inside : p < packet.length) :
    oldSubtitles packet p = some (decide (IsOld packet p)) := by
  rw [oldSubtitles, byte_at (show 7 < packet.length by omega),
    byte_at (show p - 3 < packet.length by omega), byte_at (show p - 2 < packet.length by omega)]
  by_cases flag : byteAt packet 7 &&& 0x01 = 0
  · simp [IsOld, flag]
  · by_cases mark : byteAt packet (p - 3) &&& 0x81 = 0x01 <;> simp [IsOld, flag, mark]

theorem guess_type_eq :
    guessType packet p = if GuessFits packet p then
      some (if StartsDvb packet p then .dvb else .dvd) else none := by
  rw [guessType]
  rcases Nat.lt_or_ge (p + 4) packet.length with first | short
  · rw [byte_at first, Option.bind_some]
    by_cases mark : byteAt packet (p + 4) = 0x20
    · rcases Nat.lt_or_ge (p + 5) packet.length with second | short
      · rw [if_pos mark, byte_at second, Option.bind_some]
        by_cases zero : byteAt packet (p + 5) = 0
        · rcases Nat.lt_or_ge (p + 6) packet.length with third | short
          · rw [if_pos zero, byte_at third]
            simp [GuessFits, StartsDvb, mark, zero, first, second, third, Nat.succ_le_iff]
          · rw [if_pos zero, List.getElem?_eq_none short]
            simp [GuessFits, mark, zero, Nat.succ_le_iff, short]
        · simp [GuessFits, StartsDvb, mark, zero, first, second, Nat.succ_le_iff]
      · rw [if_pos mark, List.getElem?_eq_none short]
        simp [GuessFits, mark, Nat.succ_le_iff, short]
    · simp [GuessFits, StartsDvb, mark, first, Nat.succ_le_iff]
  · rw [List.getElem?_eq_none short]
    simp [GuessFits, Nat.succ_le_iff, short]

theorem header_positive (header : HasHeader packet parsed) : 0 < parsed.headerLen := by
  cases header with
  | mpeg2 => exact Nat.succ_pos _
  | mpeg1 _ body =>
      have some' : 1 ≤ stampLength body := by
        rw [stampLength]
        split_ifs <;> decide
      dsimp only [mpeg1Header]
      omega

theorem parse_dvb_spu_contained (header : HasHeader packet parsed) (type : SubtitleType)
    {substreamHeaderLen skipped : Nat}
    (kind : substreamHeaderLen = 1 ∧ skipped = 0 ∨ substreamHeaderLen = 4 ∧ skipped = 4) :
    PrivateContained packet ((parseDvbSpu packet parsed first substreamHeaderLen).map
        fun buf => (type, .subtitle buf)) ↔
      Room packet (parsed.headerLen + skipped) ∧
        (0 < parsed.pts → parsed.headerLen + skipped + 6 ≤ packet.length) := by
  have lengths := header.lengths
  have positive := header_positive header
  rw [parseDvbSpu]
  have content : (if substreamHeaderLen = 1 then parsed.headerLen - 1 else parsed.headerLen) +
      substreamHeaderLen = parsed.headerLen + skipped := by
    rcases kind with ⟨rfl, rfl⟩ | ⟨rfl, rfl⟩
    · rw [if_pos rfl]
      omega
    · rfl
  have size : (if substreamHeaderLen = 1 then parsed.packetLen + 1 else parsed.packetLen) -
      substreamHeaderLen = parsed.packetLen - skipped := by
    rcases kind with ⟨rfl, rfl⟩ | ⟨rfl, rfl⟩
    · rw [if_pos rfl]
      omega
    · rfl
  simp only [content, size]
  by_cases timed : 0 < parsed.pts
  · rw [if_pos timed]
    by_cases inside : parsed.headerLen + skipped + 6 ≤ packet.length
    · rw [byte_at (show parsed.headerLen + skipped + 4 < packet.length by omega), Option.bind_some,
        byte_at (show parsed.headerLen + skipped + 5 < packet.length by omega), Option.map_some,
        Option.map_some, private_contained_some]
      simp only [PrivateUse.Inside, Room, timed, inside, imp_self, and_true]
      omega
    · rw [List.getElem?_eq_none (show packet.length ≤ parsed.headerLen + skipped + 5 by omega)]
      simp [timed, inside, not_private_contained_none]
  · rw [if_neg timed, Option.map_some, private_contained_some]
    simp only [PrivateUse.Inside, Room, timed, false_imp_iff, and_true]
    omega

theorem detect_dvb_spu_contained (long : 9 ≤ packet.length) (header : HasHeader packet parsed)
    (inside : parsed.headerLen < packet.length)
    (started : ¬(parsed.pts ≤ 0 ∧ subtitle = .unknown)) :
    PrivateContained packet (detectDvbSpu subtitle packet parsed first) ↔
      SubtitleFits subtitle packet parsed := by
  have old (type : SubtitleType) := @parse_dvb_spu_contained packet parsed first header type 1 0
    (.inl ⟨rfl, rfl⟩)
  have dvb (type : SubtitleType) := @parse_dvb_spu_contained packet parsed first header type 4 4
    (.inr ⟨rfl, rfl⟩)
  have dvd : PrivateContained packet (if parsed.packetLen < 0 then some (.dvd, .lost)
      else some (.dvd, .subtitle ⟨.dvd, first &&& 0x1f, parsed.headerLen + 1,
        parsed.packetLen - 1, parsed.pts, none⟩)) ↔ Room packet (parsed.headerLen + 1) := by
    have lengths := header.lengths
    rw [Room]
    split_ifs with negative
    · rw [private_contained_some, PrivateUse.Inside, false_iff]
      omega
    · rw [private_contained_some]
      simp only [PrivateUse.Inside]
      omega
  simp only [detectDvbSpu, SubtitleFits]
  by_cases timed : 0 < parsed.pts
  · simp only [if_pos timed, reduceCtorEq, if_false, old_subtitles_eq long inside, Option.bind_some,
      decide_eq_true_eq]
    by_cases compat : IsOld packet parsed.headerLen
    · rw [if_pos compat, if_pos compat, old]
      simp [timed]
    · rw [if_neg compat, if_neg compat, guess_type_eq]
      by_cases fits : GuessFits packet parsed.headerLen
      · rw [if_pos fits, Option.bind_some]
        by_cases starts : StartsDvb packet parsed.headerLen
        · rw [if_pos starts, if_pos starts, if_neg (by decide), dvb]
          simp [timed, fits]
        · rw [if_neg starts, if_neg starts, if_pos rfl, dvd]
          exact (and_iff_right fits).symm
      · rw [if_neg fits]
        exact iff_of_false not_private_contained_none fun both => fits both.1
  · simp only [if_neg timed]
    cases subtitle with
    | unknown => exact absurd ⟨not_lt.mp timed, rfl⟩ started
    | dvd => simpa using dvd
    | dvb =>
        simp only [reduceCtorEq, if_false, old_subtitles_eq long inside, Option.bind_some,
          decide_eq_true_eq]
        by_cases compat : IsOld packet parsed.headerLen
        · rw [if_pos compat, if_pos compat, old]
          simp [timed]
        · rw [if_neg compat, if_neg compat, dvb]
          simp [timed]

theorem pass_private_contained (long : 9 ≤ packet.length) (header : HasHeader packet parsed) :
    PrivateContained packet (passPrivate this subtitle packet parsed) ↔
      PrivateFits this subtitle packet parsed := by
  rw [passPrivate, PrivateFits]
  cases read : packet[parsed.headerLen]? with
  | none => simp [not_private_contained_none]
  | some first =>
      simp only [Option.bind_some, Option.some.injEq, exists_eq_left']
      by_cases spu : first &&& 0xe0 = 0x20
      · rw [if_pos spu, if_pos spu]
        by_cases dropped : parsed.pts ≤ 0 ∧ subtitle = .unknown
        · rw [if_pos dropped, private_contained_some]
          refine iff_of_true trivial ?_
          simp [SubtitleFits, dropped.2, not_lt.mpr dropped.1]
        · rw [if_neg dropped]
          obtain ⟨inside, _⟩ := List.getElem?_eq_some_iff.mp read
          exact detect_dvb_spu_contained long header inside dropped
      · rw [if_neg spu, if_neg spu, ← pass_substream_contained header]
        cases passSubstream this packet parsed with
        | none => exact iff_of_false not_private_contained_none not_contained_none
        | some outcome => rw [Option.map_some, private_contained_some, PrivateUse.Inside]

/-- For every packet, and whatever subtitles came before: only the packet is read, and it is freed
or passed on once with a payload inside, exactly where it fits. -/
theorem private_stream_contained_iff (this : PesDemuxer) (subtitle : SubtitleType)
    (long : 9 ≤ packet.length) :
    PrivateContained packet (privateStream this subtitle packet) ↔
      HeaderFits packet (PrivateFits this subtitle packet) := by
  rw [privateStream, HeaderFits]
  constructor
  · rintro ⟨state, use, ran, fine⟩
    obtain ⟨header, parses, ran⟩ := Option.bind_eq_some_iff.mp ran
    rcases (parse_pes_for_pts_iff long header).mp parses with ⟨rfl, scrambled⟩ | ⟨parsed, rfl, has⟩
    · exact .inl scrambled
    · exact .inr ⟨parsed, has, (pass_private_contained long has).mp ⟨state, use, ran, fine⟩⟩
  · rintro (scrambled | ⟨parsed, has, fits⟩)
    · rw [(parse_pes_for_pts_iff long none).mpr (.inl ⟨rfl, scrambled⟩)]
      exact private_contained_some.mpr trivial
    · rw [(parse_pes_for_pts_iff long (some parsed)).mpr (.inr ⟨parsed, rfl, has⟩)]
      exact (pass_private_contained long has).mpr fits

end Containment

/-- A first packet of DVB subtitles. -/
def dvbSubtitle : Packet :=
  [0, 0, 1, 0xbd, 0, 18, 0x80, 0x80, 5, 0x21, 0, 1, 0, 0xff] ++
    [0x20, 0, 0, 0, 0x20, 0, 0x0f, 0, 0, 1]

theorem dvb_subtitle_contained :
    PrivateContained dvbSubtitle (privateStream openedDemuxer .unknown dvbSubtitle) := by
  refine (private_stream_contained_iff openedDemuxer .unknown (by decide)).mpr ?_
  refine .inr ⟨_, .mpeg2 (by decide) (by decide) (by decide) (by decide), 0x20, by decide, ?_⟩
  rw [if_pos (by decide), SubtitleFits.eq_def, if_pos (by decide), if_neg (by decide),
    if_pos (by decide)]
  exact ⟨by decide, ⟨by decide, by decide⟩, by decide⟩

end Xineliboutput.Client
