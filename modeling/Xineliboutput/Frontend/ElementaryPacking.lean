import Mathlib
import Xineliboutput.Ts.PesStrip

/-!
# Packing an elementary stream

`Play_Mpeg2_ES` of `frontend.c`: the data are cut into PES packets that are passed to `Play`
between a packet with a timestamp and one with a sequence end code. The result of `Play` may
depend on all packets it has received.
-/

namespace Xineliboutput.Frontend

open Xineliboutput.Ts

set_option autoImplicit false

abbrev Packet := List UInt8

/-- What `Play` returns for a packet after others. -/
abbrev Play := List Packet → Packet → Int

def pesChunkSize : Nat := 2048

def frameSize : Nat := pesChunkSize + 32

def hdrlen : Nat := 9

def hdrPts (streamId : UInt8) : Packet :=
  [0x00, 0x00, 0x01, streamId, 0x00, 0x08, 0x80, 0x80, 0x05, 0x00, 0x00, 0x00, 0x00, 0x00]

/-- `hdr_vid` for a block. -/
def hdrVid (streamId : UInt8) (blocklen : Nat) : Packet :=
  [0x00, 0x00, 0x01, streamId, .ofNat (((blocklen + 3) &&& 0xff00) >>> 8),
    .ofNat ((blocklen + 3) &&& 0xff), 0x80, 0x00, 0x00]

def scSequenceEnd : UInt8 := 0xb7

def nalEndSeq : UInt8 := 0x0a

def seqEnd (streamId : UInt8) (h264 : Bool) : Packet :=
  [0x00, 0x00, 0x01, streamId, 0x00, 0x07, 0x80, 0x00, 0x00, 0x00, 0x00, 0x01,
    if h264 then nalEndSeq else scSequenceEnd]

def blockLength (todo : Nat) : Nat :=
  if todo > (pesChunkSize - hdrlen) &&& 0xfffc then (pesChunkSize - hdrlen) &&& 0xfffc else todo

/-- The loop over the blocks: whether all were accepted, and all packets that were passed on.
It is `none` where a copy leaves the data or the frame, or the rounds do not suffice. -/
def packBlocks (play : Play) (streamId : UInt8) (data : List UInt8) :
    Nat → Nat → Nat → List Packet → Option (Bool × List Packet)
  | 0, _, todo, sent => if todo ≠ 0 then none else some (true, sent)
  | limit + 1, done, todo, sent =>
      if todo ≠ 0 then
        if done + blockLength todo ≤ data.length ∧ hdrlen + blockLength todo ≤ frameSize then
          let frame := hdrVid streamId (blockLength todo) ++
            (data.drop done).take (blockLength todo)
          if (blockLength todo + hdrlen : Int) ≠ play sent frame then some (false, sent ++ [frame])
          else
            packBlocks play streamId data limit (done + blockLength todo) (todo - blockLength todo)
              (sent ++ [frame])
        else none
      else some (true, sent)

/-- `Play_Mpeg2_ES`; `streamID` has the bits of the `int`. -/
def playMpeg2Es (play : Play) (data : List UInt8) (streamID : UInt32) (h264 : Bool) :
    Option (Bool × List Packet) :=
  (packBlocks play streamID.toUInt8 data data.length 0 data.length [hdrPts streamID.toUInt8]).map
    fun packed =>
      if packed.1 ∧ streamID &&& 0xf0 = 0xe0 then
        (true, packed.2 ++ [seqEnd streamID.toUInt8 h264])
      else packed

/-! ## PES packets -/

def pesPayload (packet : Packet) : List UInt8 := packet.drop (9 + (packet.getD 8 0).toNat)

/-- A packet of the stream that fits a chunk and knows its length. -/
structure IsBlock (streamId : UInt8) (packet : Packet) : Prop where
  short : packet.length ≤ pesChunkSize
  length : pesLength packet + 6 = packet.length
  start : packet.take 4 = [0x00, 0x00, 0x01, streamId]

/-- The packets that `Play` has taken as a whole. -/
def acceptedBy (play : Play) : List Packet → List Packet → List Packet
  | _, [] => []
  | sent, packet :: packets =>
      if play sent packet = packet.length then
        packet :: acceptedBy play (sent ++ [packet]) packets
      else acceptedBy play (sent ++ [packet]) packets

/-! ## Blocks -/

section Blocks

variable {streamId : UInt8} {play : Play} {block data : List UInt8} {sent : List Packet}
  {todo : Nat}

theorem block_length_pos (some' : todo ≠ 0) : 0 < blockLength todo := by
  rw [blockLength]
  split
  · decide
  · omega

theorem block_length_le (todo : Nat) : blockLength todo ≤ todo ∧ blockLength todo ≤ 2036 := by
  have bound : (pesChunkSize - hdrlen) &&& 0xfffc = 2036 := by decide
  rw [blockLength, bound]
  split
  · omega
  · omega

theorem packet_length (streamId : UInt8) (block : List UInt8) :
    (hdrVid streamId block.length ++ block).length = hdrlen + block.length := by
  rw [List.length_append]
  rfl

theorem packet_payload (streamId : UInt8) (block : List UInt8) :
    pesPayload (hdrVid streamId block.length ++ block) = block := rfl

theorem length_bytes {value : Nat} (fits : value < 2 ^ 16) :
    (UInt8.ofNat ((value &&& 0xff00) >>> 8)).toNat * 256 + (UInt8.ofNat (value &&& 0xff)).toNat =
      value := by
  have low : value &&& 0xff = value % 256 := Nat.and_two_pow_sub_one_eq_mod value 8
  have high : (value &&& 0xff00) >>> 8 = value / 256 % 256 := by
    rw [Nat.shiftRight_and_distrib, Nat.shiftRight_eq_div_pow]
    exact Nat.and_two_pow_sub_one_eq_mod (value / 2 ^ 8) 8
  rw [low, high, UInt8.toNat_ofNat', UInt8.toNat_ofNat']
  omega

theorem packet_is_block (streamId : UInt8) (short : block.length ≤ 2036) :
    IsBlock streamId (hdrVid streamId block.length ++ block) := by
  constructor
  · rw [packet_length]
    change 9 + block.length ≤ 2048
    omega
  · rw [packet_length]
    change (UInt8.ofNat (((block.length + 3) &&& 0xff00) >>> 8)).toNat * 256 +
      (UInt8.ofNat ((block.length + 3) &&& 0xff)).toNat + 6 = 9 + block.length
    rw [length_bytes (by omega)]
    omega
  · rfl

/-- What the loop has passed on is made of the data that it began with. -/
structure Packed (play : Play) (streamId : UInt8) (data : List UInt8) (sent packets : List Packet)
    (result : Bool) : Prop where
  blocks : ∀ packet ∈ packets, IsBlock streamId packet
  complete : result = true → acceptedBy play sent packets = packets ∧
    (packets.map pesPayload).flatten = data
  broken : result = false → ((acceptedBy play sent packets).map pesPayload).flatten <+: data

theorem packed_nothing (play : Play) (streamId : UInt8) (sent : List Packet) :
    Packed play streamId [] sent [] true :=
  ⟨by simp, fun _ => ⟨rfl, rfl⟩, by simp⟩

theorem packed_refused (short : block.length ≤ 2036)
    (refused : play sent (hdrVid streamId block.length ++ block) ≠ hdrlen + block.length)
    (rest : List UInt8) :
    Packed play streamId (block ++ rest) sent [hdrVid streamId block.length ++ block] false := by
  constructor
  · intro packet member
    rw [List.mem_singleton.mp member]
    exact packet_is_block streamId short
  · simp
  · intro _
    rw [acceptedBy, if_neg (by rw [packet_length]; exact_mod_cast refused)]
    exact List.nil_prefix

theorem packed_accepted {packets : List Packet} {result : Bool} {rest : List UInt8}
    (short : block.length ≤ 2036)
    (accepted : play sent (hdrVid streamId block.length ++ block) = hdrlen + block.length)
    (others : Packed play streamId rest (sent ++ [hdrVid streamId block.length ++ block]) packets
      result) :
    Packed play streamId (block ++ rest) sent
      ((hdrVid streamId block.length ++ block) :: packets) result := by
  have taken : acceptedBy play sent ((hdrVid streamId block.length ++ block) :: packets) =
      (hdrVid streamId block.length ++ block) ::
        acceptedBy play (sent ++ [hdrVid streamId block.length ++ block]) packets := by
    rw [acceptedBy, if_pos (by rw [packet_length]; exact_mod_cast accepted)]
  constructor
  · intro packet member
    rcases List.mem_cons.mp member with rfl | later
    · exact packet_is_block streamId short
    · exact others.blocks packet later
  · intro complete
    obtain ⟨all, payloads⟩ := others.complete complete
    rw [taken, all, List.map_cons, List.flatten_cons, payloads, packet_payload]
    exact ⟨rfl, rfl⟩
  · intro broken
    rw [taken, List.map_cons, List.flatten_cons, packet_payload]
    exact (List.prefix_append_right_inj block).mpr (others.broken broken)

theorem pack_blocks (play : Play) (streamId : UInt8) (data : List UInt8) (limit done todo : Nat)
    (sent : List Packet) (whole : done + todo = data.length) (enough : todo ≤ limit) :
    ∃ result packets, packBlocks play streamId data limit done todo sent =
        some (result, sent ++ packets) ∧
      Packed play streamId (data.drop done) sent packets result := by
  induction limit generalizing done todo sent with
  | zero =>
      have finished : data.drop done = [] := List.drop_eq_nil_iff.mpr (by omega)
      refine ⟨true, [], ?_, ?_⟩
      · rw [packBlocks, if_neg (by omega), List.append_nil]
      · rw [finished]
        exact packed_nothing play streamId sent
  | succ limit ih =>
      rw [packBlocks]
      by_cases more : todo ≠ 0
      · obtain ⟨within, short⟩ := block_length_le todo
        have positive := block_length_pos more
        have inside : done + blockLength todo ≤ data.length ∧
            hdrlen + blockLength todo ≤ frameSize := by
          refine ⟨by omega, ?_⟩
          change 9 + blockLength todo ≤ 2080
          omega
        obtain ⟨block, cut⟩ : ∃ block, block = (data.drop done).take (blockLength todo) := ⟨_, rfl⟩
        have size : block.length = blockLength todo := by
          rw [cut, List.length_take, List.length_drop]
          omega
        have parts : data.drop done = block ++ data.drop (done + blockLength todo) := by
          rw [cut, ← List.drop_drop, List.take_append_drop]
        rw [if_pos more, if_pos inside, ← cut, parts]
        dsimp only
        rw [← size]
        by_cases refused : (block.length + hdrlen : Int) ≠
            play sent (hdrVid streamId block.length ++ block)
        · rw [if_pos refused]
          exact ⟨false, _, rfl, packed_refused (by omega) (by omega) _⟩
        · obtain ⟨result, packets, ran, packed⟩ := ih (done + block.length) (todo - block.length)
            (sent ++ [hdrVid streamId block.length ++ block]) (by omega) (by omega)
          refine ⟨result, (hdrVid streamId block.length ++ block) :: packets, ?_,
            packed_accepted (by omega) (by omega) packed⟩
          rw [if_neg refused, ran, List.append_assoc]
          rfl
      · have finished : data.drop done = [] := List.drop_eq_nil_iff.mpr (by omega)
        refine ⟨true, [], ?_, ?_⟩
        · rw [if_neg more, List.append_nil]
        · rw [finished]
          exact packed_nothing play streamId sent

end Blocks

/-- Between the timestamp and the end code there are only blocks of the stream. They carry the
data, or the beginning that was accepted. -/
theorem play_mpeg2_es_packed (play : Play) (data : List UInt8) (streamID : UInt32) (h264 : Bool) :
    ∃ result packets ending,
      playMpeg2Es play data streamID h264 =
        some (result, hdrPts streamID.toUInt8 :: (packets ++ ending)) ∧
      (∀ packet ∈ packets, IsBlock streamID.toUInt8 packet) ∧
      (ending = if result ∧ streamID &&& 0xf0 = 0xe0 then [seqEnd streamID.toUInt8 h264] else []) ∧
      (result = true → (packets.map pesPayload).flatten = data) ∧
      (result = false → ((acceptedBy play [hdrPts streamID.toUInt8] packets).map
        pesPayload).flatten <+: data) := by
  obtain ⟨result, packets, ran, packed⟩ := pack_blocks play streamID.toUInt8 data data.length 0
    data.length [hdrPts streamID.toUInt8] (Nat.zero_add _) (Nat.le_refl _)
  rw [List.drop_zero] at packed
  refine ⟨result, packets, _, ?_, packed.blocks, rfl, fun complete => (packed.complete complete).2,
    packed.broken⟩
  rw [playMpeg2Es, ran, Option.map_some]
  dsimp only
  split
  · next video =>
      rw [video.1]
      rfl
  · rw [List.append_nil]
    rfl

end Xineliboutput.Frontend
