import Xineliboutput.Ts.PesCarrying

/-!
# The converter in the memory of its buffers

The parser also reads what a buffer holds behind its valid part, left there by
earlier use, and a packet is copied behind the content pointer and the size
whatever the size is. In this memory every call goes through. The packets that
have been copied into a buffer are recorded beside it.
-/

namespace Xineliboutput.Ts

open Xineliboutput.Foundation

set_option autoImplicit false

/-! ## Buffers -/

namespace BufElement

def memory (buf : BufElement) : Memory UInt8 := fun position =>
  buf.mem.read (buf.content + position)

/-- `memcpy` of a payload to `content + size`. -/
def copyBehind (buf : BufElement) (data : List UInt8) : Option BufElement :=
  (buf.mem.overwrite (buf.content + buf.size).toNat data).map fun mem =>
    { buf with mem, size := buf.size + data.length }

end BufElement

/-- The payload of a packet, and the one that its payload unit starts with. -/
structure Fragment where
  unit : List UInt8
  payload : List UInt8

def hasPesHeader (payload : List UInt8) : Bool :=
  [0, 0, 1].isPrefixOf payload && decide (9 + (payload.getD 8 0).toNat ≤ payload.length)

/-! ## The converter -/

namespace Ts2es

def parseMemory (this : Ts2es) (buf : BufElement) : Option (Ts2es × BufElement) :=
  ((parsePesHeader this.streamType this.video buf.size.toNat).run buf.memory).map fun parsed =>
    match parsed with
    | none => ({ this with pesError := true }, buf)
    | some fields => ({ this with pesError := false, pesLen := fields.pesLen }, buf.strip fields)

def parseStartMemory (this : Ts2es) (pkt : TsPacket) (buf : BufElement) :
    Option (Ts2es × BufElement) :=
  if pkt.payloadStart then this.parseMemory buf else some (this, buf)

def copyMemory (this : Ts2es) (buf : BufElement) (pkt : TsPacket) (result : Option BufElement) :
    Option (Ts2es × List BufElement) := do
  let filled ← buf.copyBehind pkt.payload
  let parsed ← this.parseStartMemory pkt filled
  some (parsed.1.checkComplete parsed.2 (payloadBytes pkt) result)

/-- `ts2es_flush`: the buffer that it puts into the fifo. The frame bypasses the
checks of the time stamps. -/
def flush (this : Ts2es) : Ts2es × Option BufElement :=
  ({ this with buf := none }, this.buf.map fun buf => { buf with frameEnd := true, pts := 0 })

end Ts2es

/-- A converter with what has been copied into the buffer it holds, the first payload
of the unit it is in, and the buffers that have left it. -/
structure Conversion where
  this : Ts2es
  unit : List UInt8
  copied : List Fragment
  returned : List (BufElement × List Fragment)

def conversionInit (streamType : Nat) : Conversion where
  this := ts2esInit streamType
  unit := []
  copied := []
  returned := []

namespace Conversion

/-- What has been copied into the buffer that a payload unit ends, none into the
empty one of a unit that was lost. -/
def ended (conversion : Conversion) : List Fragment :=
  if conversion.this.buf.isSome then conversion.copied else []

/-- The copy of a payload to a buffer that holds `copied`; `before` has been copied
into the buffer `result`. -/
def copy (conversion : Conversion) (this : Ts2es) (buf : BufElement) (pkt : TsPacket)
    (result : Option BufElement) (before copied : List Fragment) (unit : List UInt8) :
    Option Conversion :=
  (this.copyMemory buf pkt result).map fun next =>
    { this := next.1
      unit
      copied := copied ++ [⟨unit, pkt.payload⟩]
      returned := conversion.returned ++ next.2.zip
        ((result.map fun _ => before).toList ++ [copied ++ [⟨unit, pkt.payload⟩]]) }

def continueUnit (conversion : Conversion) (pkt : TsPacket) (pool : PoolBuffer) :
    Option Conversion :=
  match conversion.this.buf with
  | some buf =>
      if conversion.this.splitLarge buf then
        conversion.copy { conversion.this with buf := none } (.alloc pool) pkt (some buf)
          conversion.copied [] conversion.unit
      else conversion.copy conversion.this buf pkt none [] conversion.copied conversion.unit
  | none =>
      if conversion.this.firstPusiSeen then
        conversion.copy conversion.this (.alloc pool) pkt none [] [] conversion.unit
      else some conversion

/-- `ts2es_put`. -/
def put (conversion : Conversion) (pkt : TsPacket) (pools : Pools) : Option Conversion :=
  if pkt.hasError then some conversion
  else if !pkt.hasPayload then some conversion
  else if tsSize - 4 < payloadBytes pkt then some conversion
  else if conversion.this.pesError && !pkt.payloadStart then
    some { conversion with this := { conversion.this with buf := none } }
  else if pkt.payloadStart then
    conversion.copy (conversion.this.newPayloadUnit pools.frameEnd).1 (.alloc pools.next) pkt
      (conversion.this.newPayloadUnit pools.frameEnd).2 conversion.ended [] pkt.payload
  else conversion.continueUnit pkt pools.next

def flush (conversion : Conversion) : Conversion :=
  { conversion with
    this := conversion.this.flush.1
    returned := conversion.returned ++
      conversion.this.flush.2.toList.map fun buf => (buf, conversion.copied) }

end Conversion

/-- The buffers of the pools have room for a packet. -/
inductive Ts2esCall where
  | put (pkt : TsPacket) (pools : Pools) (roomy : tsSize ≤ pools.next.maxSize)
  | flush

def Conversion.perform (conversion : Conversion) : Ts2esCall → Option Conversion
  | .put pkt pools _ => conversion.put pkt pools
  | .flush => some conversion.flush

/-! ## Inside the valid parts -/

theorem memory_extends (buf : BufElement) : buf.memory.Extends buf.valid := by
  intro position byte found
  unfold BufElement.valid at found
  split at found
  · exact found
  · cases found

theorem copy_behind_of_append {buf filled : BufElement} {data : List UInt8}
    (appended : buf.append data = some filled) : buf.copyBehind data = some filled := by
  unfold BufElement.append at appended
  split at appended
  · rename_i nonneg
    have place : (buf.content + buf.size : Int).toNat = buf.content + buf.size.toNat := by omega
    unfold BufElement.copyBehind
    rw [place]
    exact appended
  · cases appended

theorem check_complete_cases (this : Ts2es) (buf : BufElement) (bytes : Nat)
    (result : Option BufElement) :
    ((0 < this.pesLen ∧ this.pesLen ≤ bytes) ∧ this.checkComplete buf bytes result =
        ({ this with pesError := true, frameEndSent := true, pesLen := 0, buf := none },
          result.toList ++ [{ buf with frameEnd := true }])) ∨
      (¬(0 < this.pesLen ∧ this.pesLen ≤ bytes) ∧ ∃ left, this.checkComplete buf bytes result =
        ({ this with pesLen := left, buf := some buf }, result.toList)) := by
  unfold Ts2es.checkComplete
  by_cases counted : 0 < this.pesLen
  · rw [if_pos counted]
    by_cases complete : this.pesLen ≤ bytes
    · left
      rw [if_pos complete]
      exact ⟨⟨counted, complete⟩, rfl⟩
    · right
      rw [if_neg complete]
      exact ⟨fun both => complete both.2, _, rfl⟩
  · right
    rw [if_neg counted]
    exact ⟨fun both => counted both.1, this.pesLen, rfl⟩

theorem zip_returned (result : Option BufElement) (buf : BufElement)
    (before copied : List Fragment) :
    (result.toList ++ [buf]).zip ((result.map fun _ => before).toList ++ [copied]) =
        result.toList.map (fun first => (first, before)) ++ [(buf, copied)] ∧
      result.toList.zip ((result.map fun _ => before).toList ++ [copied]) =
        result.toList.map fun first => (first, before) := by
  cases result <;> exact ⟨rfl, rfl⟩

/-! ## What the parser reads -/

theorem is_pes_ends : Scan.EndsWithin 9 dataIsPes := by
  apply Scan.EndsWithin.bind (.fetch (by decide))
  intro first
  apply Scan.EndsWithin.ite (fun _ => .pure _)
  intro zero
  apply Scan.EndsWithin.bind (.fetch (by decide))
  intro second
  apply Scan.EndsWithin.ite (fun _ => .pure _)
  intro zero'
  exact .bind (.fetch (by decide)) fun third => .pure _

section Reading

variable {payload : List UInt8} {memory : Memory UInt8}

/-- The substream header is read in the memory, and what is stripped lies in a packet. -/
def StripsInside (memory : Memory UInt8) (content : Nat) (scan : Scan UInt8 Substream) : Prop :=
  ∃ sub, scan.run memory = some sub ∧ content + sub.strip ≤ tsSize

theorem pcm_offset_memory (filled : memory.Extends (Memory.ofList payload)) {content : Nat}
    (within : content ≤ payload.length) :
    ∃ found, (pcmOffsetFrom content (payload.length - content) (payload.length - content) 1).run
      memory = some found ∧ content + found ≤ payload.length + 1 := by
  by_cases empty : payload.length - content = 0
  · rw [empty]
    exact ⟨1, rfl, by omega⟩
  · obtain ⟨found, ran, inside⟩ := pcm_offset_inside
      (by omega : content + (payload.length - content) = payload.length)
      (payload.length - content) (by omega : 1 ≤ payload.length - content)
    exact ⟨found, Scan.grows _ filled _ ran, by omega⟩

theorem private_audio_memory (filled : memory.Extends (Memory.ofList payload)) {content : Nat}
    (within : content ≤ payload.length) (short : payload.length + 4 ≤ tsSize) {first : UInt8}
    (found : memory content = some first) :
    StripsInside memory content (parsePrivateAudio content (payload.length - content)) := by
  unfold StripsInside parsePrivateAudio
  rw [Scan.run_bind, Scan.run_fetch, found, Option.bind_some, Scan.run_ite, Scan.run_ite]
  split_ifs
  · exact ⟨_, rfl, Nat.le_trans (Nat.add_le_add_right within 4) short⟩
  · obtain ⟨pcmOffset, ran, inside⟩ := pcm_offset_memory filled within
    rw [Scan.run_bind, ran, Option.bind_some]
    refine ⟨_, rfl, ?_⟩
    show content + pcmOffset ≤ tsSize
    omega
  · exact ⟨.plain, rfl, Nat.le_trans within (by omega)⟩

theorem dvb_spu_memory {content pesLen : Nat} (inside : content ≤ tsSize) {first second : UInt8}
    (found : memory content = some first) (next : memory (content + 1) = some second) :
    StripsInside memory content (parseDvbSpu content pesLen) := by
  unfold StripsInside parseDvbSpu
  rw [Scan.run_bind, Scan.run_fetch, found, Option.bind_some, Scan.run_ite]
  by_cases subtitle : first = 0x20
  · rw [if_pos subtitle, Scan.run_bind, Scan.run_fetch, next]
    exact ⟨_, rfl, inside⟩
  · rw [if_neg subtitle]
    exact ⟨_, rfl, inside⟩

theorem syncword_memory {content : Nat} {first second : UInt8}
    (found : memory content = some first) (next : memory (content + 1) = some second) :
    ∃ sync, (ac3Syncword content).run memory = some sync := by
  unfold ac3Syncword
  rw [Scan.run_bind, Scan.run_fetch, found, Option.bind_some, Scan.run_ite]
  split_ifs
  · rw [Scan.run_bind, Scan.run_fetch, next]
    exact ⟨_, rfl⟩
  · exact ⟨_, rfl⟩

theorem substream_memory (filled : memory.Extends (Memory.ofList payload))
    (reaches : ∀ position < tsSize, (memory position).isSome = true) (streamType : Nat)
    (pesPid : UInt8) (pesLen : Nat) {content : Nat} (within : content ≤ payload.length)
    (short : payload.length + 4 ≤ tsSize) :
    StripsInside memory content
      (parseSubstream streamType pesPid content (payload.length - content) pesLen) := by
  obtain ⟨first, firstRead⟩ := Option.isSome_iff_exists.mp (reaches content (by omega))
  obtain ⟨second, secondRead⟩ := Option.isSome_iff_exists.mp (reaches (content + 1) (by omega))
  have plain : StripsInside memory content (pure Substream.plain) :=
    ⟨.plain, rfl, Nat.le_trans within (by omega)⟩
  unfold parseSubstream
  by_cases lpcm : streamType = hdmvAudio80Pcm
  · obtain ⟨third, thirdRead⟩ := Option.isSome_iff_exists.mp (reaches (content + 2) (by omega))
    obtain ⟨fourth, fourthRead⟩ := Option.isSome_iff_exists.mp (reaches (content + 3) (by omega))
    rw [if_pos lpcm]
    unfold StripsInside
    simp only [Scan.run_bind, Scan.run_fetch, firstRead, secondRead, thirdRead, fourthRead,
      Option.bind_some, Scan.run_pure]
    exact ⟨_, rfl, Nat.le_trans (Nat.add_le_add_right within 4) short⟩
  rw [if_neg lpcm]
  by_cases other : pesPid ≠ privateStream1
  · rw [if_pos other]
    exact plain
  rw [if_neg other]
  by_cases raw : isRawAudio streamType = true
  · rw [if_pos raw]
    exact plain
  rw [if_neg raw]
  obtain ⟨sync, ran⟩ := syncword_memory firstRead secondRead
  unfold StripsInside
  rw [Scan.run_bind, ran, Option.bind_some]
  cases sync with
  | true => exact plain
  | false =>
      rw [if_neg Bool.false_ne_true]
      by_cases audio : streamType = iso13818PesPrivate
      · rw [if_pos audio]
        exact private_audio_memory filled within short firstRead
      rw [if_neg audio]
      by_cases subtitle : streamType = streamDvbSub
      · rw [if_pos subtitle]
        exact dvb_spu_memory (Nat.le_trans within (by omega)) firstRead secondRead
      · rw [if_neg subtitle]
        exact plain

theorem pes_header_iff :
    hasPesHeader payload = true ↔
      [0, 0, 1] <+: payload ∧ 9 + (payload.getD 8 0).toNat ≤ payload.length := by
  unfold hasPesHeader
  rw [Bool.and_eq_true, List.isPrefixOf_iff_prefix, decide_eq_true_iff]

/-- Of a payload that has nine bytes, the parser sees in the memory what a reader of the
payload sees. -/
theorem is_pes_memory (filled : memory.Extends (Memory.ofList payload))
    (long : 9 ≤ payload.length) :
    dataIsPes.run memory = some (decide ([0, 0, 1] <+: payload)) := by
  by_cases start : [0, 0, 1] <+: payload
  · rw [decide_eq_true start]
    exact Scan.grows _ filled _ (start_code_found start)
  · have whole : ¬payload <+: [0, 0, 1] := by
      intro cut
      have shorter := cut.length_le
      simp only [List.length_cons, List.length_nil] at shorter
      omega
    rw [decide_eq_false start]
    exact Scan.grows _ filled _ (start_code_missing start whole)

theorem header_byte_memory (filled : memory.Extends (Memory.ofList payload)) {index : Nat}
    (inside : index < payload.length) : memory index = some (payload.getD index 0) := by
  apply filled
  rw [Memory.ofList, List.getD_eq_getElem?_getD, List.getElem?_eq_getElem inside]
  rfl

theorem broken_header_run (filled : memory.Extends (Memory.ofList payload))
    (reaches : ∀ position < tsSize, (memory position).isSome = true) (streamType : Nat)
    (video : Bool) (broken : hasPesHeader payload = false) :
    (parsePesHeader streamType video payload.length).run memory = some none := by
  have near : ∀ position < 9, (memory position).isSome = true := by
    intro position small
    exact reaches position (Nat.lt_trans small (by decide))
  obtain ⟨isPes, seen⟩ := Option.isSome_iff_exists.mp (is_pes_ends memory near)
  unfold parsePesHeader pesHeaderLen
  rw [Scan.run_bind, seen, Option.bind_some]
  cases isPes with
  | false => rfl
  | true =>
      obtain ⟨pesPid, identified⟩ := Option.isSome_iff_exists.mp (near 3 (by decide))
      obtain ⟨headerDataLength, sized⟩ := Option.isSome_iff_exists.mp (near 8 (by decide))
      have cut : payload.length < 9 ∨ payload.length < 9 + headerDataLength.toNat := by
        by_contra whole
        have long : 9 ≤ payload.length := by omega
        rw [is_pes_memory filled long, Option.some.injEq, decide_eq_true_iff] at seen
        rw [header_byte_memory filled (by omega : 8 < payload.length), Option.some.injEq] at sized
        rw [pes_header_iff.mpr ⟨seen, by rw [sized]; omega⟩] at broken
        cases broken
      simp only [if_true, Scan.run_bind, Scan.run_fetch, identified, sized, Option.bind_some,
        Scan.run_pure, if_pos cut]

theorem whole_header_run (filled : memory.Extends (Memory.ofList payload))
    (reaches : ∀ position < tsSize, (memory position).isSome = true) (streamType : Nat)
    (video : Bool) (short : payload.length + 4 ≤ tsSize) (whole : hasPesHeader payload = true) :
    ∃ fields, (parsePesHeader streamType video payload.length).run memory = some (some fields) ∧
      fields.strip ≤ tsSize := by
  obtain ⟨start, complete⟩ := pes_header_iff.mp whole
  have long : 9 ≤ payload.length := by omega
  have isPes := is_pes_memory filled long
  rw [decide_eq_true start] at isPes
  have identified := header_byte_memory filled (by omega : 3 < payload.length)
  have sized := header_byte_memory filled (by omega : 8 < payload.length)
  have inside : ∀ position < payload.length, (memory position).isSome = true := by
    intro position within
    exact reaches position (by omega)
  obtain ⟨packetLength, lengthRead⟩ := Option.isSome_iff_exists.mp
    (fetch_word_ends (by omega : 4 + 1 < payload.length) memory inside)
  obtain ⟨found, ptsRead⟩ := Option.isSome_iff_exists.mp
    (timestamp_ends 0x80 long (by decide : 9 + 4 ≤ 13) memory inside)
  obtain ⟨dts, dtsRead⟩ := Option.isSome_iff_exists.mp
    (timestamp_ends 0x40 long (by decide : 14 + 4 ≤ 18) memory inside)
  have uncut : ¬(payload.length < 9 ∨ payload.length < 9 + (payload.getD 8 0).toNat) := by omega
  unfold parsePesHeader pesHeaderLen pesGetPts pesGetDts
  simp only [Scan.run_bind, Scan.run_fetch, Scan.run_pure, Scan.run_ite, isPes, identified, sized,
    lengthRead, ptsRead, dtsRead, Option.bind_some, if_true, if_neg uncut]
  obtain ⟨sub, subRead, stripped⟩ := substream_memory filled reaches streamType
    (payload.getD 3 0) (if 9 + (payload.getD 8 0).toNat + 6 < packetLength then packetLength + 6
      else 0) complete short
  rw [subRead]
  split_ifs <;> exact ⟨_, rfl, stripped⟩

end Reading

end Xineliboutput.Ts
