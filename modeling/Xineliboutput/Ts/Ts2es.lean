import Xineliboutput.Ts.TsPacket

/-!
# Transport stream to elementary stream

`ts2es.c`. A buffer is valid from its content pointer on for `size` bytes; `none`
is a byte read outside the valid part or a copy that does not continue it inside
the buffer.
-/

namespace Xineliboutput.Ts

open Xineliboutput.Foundation

set_option autoImplicit false

/-! ## Buffers -/

/-- `content` is an offset into the memory of the buffer. `special` is
`BUF_FLAG_SPECIAL` together with `BUF_SPECIAL_LPCM_CONFIG` in `decoder_info[1]`. -/
structure BufElement where
  maxSize : Nat
  mem : Block UInt8 maxSize
  content : Nat
  size : Int
  pts : Int
  frameEnd : Bool
  special : Bool
  decoderInfo0 : Int
  decoderInfo2 : Nat

/-- What a buffer pool hands out: memory with room for the payload of a packet. -/
structure PoolBuffer where
  maxSize : Nat
  mem : Block UInt8 maxSize
  roomy : tsSize - 4 ≤ maxSize

namespace BufElement

/-- `buffer_pool_alloc`. -/
def alloc (pool : PoolBuffer) : BufElement where
  maxSize := pool.maxSize
  mem := pool.mem
  content := 0
  size := 0
  pts := 0
  frameEnd := false
  special := false
  decoderInfo0 := 0
  decoderInfo2 := 0

def valid (buf : BufElement) : Memory UInt8 := fun position =>
  if position < buf.size then buf.mem.read (buf.content + position) else none

def append (buf : BufElement) (data : List UInt8) : Option BufElement :=
  if 0 ≤ buf.size then
    (buf.mem.overwrite (buf.content + buf.size.toNat) data).map fun mem =>
      { buf with mem, size := buf.size + data.length }
  else none

end BufElement

/-! ## The PES header -/

abbrev iso13818PesPrivate : Nat := 0x06
abbrev streamDvbSub : Nat := 0x5906
abbrev hdmvAudio80Pcm : Nat := 0xff80

/-- `STREAM_AUDIO_AC3`, `STREAM_AUDIO_EAC3`, `STREAM_AUDIO_AAC`, `STREAM_AUDIO_DTS`. -/
def isRawAudio (streamType : Nat) : Bool :=
  streamType ∈ [0x81, 0x7a06, 0x7c06, 0x7b06]

/-- What is stripped behind the PES header, and what is set with it. -/
structure Substream where
  strip : Nat
  special : Bool
  decoderInfo2 : Option Nat

def Substream.plain : Substream := ⟨0, false, none⟩

/-- The search for the start of PCM data; `size` bytes are left from `content` on. -/
def pcmOffsetFrom (content size : Nat) : Nat → Nat → Scan UInt8 Nat
  | 0, pcmOffset => pure pcmOffset
  | rounds + 1, pcmOffset =>
      if pcmOffset < size - 1 then do
        let first ← Scan.fetch (content + pcmOffset)
        if first = 0x01 then do
          let second ← Scan.fetch (content + pcmOffset + 1)
          if second = 0x80 then pure (pcmOffset + 2)
          else pcmOffsetFrom content size rounds (pcmOffset + 1)
        else pcmOffsetFrom content size rounds (pcmOffset + 1)
      else pure pcmOffset

def ac3Syncword (content : Nat) : Scan UInt8 Bool := do
  let first ← Scan.fetch content
  if first = 0x0b then do
    let second ← Scan.fetch (content + 1)
    pure (second = 0x77)
  else pure false

/-- `decoder_info[2]` of a DVB subtitle; a wrong substream header is only logged. -/
def parseDvbSpu (content pesLen : Nat) : Scan UInt8 Substream := do
  let first ← Scan.fetch content
  if first = 0x20 then do
    let _ ← Scan.fetch (content + 1)
    pure ⟨0, false, if content < pesLen then some (pesLen - content) else none⟩
  else pure ⟨0, false, if content < pesLen then some (pesLen - content) else none⟩

def parsePrivateAudio (content size : Nat) : Scan UInt8 Substream := do
  let first ← Scan.fetch content
  if first &&& 0xf0 = 0x80 then pure ⟨4, false, none⟩
  else if first &&& 0xf0 = 0xa0 then do
    let pcmOffset ← pcmOffsetFrom content size size 1
    pure ⟨pcmOffset, false, none⟩
  else pure .plain

/-- The part of `ts2es_parse_pes` behind the PES header of `content` bytes. -/
def parseSubstream (streamType : Nat) (pesPid : UInt8) (content size pesLen : Nat) :
    Scan UInt8 Substream :=
  if streamType = hdmvAudio80Pcm then do
    let first ← Scan.fetch content
    let second ← Scan.fetch (content + 1)
    let third ← Scan.fetch (content + 2)
    let fourth ← Scan.fetch (content + 3)
    pure ⟨4, true, some (fourth.toNat * 16777216 + third.toNat * 65536 + second.toNat * 256 +
      first.toNat)⟩
  else if pesPid ≠ privateStream1 then pure .plain
  else if isRawAudio streamType then pure .plain
  else do
    let sync ← ac3Syncword content
    if sync then pure .plain
    else if streamType = iso13818PesPrivate then parsePrivateAudio content size
    else if streamType = streamDvbSub then parseDvbSpu content pesLen
    else pure .plain

structure PesFields where
  pesLen : Nat
  pts : Int
  decoderInfo0 : Option Int
  substream : Substream
  strip : Nat

/-- `ts2es_parse_pes` on a buffer of `size` valid bytes; `none` sets `pes_error`. -/
def parsePesHeader (streamType : Nat) (video : Bool) (size : Nat) :
    Scan UInt8 (Option PesFields) := do
  let isPes ← dataIsPes
  if isPes then do
    let hdrLen ← pesHeaderLen
    let pesPid ← Scan.fetch 3
    if size < 9 ∨ size < hdrLen then pure none
    else do
      let packetLength ← fetchWord 4
      let pesLen := if hdrLen + 6 < packetLength then packetLength + 6 else 0
      let found ← pesGetPts size
      let pts := if found < 0 then 0 else found
      let dts ← if video ∧ 0 < pts then pesGetDts size else pure noPts
      let decoderInfo0 := if 0 < dts then some ((pts - dts) % 4294967296) else none
      let substream ← parseSubstream streamType pesPid hdrLen (size - hdrLen) pesLen
      pure (some { pesLen, pts, decoderInfo0, substream, strip := hdrLen + substream.strip })
  else pure none

def BufElement.strip (buf : BufElement) (fields : PesFields) : BufElement :=
  { buf with
    content := buf.content + fields.strip
    size := buf.size - fields.strip
    pts := fields.pts
    special := buf.special || fields.substream.special
    decoderInfo0 := fields.decoderInfo0.getD buf.decoderInfo0
    decoderInfo2 := fields.substream.decoderInfo2.getD buf.decoderInfo2 }

/-! ## The converter -/

structure Ts2es where
  streamType : Nat
  video : Bool
  buf : Option BufElement
  pesLen : Nat
  firstPusiSeen : Bool
  frameEndSent : Bool
  pesError : Bool

/-- The stream types that `ts2es_init` gives a video buffer type, with the ones that
depend on the version of xine-lib. -/
def isVideoType (streamType : Nat) : Bool :=
  streamType ∈ [0x01, 0x02, 0x80, 0x10, 0x1b, 0xea, 0x24]

def ts2esInit (streamType : Nat) : Ts2es where
  streamType := streamType
  video := isVideoType streamType
  buf := none
  pesLen := 0
  firstPusiSeen := false
  frameEndSent := false
  pesError := false

/-- The buffers that the pools hand out during one call. -/
structure Pools where
  frameEnd : PoolBuffer
  next : PoolBuffer

/-- `unsigned bytes = ts_PAYLOAD_SIZE(data)`. -/
def payloadBytes (pkt : TsPacket) : Nat := (pkt.payloadSize % 4294967296).toNat

namespace Ts2es

/-- A payload unit ends the buffer before it; a lost one is ended by an empty buffer. -/
def newPayloadUnit (this : Ts2es) (pool : PoolBuffer) : Ts2es × Option BufElement :=
  let ended := match this.buf with
    | some buf => some buf
    | none =>
        if this.firstPusiSeen && !this.frameEndSent then some (.alloc pool) else none
  ({ this with buf := none, firstPusiSeen := true, frameEndSent := false },
    ended.map fun buf => { buf with frameEnd := true })

def splitLarge (this : Ts2es) (buf : BufElement) : Bool :=
  (this.video && decide (2048 ≤ buf.size)) || decide ((buf.maxSize : Int) - 2 * tsSize ≤ buf.size)

def parsePes (this : Ts2es) (buf : BufElement) : Option (Ts2es × BufElement) :=
  ((parsePesHeader this.streamType this.video buf.size.toNat).run buf.valid).map fun parsed =>
    match parsed with
    | none => ({ this with pesError := true }, buf)
    | some fields => ({ this with pesError := false, pesLen := fields.pesLen }, buf.strip fields)

/-- From the check for a complete PES packet on; `result` is what is returned before it. -/
def checkComplete (this : Ts2es) (buf : BufElement) (bytes : Nat) (result : Option BufElement) :
    Ts2es × List BufElement :=
  if 0 < this.pesLen then
    if this.pesLen ≤ bytes then
      ({ this with pesError := true, frameEndSent := true, pesLen := 0, buf := none },
        result.toList ++ [{ buf with frameEnd := true }])
    else ({ this with pesLen := this.pesLen - bytes, buf := some buf }, result.toList)
  else ({ this with buf := some buf }, result.toList)

def parseStart (this : Ts2es) (pkt : TsPacket) (buf : BufElement) :
    Option (Ts2es × BufElement) :=
  if pkt.payloadStart then this.parsePes buf else some (this, buf)

def copyPayload (this : Ts2es) (buf : BufElement) (pkt : TsPacket) (result : Option BufElement) :
    Option (Ts2es × List BufElement) := do
  let filled ← buf.append pkt.payload
  let parsed ← this.parseStart pkt filled
  some (parsed.1.checkComplete parsed.2 (payloadBytes pkt) result)

/-- The buffer that a payload continues: the one that is held, unless it is split
off, or a new one. Data before the first payload start are discarded. -/
def continueUnit (this : Ts2es) (pkt : TsPacket) (pool : PoolBuffer) :
    Option (Ts2es × List BufElement) :=
  match this.buf with
  | some buf =>
      if this.splitLarge buf then
        { this with buf := none }.copyPayload (.alloc pool) pkt (some buf)
      else this.copyPayload buf pkt none
  | none =>
      if this.firstPusiSeen then this.copyPayload (.alloc pool) pkt none else some (this, [])

end Ts2es

/-- The buffers returned are those of the chain, in its order. -/
def ts2esPut (this : Ts2es) (pkt : TsPacket) (pools : Pools) :
    Option (Ts2es × List BufElement) :=
  if pkt.hasError then some (this, [])
  else if !pkt.hasPayload then some (this, [])
  else if tsSize - 4 < payloadBytes pkt then some (this, [])
  else if this.pesError && !pkt.payloadStart then some ({ this with buf := none }, [])
  else if pkt.payloadStart then
    (this.newPayloadUnit pools.frameEnd).1.copyPayload (.alloc pools.next) pkt
      (this.newPayloadUnit pools.frameEnd).2
  else this.continueUnit pkt pools.next

end Xineliboutput.Ts
