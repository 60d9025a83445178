import Xineliboutput.Client.ParsePes
import Xineliboutput.Elementary.Scanners

/-!
# Demuxing PES packets

`demux_xvdr_parse_pes` of `demux_xvdr.c`. A buffer with a packet is freed, or its payload is
passed on in a fifo. A call is `none` where it reads outside the packet or divides by zero.
-/

namespace Xineliboutput.Client

open Xineliboutput.Frontend (Packet)
open Xineliboutput.Ts (VideoSize isVideoPacket isMpegAudioPacket privateStream1)
open Xineliboutput.Elementary (Architecture isStartCode bytesAt nalAud pesGetPictureType
  pesGetVideoSize noPicture bFrame)

set_option autoImplicit false

/-- `video_type` -/
inductive VideoType where
  /-- `BUF_VIDEO_MPEG` -/
  | mpeg
  /-- `BUF_VIDEO_H264` -/
  | h264
  /-- one that is found in transport streams only -/
  | other (type : UInt32)
  deriving DecidableEq

/-- What `demux_xvdr_t` keeps from one packet to the next, as far as PES packets are concerned. -/
structure PesDemuxer where
  streamId : UInt8
  /-- `ts_data` is not a null pointer. -/
  tsData : Bool
  /-- `none` is 0. -/
  videoType : Option VideoType
  /-- `subtitle_type` is not 0. -/
  subtitleType : Bool
  bihPosted : Bool
  ffmpegMpeg2Decoder : Bool
  coreavcH264Decoder : Bool
  /-- `audio_fifo` is not a null pointer. -/
  audioFifo : Bool

/-- Which control buffers can be had from the pools. -/
structure ControlPools where
  flushDecoder : Bool
  resetDecoder : Bool
  frameEnd : Bool

inductive ControlBuffer where
  /-- `BUF_CONTROL_FLUSH_DECODER` -/
  | flushDecoder
  /-- `BUF_CONTROL_RESET_DECODER` -/
  | resetDecoder
  /-- `BUF_FLAG_FRAME_END` with a `xine_bmiheader`, and with `BUF_FLAG_ASPECT` -/
  | frameEnd (bmi : Option VideoSize) (aspect : Option (Int × Int))
  deriving DecidableEq

inductive BufferType where
  | video (type : VideoType)
  | spuDvd (spuId : UInt8)
  | audioDts (track : UInt8)
  | audioA52 (track : UInt8)
  | audioLpcm (track : UInt8)
  | audioMpeg (track : UInt8)
  deriving DecidableEq

/-- `decoder_info` and `decoder_flags` -/
inductive DecoderInfo where
  | ptsDifference (difference : Int) (frameEnd : Bool)
  | spuPackage
  | frameHeaders (number first : Nat)
  | lpcmConfig (config : UInt8)
  | none
  deriving DecidableEq

/-- `buf_element_t`: its `content` is an index into the packet. -/
structure PassedBuffer where
  content : Nat
  size : Int
  type : BufferType
  pts : Int
  info : DecoderInfo
  deriving DecidableEq

inductive BufferEvent where
  /-- `buf->free_buffer(buf)` -/
  | free
  | putVideo (buf : PassedBuffer)
  | putAudio (buf : PassedBuffer)
  /-- Another buffer. -/
  | putControl (control : ControlBuffer)
  deriving DecidableEq

structure PesOutcome where
  demuxer : PesDemuxer
  events : List BufferEvent
  result : Int

/-- `parse_pes_for_pts` and what follows it. The packet is freed where that returns -1. -/
def afterHeader (this : PesDemuxer) (packet : Packet) (next : ParsedPes → Option PesOutcome) :
    Option PesOutcome :=
  (parsePesForPts packet).bind fun header =>
    match header with
    | none => some ⟨this, [.free], -1⟩
    | some parsed => next parsed

def passAudio (this : PesDemuxer) (buf : PassedBuffer) : PesOutcome :=
  ⟨this, [if this.audioFifo then .putAudio buf else .free], -1⟩

/-! ## Private stream 1 -/

def passSpu (this : PesDemuxer) (first : UInt8) (parsed : ParsedPes) : PesOutcome :=
  if parsed.pts ≤ 0 ∧ !this.subtitleType then ⟨this, [.free], -1⟩
  else ⟨{ this with subtitleType := true }, [.putVideo {
    content := parsed.headerLen + 1
    size := parsed.packetLen - 1
    type := .spuDvd (first &&& 0x1f)
    pts := parsed.pts
    info := .spuPackage }], -1⟩

def passA52 (this : PesDemuxer) (packet : Packet) (first : UInt8) (parsed : ParsedPes) :
    Option PesOutcome :=
  let p := parsed.headerLen
  (packet[p + 1]?).bind fun number => (packet[p + 2]?).bind fun high =>
    (packet[p + 3]?).map fun low =>
      let track := first &&& 0x0f
      passAudio this {
        content := p + 4
        size := parsed.packetLen - 4
        type := if track &&& 0x8 ≠ 0 then .audioDts (track &&& 0x07) else .audioA52 track
        pts := parsed.pts
        info := .frameHeaders number.toNat (high.toNat * 256 + low.toNat) }

def passLpcm (this : PesDemuxer) (packet : Packet) (first : UInt8) (parsed : ParsedPes) :
    Option PesOutcome :=
  let p := parsed.headerLen
  (packet[p + 5]?).map fun config =>
    passAudio this {
      content := p + 7
      size := parsed.packetLen - 7
      type := .audioLpcm (first &&& 0x0f)
      pts := parsed.pts
      info := .lpcmConfig config }

def passSubstream (this : PesDemuxer) (packet : Packet) (parsed : ParsedPes) :
    Option PesOutcome :=
  (packet[parsed.headerLen]?).bind fun first =>
    if first &&& 0xe0 = 0x20 then some (passSpu this first parsed)
    else if first &&& 0xf0 = 0x80 then passA52 this packet first parsed
    else if first &&& 0xf0 = 0xa0 then passLpcm this packet first parsed
    else some ⟨this, [.free], -1⟩

def parsePrivateStream1 (this : PesDemuxer) (packet : Packet) : Option PesOutcome :=
  afterHeader this packet (passSubstream this packet)

/-! ## Video -/

/-- `detect_h264` -/
def detectH264 (data : Packet) (p : Nat) : Option (Option VideoType) :=
  (bytesAt data [0, 0, 1] p).bind fun starts =>
    if starts then (data[p + 3]?).map fun unit =>
      if unit = 0x09 then some .h264
      else if unit = 0 then some .mpeg
      else if 0x80 ≤ unit then some .mpeg
      else none
    else some none

def detectVideoType (this : PesDemuxer) (packet : Packet) (headerLen : Nat) :
    Option (Option VideoType) :=
  if this.videoType = none ∧ headerLen + 4 ≤ packet.length then detectH264 packet headerLen
  else some this.videoType

def frameRatio (size : VideoSize) : Option (Int × Int) :=
  if size.height < size.num then
    if size.height = 0 ∨ size.width = 0 then none
    else some (size.num.tdiv size.height, size.den.tdiv size.width)
  else some (size.num * size.width, size.den * size.height)

def aspectInfo (this : PesDemuxer) (size : VideoSize) : Option (Option (Int × Int)) :=
  if size.num ≠ 0 ∧ (this.videoType ≠ some .h264 ∨ this.coreavcH264Decoder = true) then
    (frameRatio size).map some
  else some none

/-- `post_frame_end` -/
def postFrameEnd (arch : Architecture) (pools : ControlPools) (this : PesDemuxer)
    (packet : Packet) : Option (PesDemuxer × List BufferEvent) :=
  if !pools.frameEnd then some (this, [])
  else if this.bihPosted then some (this, [.putControl (.frameEnd none none)])
  else
    (pesGetVideoSize arch packet packet.length (this.videoType = some .h264)).bind fun found =>
      match found with
      | none => some (this, [.putControl (.frameEnd none none)])
      | some size => (aspectInfo this size).map fun aspect =>
          let bmi := if this.videoType = some .h264 ∧ this.coreavcH264Decoder = true then
            some size else none
          ({ this with bihPosted := true }, [.putControl (.frameEnd bmi aspect)])

/-- What `parse_video_stream` does by the type of the video. -/
structure VideoPass where
  demuxer : PesDemuxer
  events : List BufferEvent
  pts : Int
  frameEnd : Bool

def passMpeg (arch : Architecture) (pools : ControlPools) (this : PesDemuxer) (packet : Packet)
    (parsed : ParsedPes) : Option VideoPass :=
  if !this.ffmpegMpeg2Decoder then some ⟨this, [], parsed.pts, false⟩
  else (pesGetPictureType arch packet packet.length).bind fun type =>
    if type = noPicture then some ⟨this, [], parsed.pts, false⟩
    else (postFrameEnd arch pools this packet).map fun posted =>
      ⟨posted.1, posted.2, if type = bFrame then 0 else parsed.pts, false⟩

def nalEndSeq : List UInt8 := [0, 0, 1, 0x0a]

def passH264 (arch : Architecture) (pools : ControlPools) (this : PesDemuxer) (packet : Packet)
    (parsed : ParsedPes) : Option VideoPass :=
  (isStartCode arch nalAud packet parsed.headerLen).bind fun delimiter =>
    (if delimiter then postFrameEnd arch pools this packet else some (this, [])).bind fun posted =>
      (isStartCode arch nalEndSeq packet (packet.length - 4)).map fun still =>
        ⟨posted.1, posted.2, parsed.pts, still⟩

def passVideo (arch : Architecture) (pools : ControlPools) (this : PesDemuxer) (packet : Packet)
    (parsed : ParsedPes) : Option VideoPass :=
  if this.videoType = some .mpeg then passMpeg arch pools this packet parsed
  else if this.videoType = some .h264 ∧ 4 ≤ packet.length then
    passH264 arch pools this packet parsed
  else some ⟨this, [], parsed.pts, false⟩

def isMarker (packet : Packet) (parsed : ParsedPes) : Bool :=
  packet.length = 14 ∧ parsed.headerLen = 14 ∧ parsed.pts = 0

/-- `put_control_buf` -/
def putControlBuf (available : Bool) (control : ControlBuffer) : List BufferEvent :=
  if available then [.putControl control] else []

def passFrame (arch : Architecture) (pools : ControlPools) (this : PesDemuxer) (packet : Packet)
    (parsed : ParsedPes) : Option PesOutcome :=
  if isMarker packet parsed then
    some ⟨this, putControlBuf pools.flushDecoder .flushDecoder ++
      putControlBuf pools.resetDecoder .resetDecoder ++ [.free], -1⟩
  else
    (detectVideoType this packet parsed.headerLen).bind fun type =>
      (passVideo arch pools { this with videoType := type } packet parsed).map fun pass =>
        ⟨pass.demuxer, pass.events ++ [.putVideo {
          content := parsed.headerLen
          size := parsed.packetLen
          type := .video (type.getD .mpeg)
          pts := pass.pts
          info := .ptsDifference (parsed.pts - parsed.dts) pass.frameEnd }], -1⟩

def parseVideoStream (arch : Architecture) (pools : ControlPools) (this : PesDemuxer)
    (packet : Packet) : Option PesOutcome :=
  afterHeader this packet (passFrame arch pools this packet)

/-! ## Audio -/

def passMpegAudio (this : PesDemuxer) (parsed : ParsedPes) : PesOutcome :=
  passAudio this {
    content := parsed.headerLen
    size := parsed.packetLen
    type := .audioMpeg (this.streamId &&& 0x1f)
    pts := parsed.pts
    info := .none }

def parseAudioStream (this : PesDemuxer) (packet : Packet) : Option PesOutcome :=
  afterHeader this packet fun parsed => some (passMpegAudio this parsed)

/-! ## All packets -/

def paddingStream : UInt8 := 0xbe

def parseStream (arch : Architecture) (pools : ControlPools) (this : PesDemuxer)
    (packet : Packet) : Option PesOutcome :=
  if isVideoPacket this.streamId then parseVideoStream arch pools this packet
  else if isMpegAudioPacket this.streamId then parseAudioStream this packet
  else if this.streamId = privateStream1 then parsePrivateStream1 this packet
  else some ⟨this, [.free], -1⟩

end Xineliboutput.Client
