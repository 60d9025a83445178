import Xineliboutput.Client.NewPts
import Xineliboutput.Ts.PatTable
import Xineliboutput.Ts.TrackConverters
import Xineliboutput.Ts.Ts2esMemory

/-!
# Demuxing a transport stream

`demux_xvdr_parse_ts` of `demux_xvdr.c` with `track_audio_stream_change`. The packets of a
program are sorted by their PID; each track has a converter of its own, all tracks share the
check of the time stamps. A packet is `none` where an array is left or a byte outside the
packet is read.
-/

namespace Xineliboutput.Client

open Xineliboutput.Foundation Xineliboutput.Ts

set_option autoImplicit false

/-- What a buffer meets on its way to its fifo: the modes of the metronom, the bits of
`buf->type` above the index of its track, and whether the pool has the two control buffers. -/
structure Passage where
  modes : MetronomModes
  kind : Nat
  resetTrackMap : Bool
  controlStart : Bool

/-- A packet, the memory behind it, what the pools hand out and the passage of each buffer
that it completes. -/
structure TsInput where
  pkt : TsPacket
  behind : Nat → UInt8
  pools : Pools
  passages : Nat → Passage

inductive DemuxEvent where
  /-- `_x_demux_control_newpts`: to both fifos -/
  | newPts (announced : NewPts)
  /-- to the fifo of a track: `audio_fifo`, or `video_fifo` for video and subtitles -/
  | put (place : TrackPlace) (buf : BufElement)
  /-- `BUF_CONTROL_RESET_TRACK_MAP` -/
  | resetTrackMap
  /-- `BUF_CONTROL_START` with `BUF_FLAG_GAPLESS_SW` -/
  | controlStart
  /-- `XINE_EVENT_UI_CHANNELS_CHANGED` -/
  | channelsChanged

/-- The type of an audio buffer: its kind and the index of its track. -/
abbrev AudioType := Nat × Nat

/-- The types of `vtype_to_xine_buf_type`. -/
inductive XineVideo where
  | mpeg
  | mpeg4
  | h264
  | vc1
  | hevc
  deriving DecidableEq

def vtypeToXineBufType (vtype : Nat) : Option XineVideo :=
  if vtype = 0x01 then some .mpeg
  else if vtype = 0x02 then some .mpeg
  else if vtype = 0x10 then some .mpeg4
  else if vtype = 0x1b then some .h264
  else if vtype = 0xea then some .vc1
  else if vtype = 0x24 then some .hevc
  else none

/-- What `demux_xvdr_t` and its `ts_data_t` keep. The tables of `section` are not used: those
of the track table are. -/
structure TsDemuxer where
  tracks : TrackDemux
  /-- The converters by their numbers. -/
  converters : Nat → Ts2es
  pmtPid : Nat
  programNumber : Nat
  sectionData : PmtData
  check : PtsCheck
  /-- `none` is 0. -/
  videoType : Option XineVideo
  audioType : AudioType
  audioFifo : FifoGiven

namespace TsDemuxer

variable (this : TsDemuxer)

def tsData : TsData := this.tracks.tsData.getD .zeroed

def tables : PmtTables := this.tsData.pmt

/-- The first packet makes a `ts_data_t`. -/
def allocated : TsDemuxer :=
  match this.tracks.tsData with
  | some _ => this
  | none =>
      { this with
        tracks := { this.tracks with tsData := some .zeroed }
        pmtPid := 0
        programNumber := 0
        sectionData := zeroedPmtData }

/-- Converters that were made are in the state that `ts2es_init` gives them. -/
def withTracks (tracks : TrackDemux) : TsDemuxer :=
  { this with
    tracks
    converters := fun number =>
      if number < this.tracks.created.length then this.converters number
      else ts2esInit ((tracks.created[number]?).elim 0 Converter.streamType) }

/-- `ts2es_flush` for the given converters. -/
def flushConverters : List Nat → TsDemuxer → TsDemuxer × List DemuxEvent
  | [], this => (this, [])
  | number :: numbers, this =>
      let (converter, flushed) := (this.converters number).flush
      let (next, events) := flushConverters numbers
        { this with converters := Function.update this.converters number converter }
      (next, (flushed.toList.map fun buf =>
        .put ((this.tracks.created[number]?).elim .video Converter.place) buf) ++ events)

def tsDataFlush : Option (TsDemuxer × List DemuxEvent) :=
  this.tracks.tsDataFlush.map fun numbers => flushConverters numbers this

def parsePat (pkt : TsPacket) : Option (TsDemuxer × List DemuxEvent) := do
  let (pat, found) ← tsParsePat zeroedPatData pkt
  if found ≠ 0 ∧ (this.pmtPid ≠ pat.pmtPid.cell 0 ∨ this.programNumber ≠ pat.programNumber.cell 0) then do
    let (flushed, events) ← this.tsDataFlush
    some ({ flushed with pmtPid := pat.pmtPid.cell 0, programNumber := pat.programNumber.cell 0 },
      events)
  else some (this, [])

/-- A new map: the converters are made anew, those of an unsupported video for nothing. -/
def newMap : Option (TsDemuxer × List DemuxEvent) := do
  let tracks ← this.tracks.tsDataTs2esInit true this.audioFifo
  let next := this.withTracks tracks
  match vtypeToXineBufType next.tables.videoType with
  | some videoType => some ({ next with videoType := some videoType }, [.channelsChanged])
  | none =>
      some ({ next with
          videoType := none
          tracks := next.tracks.newPmt { next.tables with videoPid := invalidPid } },
        [.channelsChanged])

def parsePmt (pkt : TsPacket) (behind : Nat → UInt8) : Option (TsDemuxer × List DemuxEvent) := do
  let (sectionData, changed) ←
    tsParsePmt { this.sectionData with tables := this.tables } this.programNumber pkt behind
  let next := { this with sectionData, tracks := this.tracks.newPmt sectionData.tables }
  if changed then next.newMap else some (next, [])

/-- `ts2es_put` -/
def putConverter (number : Nat) (input : TsInput) : Option (TsDemuxer × List BufElement) :=
  (ts2esPut (this.converters number) input.pkt input.pools).map fun (converter, out) =>
    ({ this with converters := Function.update this.converters number converter }, out)

/-- `check_newpts`, then the put, with what is announced before it. -/
def checked (modes : MetronomModes) (medium : Medium) (buf : BufElement) :
    TsDemuxer × List DemuxEvent × BufElement :=
  let (check, checked) := this.check.checkNewpts modes buf.pts medium
  ({ this with check }, checked.announced.toList.map .newPts, { buf with pts := checked.pts })

def passVideo (passages : Nat → Passage) : List BufElement → TsDemuxer → TsDemuxer × List DemuxEvent
  | [], this => (this, [])
  | buf :: bufs, this =>
      let (this, announced, buf) := this.checked (passages 0).modes .video buf
      let (next, events) := passVideo (fun place => passages (place + 1)) bufs this
      (next, announced ++ .put .video buf :: events)

/-- `track_audio_stream_change` -/
def trackAudioStreamChange (index : Fin tsMaxTracks) (passage : Passage) :
    Option (TsDemuxer × List DemuxEvent) :=
  if this.audioType ≠ (passage.kind, index.val) then
    (this.tracks.tsDataResetAudio this.audioFifo index.val).map fun tracks =>
      ({ this.withTracks tracks with audioType := (passage.kind, index.val) },
        (if passage.resetTrackMap then [.resetTrackMap] else []) ++
          if this.audioType ≠ (0, 0) ∧ passage.controlStart then [.controlStart] else [])
  else some (this, [])

def passAudio (index : Fin tsMaxTracks) (passages : Nat → Passage) :
    List BufElement → TsDemuxer → Option (TsDemuxer × List DemuxEvent)
  | [], this => some (this, [])
  | buf :: bufs, this =>
      let (this, announced, buf) := this.checked (passages 0).modes .audio buf
      (this.trackAudioStreamChange index (passages 0)).bind fun (this, changed) =>
        (passAudio index (fun place => passages (place + 1)) bufs this).map fun (next, events) =>
          (next, announced ++ changed ++ .put (.audio index) buf :: events)

def demuxVideo (input : TsInput) : Option (TsDemuxer × List DemuxEvent) :=
  match this.tsData.video with
  | none => some (this, [])
  | some number =>
      (this.putConverter number input).map fun (this, bufs) => passVideo input.passages bufs this

def demuxAudio (index : Fin tsMaxTracks) (input : TsInput) : Option (TsDemuxer × List DemuxEvent) :=
  match this.tsData.audio index with
  | none => some (this, [])
  | some number =>
      (this.putConverter number input).bind fun (this, bufs) =>
        passAudio index input.passages bufs this

def trackWithPid (pid : Nat) : Option (Fin tsMaxTracks) :=
  (List.finRange tsMaxTracks).find? fun index =>
    (this.tables.audioTracks.entries[index.val]?).any fun track => track.pid == pid

def parsePacket (input : TsInput) : Option (TsDemuxer × List DemuxEvent) :=
  if input.pkt.pid = 0 then this.parsePat input.pkt
  else if input.pkt.pid = this.pmtPid then this.parsePmt input.pkt input.behind
  else if input.pkt.pid = this.tables.videoPid then this.demuxVideo input
  else
    match this.trackWithPid input.pkt.pid with
    | none => some (this, [])
    | some index => this.demuxAudio index input

/-- `demux_xvdr_parse_ts` for the packets of a buffer. -/
def parseTs (inputs : List TsInput) :
    Option (TsDemuxer × List (TsInput × List DemuxEvent)) :=
  Machine.drive parsePacket this.allocated inputs

end TsDemuxer

end Xineliboutput.Client
