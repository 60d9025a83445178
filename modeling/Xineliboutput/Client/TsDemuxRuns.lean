import Xineliboutput.Client.TsDemux
import Xineliboutput.Foundation.Components
import Xineliboutput.Ts.Reassembly

/-!
# What a demuxer makes of one track

As long as the program and its map stay, the converter of a track does what it would do alone
with the packets of its PID, and what it returns is put into the fifo of the track in the same
order. Other tracks only show in the time stamps that are cleared.
-/

namespace Xineliboutput.Foundation.Slots

set_option autoImplicit false

variable {Item : Type*} {size : Nat}

end Xineliboutput.Foundation.Slots

namespace Xineliboutput.Client

open Xineliboutput.Foundation Xineliboutput.Foundation.Machine Xineliboutput.Ts

set_option autoImplicit false

/-! ## Tracks that are kept -/

/-- A converter is that of a place, and of no other. -/
structure Watching (place : TrackPlace) (number : Nat) (tracks : TrackDemux) : Prop where
  held : tracks.held place = some number
  created : number < tracks.created.length
  alone : ∀ other, tracks.held other = some number → other = place

namespace Watching

variable {place : TrackPlace} {number : Nat} {tracks next : TrackDemux}

end Watching

/-! ## Buffers on their way -/

section Puts

variable {place : TrackPlace}

end Puts

namespace TsDemuxer

variable {this next : TsDemuxer} {events : List DemuxEvent}

def Kept (place : TrackPlace) (number : Nat) (before after : TsDemuxer) : Prop :=
  Watching place number before.tracks → Watching place number after.tracks ∧
    after.converters number = before.converters number

def route (this : TsDemuxer) (pkt : TsPacket) : Option TrackPlace :=
  if pkt.pid = 0 ∨ pkt.pid = this.pmtPid then none
  else if pkt.pid = this.tables.videoPid then some .video
  else (this.trackWithPid pkt.pid).map .audio

def KeepsProgram (this : TsDemuxer) (input : TsInput) : Prop :=
  ∀ next events, this.parsePacket input = some (next, events) →
    next.pmtPid = this.pmtPid ∧ next.programNumber = this.programNumber ∧
      next.tables = this.tables ∧ .channelsChanged ∉ events

/-- Nor is it, where the track is one of audio, for another audio track. -/
def Undisturbed (place : TrackPlace) (this : TsDemuxer) (input : TsInput) : Prop :=
  this.KeepsProgram input ∧ ∀ own other, place = .audio own →
    this.route input.pkt = some (.audio other) → other = own

end TsDemuxer

end Xineliboutput.Client
