import Xineliboutput.Client.PlaybackSpeed
import Xineliboutput.Foundation.Machine

/-!
# Clients that connect late

The mode calls of `cXinelibThread` in `frontend.c`, what `Handle_Control_CONFIG` tells a new
client of them, and what a client does with the messages in `xine_input_vdr.c`. A client
that has heard every message is compared with one that has only heard the last state.
-/

namespace Xineliboutput.Server

open Xineliboutput.Foundation
open Xineliboutput.Client

set_option autoImplicit false

/-! ## The server -/

inductive ModeMessage where
  | noVideo (value : Int)
  | live (value : Int)
  | still (value : Int)
  | trickSpeed (speed : Int) (backwards : Bool)
  | hdMode (value : Int)
  deriving DecidableEq

/-- What the server remembers; a still image is not among it. -/
structure ModeServer where
  noVideo : Bool
  liveMode : Bool
  hdMode : Bool
  trickSpeed : Int
  trickSpeedBack : Bool
  deriving DecidableEq

def ModeServer.init : ModeServer where
  noVideo := true
  liveMode := true
  hdMode := false
  trickSpeed := -1
  trickSpeedBack := false

inductive ModeCall where
  | setLiveMode (on : Bool)
  | setStillMode (on : Bool)
  | setNoVideo (on : Bool)
  | setHdMode (on : Bool)
  | trickSpeed (speed : Int) (backwards : Bool)
  deriving DecidableEq

/-- `on ? 1 : 0` -/
def bit (on : Bool) : Int := if on then 1 else 0

/-- The server after a call, and the messages to all clients. -/
def ModeServer.call (server : ModeServer) : ModeCall → ModeServer × List ModeMessage
  | .setLiveMode on =>
      if server.liveMode = on then (server, [])
      else ({ server with liveMode := on }, [.live (bit on)])
  | .setStillMode on => (server, [.still (bit on)])
  | .setNoVideo on =>
      if server.noVideo = on then (server, [])
      else ({ server with noVideo := on }, [.noVideo (bit on)])
  | .setHdMode on => ({ server with hdMode := on }, [.hdMode (bit on)])
  | .trickSpeed speed backwards =>
      ({ server with trickSpeed := speed, trickSpeedBack := backwards },
        [.trickSpeed speed backwards])

/-- The messages about modes to a new client; the last of them is sent by `Configure`. -/
def ModeServer.handleControlConfig (server : ModeServer) : List ModeMessage :=
  [.noVideo (bit server.noVideo), .live (bit server.liveMode),
    .trickSpeed server.trickSpeed server.trickSpeedBack, .hdMode (bit server.hdMode)]

/-! ## The client -/

structure ModeClient where
  playback : Playback
  noVideo : Bool
  hdStream : Bool

def ModeClient.init : ModeClient := ⟨.init, false, false⟩

/-- `no_video` is a single bit. -/
def ModeClient.receive (client : ModeClient) : ModeMessage → ModeClient
  | .noVideo value => { client with noVideo := decide (value % 2 = 1) }
  | .live value => { client with playback := setLiveMode value client.playback }
  | .still value => { client with playback := setStillMode value client.playback }
  | .trickSpeed speed backwards =>
      { client with playback := setTrickSpeed speed backwards client.playback }
  | .hdMode value => { client with hdStream := decide (value ≠ 0) }

def lateClient (server : ModeServer) : ModeClient :=
  server.handleControlConfig.foldl ModeClient.receive .init

/-- The server, and a client that has been connected from the start. -/
structure ModeRun where
  server : ModeServer
  client : ModeClient

namespace ModeRun

def start : ModeRun := ⟨.init, lateClient .init⟩

def call (run : ModeRun) (call : ModeCall) : ModeRun where
  server := (run.server.call call).1
  client := (run.server.call call).2.foldl ModeClient.receive run.client

end ModeRun

/-! ## Modes -/

structure ClientMode where
  liveMode : Bool
  stillMode : Bool
  noVideo : Bool
  hdStream : Bool
  isPaused : Bool
  isTrickspeed : Bool
  deriving DecidableEq

def ModeClient.mode (client : ModeClient) : ClientMode where
  liveMode := client.playback.liveMode
  stillMode := client.playback.stillMode
  noVideo := client.noVideo
  hdStream := client.hdStream
  isPaused := client.playback.isPaused
  isTrickspeed := client.playback.isTrickspeed

namespace ClientMode

def still (value : Int) (mode : ClientMode) : ClientMode :=
  if (value ≠ 0 ∨ mode.stillMode = true) ∧ mode.liveMode = true then mode
  else { mode with stillMode := decide (value ≠ 0) }

def trick (speed : Int) (mode : ClientMode) : ClientMode :=
  if 64 < speed ∨ speed < -64 then mode
  else
    let mode := { mode with isPaused := decide (speed = 0) }
    let mode := if speed = 0 then mode else mode.still 0
    if 1 < speed ∨ speed < -1 then
      if mode.liveMode then mode else { mode with isTrickspeed := true }
    else { mode with isTrickspeed := false }

def receive (mode : ClientMode) : ModeMessage → ClientMode
  | .noVideo value => { mode with noVideo := decide (value % 2 = 1) }
  | .live value => { mode with liveMode := decide (value % 2 = 1) }.still 0
  | .still value => mode.still value
  | .trickSpeed speed _ => mode.trick speed
  | .hdMode value => { mode with hdStream := decide (value ≠ 0) }

end ClientMode

def ModeClient.withPlayback (client : ModeClient) (playback : Playback) : ModeClient :=
  { client with playback := playback }

theorem reset_tuning_mode (client : ModeClient) (this : Playback) :
    (client.withPlayback (resetScrTuning this)).mode = (client.withPlayback this).mode := by
  unfold resetScrTuning
  split
  · split
    · rfl
    · split
      · rfl
      · rfl
  · rfl

theorem still_mode_mode (client : ModeClient) (this : Playback) (value : Int) :
    (client.withPlayback (setStillMode value this)).mode =
      (client.withPlayback this).mode.still value := by
  unfold setStillMode ClientMode.still
  by_cases refused : (value ≠ 0 ∨ this.stillMode = true) ∧ this.liveMode = true
  · have same : (value ≠ 0 ∨ (client.withPlayback this).mode.stillMode = true) ∧
        (client.withPlayback this).mode.liveMode = true := refused
    rw [if_pos refused, if_pos same]
  · have other : ¬((value ≠ 0 ∨ (client.withPlayback this).mode.stillMode = true) ∧
        (client.withPlayback this).mode.liveMode = true) := refused
    rw [if_neg refused, if_neg other]
    dsimp only
    split
    · change (client.withPlayback (resetScrTuning _)).mode = _
      rw [reset_tuning_mode]
      rfl
    · rfl

theorem live_mode_mode (client : ModeClient) (this : Playback) (value : Int) :
    (client.withPlayback (setLiveMode value this)).mode =
      (client.withPlayback this).mode.receive (.live value) := by
  have switched : (if (if this.liveMode then 1 else 0) ≠ value then
      { this with liveMode := value % 2 = 1 } else this) =
        { this with liveMode := decide (value % 2 = 1) } := by
    by_cases same : (if this.liveMode then 1 else 0) ≠ value
    · rw [if_pos same]
    · rw [if_neg same, ← not_not.mp same]
      obtain ⟨live, still, paused, trick, tuning, i, b, p, buf, speed, has, m, t⟩ := this
      cases live <;> rfl
  have left := still_mode_mode client { this with liveMode := decide (value % 2 = 1) } 0
  unfold setLiveMode
  dsimp only
  rw [switched]
  split
  · rw [reset_tuning_mode]
    exact left
  · exact left

theorem play_at_mode (client : ModeClient) (this : Playback) (speed : Int) :
    (client.withPlayback (playAt speed this)).mode = (client.withPlayback this).mode := by
  unfold playAt
  dsimp only
  split
  · rfl
  · rfl

theorem set_pause_mode (client : ModeClient) (this : Playback) (speed : Int) (backwards : Bool) :
    (client.withPlayback (setPause speed backwards this)).mode =
      (if speed = 0 then { (client.withPlayback this).mode with isPaused := decide (speed = 0) }
        else { (client.withPlayback this).mode with isPaused := decide (speed = 0) }.still 0) := by
  unfold setPause
  by_cases pause : speed = 0
  · simp only [pause, decide_true, Bool.true_eq_false, if_false, if_true]
    rfl
  · have left := still_mode_mode client { this with isPaused := decide (speed = 0) } 0
    simp only [pause, decide_false, if_true, if_false] at left ⊢
    exact left

theorem trick_speed_mode (client : ModeClient) (this : Playback) (speed : Int)
    (backwards : Bool) :
    (client.withPlayback (setTrickSpeed speed backwards this)).mode =
      (client.withPlayback this).mode.trick speed := by
  have paused := set_pause_mode client this speed backwards
  unfold setTrickSpeed ClientMode.trick
  by_cases outside : 64 < speed ∨ speed < -64
  · rw [if_pos outside, if_pos outside]
  · rw [if_neg outside, if_neg outside]
    dsimp only
    rw [← paused]
    by_cases fast : 1 < speed ∨ speed < -1
    · rw [if_pos fast, if_pos fast]
      by_cases live : (setPause speed backwards this).liveMode = true
      · have same : (client.withPlayback (setPause speed backwards this)).mode.liveMode = true := live
        rw [if_pos live, if_pos same]
      · have other : ¬(client.withPlayback (setPause speed backwards this)).mode.liveMode = true := live
        rw [if_neg live, if_neg other, play_at_mode]
        have reset := reset_tuning_mode client (setPause speed backwards this)
        rw [← reset]
        rfl
    · rw [if_neg fast, if_neg fast, play_at_mode]
      rfl

theorem receive_mode (client : ModeClient) (message : ModeMessage) :
    (client.receive message).mode = client.mode.receive message := by
  cases message with
  | noVideo value => rfl
  | live value => exact live_mode_mode client client.playback value
  | still value => exact still_mode_mode client client.playback value
  | trickSpeed speed backwards => exact trick_speed_mode client client.playback speed backwards
  | hdMode value => rfl

theorem receive_all_mode (client : ModeClient) (messages : List ModeMessage) :
    (messages.foldl ModeClient.receive client).mode =
      messages.foldl ClientMode.receive client.mode := by
  induction messages generalizing client with
  | nil => rfl
  | cons message messages induction =>
      rw [List.foldl_cons, induction, receive_mode, List.foldl_cons]

/-! ## Agreement -/

def TrickPlays (speed : Int) : Prop := (1 < speed ∨ speed < -1) ∧ -64 ≤ speed ∧ speed ≤ 64

instance (speed : Int) : Decidable (TrickPlays speed) := by
  unfold TrickPlays
  infer_instance

def ModeServer.mode (server : ModeServer) : ClientMode where
  liveMode := server.liveMode
  stillMode := false
  noVideo := server.noVideo
  hdStream := server.hdMode
  isPaused := decide (server.trickSpeed = 0)
  isTrickspeed := !server.liveMode && decide (TrickPlays server.trickSpeed)

/-! What a message does to a client that shows no still image. -/

theorem no_video_spec (on : Bool) (mode : ClientMode) :
    mode.receive (.noVideo (bit on)) = { mode with noVideo := on } := by
  cases on with
  | false => rfl
  | true => rfl

theorem hd_mode_spec (on : Bool) (mode : ClientMode) :
    mode.receive (.hdMode (bit on)) = { mode with hdStream := on } := by
  cases on with
  | false => rfl
  | true => rfl

theorem live_spec (on : Bool) (mode : ClientMode) (moving : mode.stillMode = false) :
    mode.receive (.live (bit on)) = { mode with liveMode := on } := by
  obtain ⟨live, still, noVideo, hdStream, paused, trick⟩ := mode
  cases moving
  cases on with
  | false => rfl
  | true => rfl

theorem still_spec (on : Bool) (mode : ClientMode) (moving : mode.stillMode = false) :
    mode.receive (.still (bit on)) = { mode with stillMode := on && !mode.liveMode } := by
  obtain ⟨live, still, noVideo, hdStream, paused, trick⟩ := mode
  cases moving
  cases on with
  | false => cases live <;> rfl
  | true => cases live <;> rfl

theorem trick_spec (speed : Int) (mode : ClientMode) (moving : mode.stillMode = false) :
    mode.trick speed =
      if 64 < speed ∨ speed < -64 then mode
      else
        { mode with
          isPaused := decide (speed = 0)
          isTrickspeed :=
            if TrickPlays speed then !mode.liveMode || mode.isTrickspeed else false } := by
  obtain ⟨live, still, noVideo, hdStream, paused, trick⟩ := mode
  cases moving
  unfold ClientMode.trick
  by_cases outside : 64 < speed ∨ speed < -64
  · rw [if_pos outside, if_pos outside]
  · rw [if_neg outside, if_neg outside]
    by_cases fast : 1 < speed ∨ speed < -1
    · have plays : TrickPlays speed := ⟨fast, by omega⟩
      have nonzero : speed ≠ 0 := by omega
      cases live with
      | false => simp [fast, plays, nonzero, ClientMode.still]
      | true => simp [fast, plays, nonzero, ClientMode.still]
    · have slow : ¬TrickPlays speed := fun plays => fast plays.1
      by_cases zero : speed = 0
      · simp [zero, TrickPlays]
      · simp [fast, slow, zero, ClientMode.still]

theorem trick_plays_within {speed : Int} (plays : TrickPlays speed) :
    speed ≠ 0 ∧ ¬(64 < speed ∨ speed < -64) := by
  obtain ⟨fast, low, high⟩ := plays
  omega

theorem late_client_mode (server : ModeServer) : (lateClient server).mode = server.mode := by
  have told : ((ModeClient.init.mode.receive (.noVideo (bit server.noVideo))).receive
      (.live (bit server.liveMode))) =
        ⟨server.liveMode, false, server.noVideo, false, false, false⟩ := by
    rw [no_video_spec, live_spec _ _ rfl]
    rfl
  rw [lateClient, receive_all_mode]
  simp only [ModeServer.handleControlConfig, List.foldl_cons, List.foldl_nil]
  rw [told, hd_mode_spec, ClientMode.receive, trick_spec _ _ rfl, ModeServer.mode]
  by_cases plays : TrickPlays server.trickSpeed
  · obtain ⟨moving, within⟩ := trick_plays_within plays
    simp [plays, moving, within]
  · by_cases outside : 64 < server.trickSpeed ∨ server.trickSpeed < -64
    · have moving : server.trickSpeed ≠ 0 := by omega
      simp [plays, outside, moving]
    · simp [plays, outside]

/-- The calls that are remembered as they are played: no still image in replay mode, no change
of live mode at a trick speed, and no speed beyond 64 that would end a pause or a trick speed. -/
def ModeServer.Proper (server : ModeServer) : ModeCall → Prop
  | .setLiveMode on => on = server.liveMode ∨ ¬TrickPlays server.trickSpeed
  | .setStillMode on => on = false ∨ server.liveMode = true
  | .trickSpeed speed _ =>
      (-64 ≤ speed ∧ speed ≤ 64) ∨
        (server.trickSpeed ≠ 0 ∧ (server.liveMode = true ∨ ¬TrickPlays server.trickSpeed))
  | .setNoVideo _ | .setHdMode _ => True

/-- A client that has heard everything is where a new one would be led. -/
def ModeRun.Agrees (run : ModeRun) : Prop := run.client.mode = (lateClient run.server).mode

theorem call_modes (run : ModeRun) (call : ModeCall) (agrees : run.Agrees) :
    (run.call call).Agrees ↔
      (run.server.call call).2.foldl ClientMode.receive run.server.mode =
        (run.server.call call).1.mode := by
  rw [ModeRun.Agrees, late_client_mode] at agrees ⊢
  rw [ModeRun.call, receive_all_mode, agrees]

theorem live_call_iff (server : ModeServer) (on : Bool) :
    (server.call (.setLiveMode on)).2.foldl ClientMode.receive server.mode =
        (server.call (.setLiveMode on)).1.mode ↔
      server.Proper (.setLiveMode on) := by
  unfold ModeServer.call ModeServer.Proper
  by_cases same : server.liveMode = on
  · simp [same]
  · have changed : on = !server.liveMode := by
      cases live : server.liveMode <;> cases on <;> simp_all
    simp only [if_neg same, List.foldl_cons, List.foldl_nil]
    rw [live_spec on _ rfl, changed]
    by_cases plays : TrickPlays server.trickSpeed
    · cases live : server.liveMode <;> simp [ModeServer.mode, plays, live]
    · simp [ModeServer.mode, plays]

theorem still_call_iff (server : ModeServer) (on : Bool) :
    (server.call (.setStillMode on)).2.foldl ClientMode.receive server.mode =
        (server.call (.setStillMode on)).1.mode ↔
      server.Proper (.setStillMode on) := by
  simp only [ModeServer.call, List.foldl_cons, List.foldl_nil]
  rw [still_spec on _ rfl]
  cases on with
  | false => simp [ModeServer.mode, ModeServer.Proper]
  | true => cases live : server.liveMode <;> simp [ModeServer.mode, ModeServer.Proper, live]

theorem trick_call_iff (server : ModeServer) (speed : Int) (backwards : Bool) :
    (server.call (.trickSpeed speed backwards)).2.foldl ClientMode.receive server.mode =
        (server.call (.trickSpeed speed backwards)).1.mode ↔
      server.Proper (.trickSpeed speed backwards) := by
  simp only [ModeServer.call, List.foldl_cons, List.foldl_nil, ClientMode.receive]
  rw [trick_spec speed _ rfl]
  unfold ModeServer.mode ModeServer.Proper
  by_cases outside : 64 < speed ∨ speed < -64
  · have far : ¬(-64 ≤ speed ∧ speed ≤ 64) := by omega
    have moving : speed ≠ 0 := by omega
    have refused : ¬TrickPlays speed := fun plays => (trick_plays_within plays).2 outside
    cases live : server.liveMode <;> simp [outside, far, moving, refused]
  · have near : -64 ≤ speed ∧ speed ≤ 64 := by omega
    by_cases plays : TrickPlays speed
    · cases live : server.liveMode <;> simp [outside, near, plays]
    · simp [outside, near, plays]

theorem call_agrees_iff (run : ModeRun) (call : ModeCall) (agrees : run.Agrees) :
    (run.call call).Agrees ↔ run.server.Proper call := by
  rw [call_modes run call agrees]
  cases call with
  | setLiveMode on => exact live_call_iff run.server on
  | setStillMode on => exact still_call_iff run.server on
  | setNoVideo on =>
      unfold ModeServer.call ModeServer.Proper
      by_cases same : run.server.noVideo = on
      · simp [same]
      · simp only [if_neg same, List.foldl_cons, List.foldl_nil, iff_true]
        rw [no_video_spec]
        rfl
  | setHdMode on =>
      simp only [ModeServer.call, ModeServer.Proper, List.foldl_cons, List.foldl_nil, iff_true]
      rw [hd_mode_spec]
      rfl
  | trickSpeed speed backwards => exact trick_call_iff run.server speed backwards

theorem start_agrees : ModeRun.start.Agrees := rfl

/-- Throughout a history a new client would end in the modes of one that was connected from
the start, exactly if every call is one of those that are remembered as they are played. -/
theorem late_client_agrees_iff (calls : List ModeCall) :
    (∀ count ≤ calls.length, ((calls.take count).foldl ModeRun.call .start).Agrees) ↔
      ∀ (count : Nat) (within : count < calls.length),
        ((calls.take count).foldl ModeRun.call .start).server.Proper calls[count] :=
  Machine.foldl_invariant_iff start_agrees call_agrees_iff calls

/-- A still image in replay mode, a trick speed that live mode comes after, and a speed that
no client accepts. -/
theorem history_lost_on_late_client :
    ¬([.setLiveMode false, .setStillMode true].foldl ModeRun.call .start).Agrees ∧
      ¬([.setLiveMode false, .trickSpeed 4 false, .setLiveMode true].foldl
        ModeRun.call .start).Agrees ∧
      ¬([.trickSpeed 0 false, .trickSpeed 100 false].foldl ModeRun.call .start).Agrees := by
  unfold ModeRun.Agrees
  exact ⟨by decide, by decide, by decide⟩

end Xineliboutput.Server
