import Xineliboutput.Udp.SchedulerQueue

/-!
# Stream positions of padding frames

A padding frame is meant to end where the last media frame ended, so that it does
not move the stream position. `QueuePaddingInternal` takes that position from the
slot behind the next frame to send. This is the last frame that was sent, so the
position is the right one as long as no media frame is still waiting and the
last frame sent is not a control message.
-/

namespace Xineliboutput.Udp

open Xineliboutput.Foundation Xineliboutput.StreamHeaders

set_option autoImplicit false

def Frame.isMedia (frame : Frame) : Bool := frame.stream == StreamId.sidVdr.byte

def Frame.isPadding (frame : Frame) : Bool := frame.stream == StreamId.sidPadding.byte

def Frame.isControl (frame : Frame) : Bool := frame.stream == StreamId.sidControl.byte

def lastMediaEnd (frames : List Frame) : Option Nat :=
  ((frames.filter Frame.isMedia).getLast?).map Frame.endPos

/-- Every padding frame ends where the last media frame queued before it ends. -/
def PaddingInPlace (frames : List Frame) : Prop :=
  EachAfter (fun before frame => frame.isPadding = true →
    ∀ position ∈ lastMediaEnd before, frame.endPos = position) frames

def EndsNeverDecrease (frames : List Frame) : Prop :=
  ((frames.filter fun frame => !frame.isControl).map Frame.endPos).Pairwise (· ≤ ·)

def Contiguous (frames : List Frame) : Prop :=
  EachAfter (fun before frame => frame.isMedia = true →
    frame.pos + frame.payload.length < 2 ^ 64 ∧
      ∀ position ∈ lastMediaEnd before, frame.pos = position) frames

/-- Where padding was sent ahead of all media, at position 0, the first media
frame ends behind it. -/
def MediaBehindEarlyPadding (frames : List Frame) : Prop :=
  EachAfter (fun before frame => frame.isMedia = true → lastMediaEnd before = none →
    (∃ early ∈ before, early.isPadding = true) → 8 ≤ frame.endPos) frames

instance (frames : List Frame) : Decidable (PaddingInPlace frames) :=
  inferInstanceAs (Decidable (EachAfter _ frames))

instance (frames : List Frame) : Decidable (Contiguous frames) :=
  inferInstanceAs (Decidable (EachAfter _ frames))

instance (frames : List Frame) : Decidable (MediaBehindEarlyPadding frames) :=
  inferInstanceAs (Decidable (EachAfter _ frames))

instance (frames : List Frame) : Decidable (EndsNeverDecrease frames) :=
  inferInstanceAs (Decidable (List.Pairwise _ _))

namespace Scheduler

/-- What a streaming session does: media frames of the primary stream, control
messages at position -1, padding, and the work of the sending thread. -/
inductive Streaming : Operation → Prop where
  | addHandle (fd : Int) (sendBuffer : Option Nat) : Streaming (.addHandle fd sendBuffer)
  | poll (master : Bool) : Streaming (.poll master)
  | media (streamPos : Nat) (data : List UInt8) : Streaming (.queue .sidVdr streamPos data)
  | control (data : List UInt8) : Streaming (.queue .sidControl controlPos data)
  | queuePadding : Streaming .queuePadding
  | startWaiting : Streaming .startWaiting
  | wake : Streaming .wake
  | take : Streaming .take
  | transmit : Streaming .transmit

def streamingMachine : Machine Scheduler (Operation × Effect) where
  initial := machine.initial
  step scheduler label next := machine.step scheduler label next ∧ Streaming label.1

/-- The frames queued, and those sent, in the order it happened. -/
def queuedFrames (labels : List (Operation × Effect)) : List Frame :=
  (labels.filterMap observe).filterMap Fifo.put?

def sentFrames (labels : List (Operation × Effect)) : List Frame :=
  (labels.filterMap observe).filterMap Fifo.handed?

/-- No media frame waits, and the frame behind the next one to send is no control
message. -/
def CalmForPadding (scheduler : Scheduler) : Prop :=
  (∀ place, place < scheduler.queuePending →
    ∀ frame ∈ scheduler.backLog.get (scheduler.queueNextSeq + place), frame.isMedia = false) ∧
  ∀ frame ∈ scheduler.backLog.get ((scheduler.queueNextSeq + udpBufferSize - 1) % 256),
    frame.isControl = false

instance (scheduler : Scheduler) : Decidable scheduler.CalmForPadding :=
  inferInstanceAs (Decidable (_ ∧ _))

def Effect.pads : Effect → Bool
  | .queued frame => frame.isPadding
  | .refused | .taken _ | .transmitted _ | .flushed | .unchanged => false

/-- Streaming in which padding is only ever queued at a calm moment. -/
def calmMachine : Machine Scheduler (Operation × Effect) where
  initial := machine.initial
  step scheduler label next := streamingMachine.step scheduler label next ∧
    (label.2.pads = true → scheduler.CalmForPadding)

end Scheduler

theorem last_media_end_snoc (frames : List Frame) (frame : Frame) :
    lastMediaEnd (frames ++ [frame]) =
      if frame.isMedia then some frame.endPos else lastMediaEnd frames := by
  cases media : frame.isMedia with
  | true => simp [lastMediaEnd, media]
  | false => simp [lastMediaEnd, media]

theorem last_media_end_append (frames more : List Frame)
    (noMedia : ∀ frame ∈ more, frame.isMedia = false) :
    lastMediaEnd (frames ++ more) = lastMediaEnd frames := by
  have none_left : more.filter Frame.isMedia = [] := by
    simpa [List.filter_eq_nil_iff] using noMedia
  simp [lastMediaEnd, none_left]

/-- Where padding belongs: at the end of the media so far, and at the end of the
first padding frame, which is 8 bytes long, before there is any. -/
def paddingEnd (frames : List Frame) : Nat := (lastMediaEnd frames).getD 8

def PaddingAtEnd (frames : List Frame) : Prop :=
  EachAfter (fun before frame => frame.isPadding = true → frame.endPos = paddingEnd before) frames

theorem PaddingAtEnd.in_place {frames : List Frame} (placed : PaddingAtEnd frames) :
    PaddingInPlace frames := by
  intro place bound isPadding position found
  rw [placed place bound isPadding, paddingEnd, Option.mem_def.mp found, Option.getD_some]

theorem media_not_control {frame : Frame} (media : frame.isMedia = true) :
    frame.isControl = false := by
  simp only [Frame.isMedia, Frame.isControl, StreamId.byte, beq_iff_eq] at media ⊢
  rw [media]
  decide

theorem media_not_padding {frame : Frame} (media : frame.isMedia = true) :
    frame.isPadding = false := by
  simp only [Frame.isMedia, Frame.isPadding, StreamId.byte, beq_iff_eq] at media ⊢
  rw [media]
  decide

def Frame.KnownStream (frame : Frame) : Prop :=
  frame.isMedia = true ∨ frame.isPadding = true ∨ frame.isControl = true

theorem not_control_padding {frame : Frame} (known : frame.KnownStream)
    (media : frame.isMedia = false) (control : frame.isControl = false) :
    frame.isPadding = true := by
  rcases known with isMedia | isPadding | isControl
  · simp [media] at isMedia
  · exact isPadding
  · simp [control] at isControl

def EndsBounded (frames : List Frame) : Prop :=
  ∀ frame ∈ frames, frame.isControl = false → frame.endPos ≤ paddingEnd frames

/-- A new frame ends no earlier than anything before it, and the mark follows it. -/
theorem new_frame_advances {frames : List Frame} {last : Frame}
    (known : ∀ frame ∈ frames, frame.KnownStream) (lastKnown : last.KnownStream)
    (bounded : EndsBounded frames)
    (placed : last.isPadding = true → last.endPos = paddingEnd frames)
    (starts : last.isMedia = true → last.pos + last.payload.length < 2 ^ 64 ∧
      ∀ position ∈ lastMediaEnd frames, last.pos = position)
    (behind : last.isMedia = true → lastMediaEnd frames = none →
      (∃ early ∈ frames, early.isPadding = true) → 8 ≤ last.endPos)
    (notControl : last.isControl = false) :
    paddingEnd (frames ++ [last]) = last.endPos ∧
      ∀ frame ∈ frames, frame.isControl = false → frame.endPos ≤ last.endPos := by
  cases media : last.isMedia with
  | false =>
      have lastEnd := placed (not_control_padding lastKnown media notControl)
      refine ⟨?_, ?_⟩
      · rw [paddingEnd, last_media_end_snoc, media, lastEnd]
        rfl
      · intro frame member frameNotControl
        rw [lastEnd]
        exact bounded frame member frameNotControl
  | true =>
      obtain ⟨fits, start⟩ := starts media
      refine ⟨by rw [paddingEnd, last_media_end_snoc, media]; rfl, ?_⟩
      intro frame member frameNotControl
      have before := bounded frame member frameNotControl
      cases mark : lastMediaEnd frames with
      | some position =>
          rw [paddingEnd, mark, Option.getD_some] at before
          have begins := start position mark
          simp only [Frame.endPos] at before ⊢
          omega
      | none =>
          rw [paddingEnd, mark, Option.getD_none] at before
          have frameMedia : frame.isMedia = false := by
            by_contra isMedia
            simp only [lastMediaEnd, Option.map_eq_none_iff, List.getLast?_eq_none_iff,
              List.filter_eq_nil_iff] at mark
            exact mark frame member (by simpa using isMedia)
          have isPadding := not_control_padding (known frame member) frameMedia frameNotControl
          exact before.trans (behind media mark ⟨frame, member, isPadding⟩)

/-- The ends are also in order. The induction adds one frame at the end of the history. -/
theorem ends_never_decrease {frames : List Frame} (known : ∀ frame ∈ frames, frame.KnownStream)
    (placed : PaddingAtEnd frames) (contiguous : Contiguous frames)
    (behind : MediaBehindEarlyPadding frames) :
    EndsNeverDecrease frames ∧ EndsBounded frames := by
  induction frames using List.reverseRecOn with
  | nil => exact ⟨List.Pairwise.nil, by simp [EndsBounded]⟩
  | append_singleton frames last ih =>
      obtain ⟨placedBefore, placedLast⟩ := each_after_snoc.mp placed
      obtain ⟨contiguousBefore, contiguousLast⟩ := each_after_snoc.mp contiguous
      obtain ⟨behindBefore, behindLast⟩ := each_after_snoc.mp behind
      have knownBefore : ∀ frame ∈ frames, frame.KnownStream :=
        fun frame member => known frame (by simp [member])
      obtain ⟨ordered, bounded⟩ := ih knownBefore placedBefore contiguousBefore behindBefore
      cases control : last.isControl with
      | true =>
          have notMedia : last.isMedia = false := by
            by_contra isMedia
            rw [media_not_control (by simpa using isMedia)] at control
            simp at control
          have sameMark : paddingEnd (frames ++ [last]) = paddingEnd frames := by
            rw [paddingEnd, last_media_end_snoc, notMedia]
            rfl
          refine ⟨?_, ?_⟩
          · simpa [EndsNeverDecrease, control] using ordered
          · intro frame member frameNotControl
            rw [sameMark]
            rcases List.mem_append.mp member with earlier | isLast
            · exact bounded frame earlier frameNotControl
            · rw [List.mem_singleton.mp isLast, control] at frameNotControl
              simp at frameNotControl
      | false =>
          obtain ⟨mark, above⟩ := new_frame_advances knownBefore (known last (by simp)) bounded
            placedLast contiguousLast behindLast control
          refine ⟨?_, ?_⟩
          · simp only [EndsNeverDecrease, List.filter_append, List.map_append,
              List.pairwise_append]
            refine ⟨ordered, by simp [control], ?_⟩
            intro earlier earlierMember late lateMember
            simp only [List.mem_map, List.mem_filter, Bool.not_eq_true'] at earlierMember
            obtain ⟨frame, ⟨member, frameNotControl⟩, rfl⟩ := earlierMember
            simp only [List.filter_cons, control, Bool.not_false, if_true, List.filter_nil,
              List.map_cons, List.map_nil, List.mem_singleton] at lateMember
            rw [lateMember]
            exact above frame member frameNotControl
          · intro frame member frameNotControl
            rw [mark]
            rcases List.mem_append.mp member with earlier | isLast
            · exact above frame earlier frameNotControl
            · rw [List.mem_singleton.mp isLast]

namespace Scheduler

def takenFrames (labels : List (Operation × Effect)) : List Frame :=
  (labels.filterMap observe).filterMap Fifo.taken?

def previous (scheduler : Scheduler) : Option Frame :=
  scheduler.backLog.get (scheduler.queueNextSeq + 255)

theorem previous_append {scheduler : Scheduler} {model : Fifo Frame}
    (related : Represents scheduler model) (stream : StreamId) (streamPos : Nat)
    (data : List UInt8) :
    (scheduler.append stream streamPos data).previous = scheduler.previous := by
  have numbering := related.numbering
  have limited := related.limited
  have nextBound := related.nextBound
  simp only [maxLiveQueueSize] at limited
  simp only [previous, append]
  rw [BackLog.get_make_frame, if_neg (by omega)]

/-- What one operation of a session does to the queue and to the slot behind it. -/
def SessionEffect (scheduler next : Scheduler) : Effect → Prop
  | .queued frame => frame.KnownStream ∧
      (frame.isPadding = true →
        frame = scheduler.backLog.frameFor .sidPadding scheduler.paddingPos padding) ∧
      next.previous = scheduler.previous
  | .taken frame => next.previous = some frame
  | .flushed => False
  | .refused | .transmitted _ | .unchanged => next.previous = scheduler.previous

theorem frame_for_media (backLog : BackLog) (streamPos : Nat) (data : List UInt8) :
    (backLog.frameFor .sidVdr streamPos data).isMedia = true := rfl

theorem frame_for_control (backLog : BackLog) (streamPos : Nat) (data : List UInt8) :
    (backLog.frameFor .sidControl streamPos data).isControl = true := rfl

theorem frame_for_padding (backLog : BackLog) (streamPos : Nat) (data : List UInt8) :
    (backLog.frameFor .sidPadding streamPos data).isPadding = true := rfl

theorem session_effect {scheduler next : Scheduler} {model : Fifo Frame} {operation : Operation}
    {effect : Effect} (related : Represents scheduler model) (streaming : Streaming operation)
    (performed : scheduler.perform operation = some (next, effect)) :
    SessionEffect scheduler next effect := by
  cases perform_cases performed with
  | aside operation nothing same thread =>
      have unmoved : next.previous = scheduler.previous := by
        rw [previous, same.backLog, same.queueNextSeq, previous]
      rcases nothing with rfl | rfl <;> exact unmoved
  | queues stream streamPos data room =>
      have unmoved := previous_append related stream streamPos data
      cases streaming with
      | media =>
          have media := frame_for_media scheduler.backLog streamPos data
          exact ⟨.inl media, by simp [media_not_padding media], unmoved⟩
      | control =>
          refine ⟨.inr (.inr (frame_for_control _ _ _)), ?_, unmoved⟩
          simp [Frame.isPadding, BackLog.frameFor, StreamId.byte]
  | pads room =>
      exact ⟨.inr (.inl (frame_for_padding _ _ _)), fun _ => rfl, previous_append related _ _ _⟩
  | padsIdle waiting drained =>
      exact ⟨.inr (.inl (frame_for_padding _ _ _)), fun _ => rfl, previous_append related _ _ _⟩
  | takes ready found some_pending =>
      simp only [SessionEffect, previous]
      rw [← found]
      apply BackLog.get_congr
      omega
  | clears => cases streaming
  | flushes fd nanoseconds idle => cases streaming
  | waits ready => rfl
  | wakes waiting => rfl
  | transmits sends found => rfl

/-- At a calm moment the slot behind the next frame gives the right position. -/
theorem padding_at_end {scheduler : Scheduler} {model : Fifo Frame} {taken : List Frame}
    (related : Represents scheduler model) (calm : scheduler.CalmForPadding)
    (behind : scheduler.previous = taken.getLast?)
    (known : ∀ frame ∈ taken, frame.KnownStream)
    (placed : PaddingAtEnd (taken ++ model.waiting)) :
    (scheduler.backLog.frameFor .sidPadding scheduler.paddingPos padding).endPos =
      paddingEnd (taken ++ model.waiting) := by
  obtain ⟨noMediaWaits, notControl⟩ := calm
  have waitingSilent : ∀ frame ∈ model.waiting, frame.isMedia = false := by
    intro frame member
    obtain ⟨place, bound, rfl⟩ := List.getElem_of_mem member
    have stored := related.stored place (by rw [← related.pending]; exact bound)
    rw [List.getElem?_eq_getElem bound] at stored
    exact noMediaWaits place (by rw [← related.pending]; exact bound) _ stored
  have mark : paddingEnd (taken ++ model.waiting) = paddingEnd taken := by
    rw [paddingEnd, last_media_end_append _ _ waitingSilent, paddingEnd]
  have slot : scheduler.backLog.get ((scheduler.queueNextSeq + udpBufferSize - 1) % 256) =
      taken.getLast? := by
    rw [← behind, previous]
    apply BackLog.get_congr
    simp only [udpBufferSize]
    omega
  rw [mark]
  cases taken using List.reverseRecOn with
  | nil =>
      simp only [List.getLast?_nil] at slot
      simp [Frame.endPos, BackLog.frameFor, paddingPos, slot, padding, paddingEnd, lastMediaEnd]
  | append_singleton before frame =>
      rw [List.getLast?_append, List.getLast?_singleton, Option.some_or] at slot
      have ends : (scheduler.backLog.frameFor .sidPadding scheduler.paddingPos padding).endPos =
          frame.endPos := by
        simp only [Frame.endPos, BackLog.frameFor, paddingPos, slot,
          scheduler.backLog.payload_size_eq slot, padding, List.length_cons, List.length_nil]
        omega
      rw [ends, paddingEnd, last_media_end_snoc]
      cases media : frame.isMedia with
      | true => rfl
      | false =>
          have isPadding := not_control_padding (known frame (by simp)) media
            (notControl frame slot)
          rw [List.append_assoc] at placed
          exact each_after_split placed isPadding

theorem calm_step {scheduler next : Scheduler} {operation : Operation} {effect : Effect}
    (performed : scheduler.perform operation = some (next, effect))
    (streaming : Streaming operation)
    (calm : effect.pads = true → scheduler.CalmForPadding) :
    calmMachine.step scheduler (operation, effect) next :=
  ⟨⟨performed, streaming⟩, calm⟩

theorem streaming_run {labels : List (Operation × Effect)} {scheduler : Scheduler}
    (run : streamingMachine.Run labels scheduler) : machine.Run labels scheduler := by
  apply run.mono
  · exact fun _ initially => initially
  · exact fun _ _ _ step => step.1

theorem calm_streaming {labels : List (Operation × Effect)} {scheduler : Scheduler}
    (run : calmMachine.Run labels scheduler) : streamingMachine.Run labels scheduler := by
  apply run.mono
  · exact fun _ initially => initially
  · exact fun _ _ _ step => step.1

theorem streaming_keeps {labels : List (Operation × Effect)} {scheduler : Scheduler}
    (run : streamingMachine.Run labels scheduler) :
    ∀ move ∈ labels.filterMap observe, Fifo.isGiveUp move = false := by
  induction run with
  | start initially => simp
  | @snoc labels scheduler prior label next move ih =>
      obtain ⟨operation, effect⟩ := label
      obtain ⟨performed, streaming⟩ := move
      obtain ⟨model, -, related⟩ := simulates_fifo.run (streaming_run prior)
      have result := session_effect related streaming performed
      rw [List.filterMap_append]
      intro step member
      rcases List.mem_append.mp member with earlier | last
      · exact ih step earlier
      · obtain ⟨_, isLast, seen⟩ := List.mem_filterMap.mp last
        obtain rfl := List.mem_singleton.mp isLast
        cases effect with
        | flushed => exact result.elim
        | refused | unchanged => simp [observe] at seen
        | queued frame | taken frame | transmitted frame =>
            obtain rfl := Option.some.inj seen
            rfl

theorem sent_of_queued {labels : List (Operation × Effect)} {scheduler : Scheduler}
    (run : streamingMachine.Run labels scheduler) :
    ∃ rest, queuedFrames labels = sentFrames labels ++ rest := by
  obtain ⟨model, queueRun, -⟩ := simulates_fifo.run (streaming_run run)
  have inOrder := Fifo.taken_append_waiting queueRun (streaming_keeps run)
  have handed := Fifo.handed_append_transit queueRun
  refine ⟨model.inTransit.toList ++ model.waiting, ?_⟩
  rw [queuedFrames, ← inOrder, ← handed, List.append_assoc, sentFrames]

theorem queued_frames_snoc (labels : List (Operation × Effect)) (label : Operation × Effect) :
    queuedFrames (labels ++ [label]) =
      queuedFrames labels ++ ((observe label).bind Fifo.put?).toList := by
  simp only [queuedFrames, List.filterMap_filterMap, List.filterMap_append]
  rfl

theorem taken_frames_snoc (labels : List (Operation × Effect)) (label : Operation × Effect) :
    takenFrames (labels ++ [label]) =
      takenFrames labels ++ ((observe label).bind Fifo.taken?).toList := by
  simp only [takenFrames, List.filterMap_filterMap, List.filterMap_append]
  rfl

structure CalmHistory (labels : List (Operation × Effect)) (scheduler : Scheduler) : Prop where
  behind : scheduler.previous = (takenFrames labels).getLast?
  known : ∀ frame ∈ queuedFrames labels, frame.KnownStream
  placed : PaddingAtEnd (queuedFrames labels)

theorem CalmHistory.unqueued {labels : List (Operation × Effect)} {scheduler next : Scheduler}
    (history : CalmHistory labels scheduler) {label : Operation × Effect}
    (nothing : (observe label).bind Fifo.put? = none)
    (behind : next.previous = (takenFrames (labels ++ [label])).getLast?) :
    CalmHistory (labels ++ [label]) next := by
  have same : queuedFrames (labels ++ [label]) = queuedFrames labels := by
    rw [queued_frames_snoc, nothing, Option.toList, List.append_nil]
  exact ⟨behind, by rw [same]; exact history.known, by rw [same]; exact history.placed⟩

theorem calm_history {labels : List (Operation × Effect)} {scheduler : Scheduler}
    (run : calmMachine.Run labels scheduler) : CalmHistory labels scheduler := by
  induction run with
  | start initially =>
      obtain ⟨nanoseconds, rfl⟩ := initially
      exact {
        behind := by simp [previous, new, takenFrames]
        known := by simp [queuedFrames]
        placed := each_after_nil _ }
  | @snoc labels scheduler prior label next move history =>
      obtain ⟨operation, effect⟩ := label
      obtain ⟨⟨performed, streaming⟩, calm⟩ := move
      have streamed := calm_streaming prior
      obtain ⟨model, queueRun, related⟩ := simulates_fifo.run (streaming_run streamed)
      have inOrder : takenFrames labels ++ model.waiting = queuedFrames labels :=
        Fifo.taken_append_waiting queueRun (streaming_keeps streamed)
      have result := session_effect related streaming performed
      have unmoved (same : next.previous = scheduler.previous)
          (untaken : (observe (operation, effect)).bind Fifo.taken? = none) :
          next.previous = (takenFrames (labels ++ [(operation, effect)])).getLast? := by
        rw [same, history.behind, taken_frames_snoc, untaken, Option.toList, List.append_nil]
      cases effect with
      | queued frame =>
          obtain ⟨knownFrame, shape, same⟩ := result
          have frames : queuedFrames (labels ++ [(operation, .queued frame)]) =
              queuedFrames labels ++ [frame] := queued_frames_snoc _ _
          refine ⟨unmoved same rfl, ?_, ?_⟩
          · rw [frames]
            intro other member
            rcases List.mem_append.mp member with earlier | isLast
            · exact history.known other earlier
            · exact List.mem_singleton.mp isLast ▸ knownFrame
          · rw [frames]
            refine each_after_snoc.mpr ⟨history.placed, ?_⟩
            intro isPadding
            rw [shape isPadding, ← inOrder]
            refine padding_at_end related (calm isPadding) history.behind ?_ ?_
            · intro other member
              exact history.known other (inOrder ▸ List.mem_append_left _ member)
            · rw [inOrder]
              exact history.placed
      | taken frame =>
          apply history.unqueued rfl
          have last : next.previous = some frame := result
          rw [last, taken_frames_snoc]
          simp [observe, Fifo.taken?]
      | flushed => exact result.elim
      | transmitted frame => exact history.unqueued rfl (unmoved result rfl)
      | refused => exact history.unqueued rfl (unmoved result rfl)
      | unchanged => exact history.unqueued rfl (unmoved result rfl)

theorem padding_keeps_position {labels : List (Operation × Effect)} {scheduler : Scheduler}
    (run : calmMachine.Run labels scheduler) (contiguous : Contiguous (queuedFrames labels))
    (behind : MediaBehindEarlyPadding (queuedFrames labels)) :
    PaddingInPlace (queuedFrames labels) ∧ EndsNeverDecrease (sentFrames labels) := by
  have history := calm_history run
  obtain ⟨ordered, -⟩ := ends_never_decrease history.known history.placed contiguous behind
  refine ⟨history.placed.in_place, ?_⟩
  obtain ⟨rest, sent⟩ := sent_of_queued (calm_streaming run)
  rw [sent] at ordered
  simp only [EndsNeverDecrease, List.filter_append, List.map_append,
    List.pairwise_append] at ordered
  exact ordered.1

theorem padding_keeps_position_idle :
    ∃ labels scheduler, calmMachine.Run labels scheduler ∧ (sentFrames labels).length = 2 ∧
      PaddingInPlace (queuedFrames labels) ∧ EndsNeverDecrease (sentFrames labels) := by
  have begun : calmMachine.Run [] (new 7) := .start ⟨7, rfl⟩
  have connected := begun.snoc (calm_step rfl (.addHandle 5 none) (by decide +kernel))
  have streamed := connected.snoc
    (calm_step rfl (.media 0 (List.replicate 188 0x47)) (by decide +kernel))
  have drained := (streamed.snoc (calm_step rfl .take (by decide +kernel))).snoc
    (calm_step rfl .transmit (by decide +kernel))
  have idle := (drained.snoc (calm_step rfl .startWaiting (by decide +kernel))).snoc
    (calm_step rfl .wake (by decide +kernel))
  have padded := (idle.snoc (calm_step rfl .take (by decide +kernel))).snoc
    (calm_step rfl .transmit (by decide +kernel))
  exact ⟨_, _, padded, by decide +kernel,
    padding_keeps_position padded (by decide +kernel) (by decide +kernel)⟩

/-- Padding queued behind a waiting media frame takes the position of whatever
was sent before that frame. -/
theorem padding_moves_position :
    ¬ ∀ labels scheduler, streamingMachine.Run labels scheduler →
      Contiguous (queuedFrames labels) →
        PaddingInPlace (queuedFrames labels) ∧ EndsNeverDecrease (sentFrames labels) := by
  intro claimed
  have run := Machine.Run.drive streamingMachine
    [.addHandle 5 none, .queue .sidVdr 0 (List.replicate 188 0x47), .queuePadding,
      .take, .transmit, .take, .transmit]
    (by
      intro scheduler next effect operation member performed
      refine ⟨performed, ?_⟩
      simp only [List.mem_cons, List.not_mem_nil, or_false] at member
      rcases member with rfl | rfl | rfl | rfl | rfl | rfl | rfl
      · exact .addHandle _ _
      · exact .media _ _
      · exact .queuePadding
      · exact .take
      · exact .transmit
      · exact .take
      · exact .transmit)
    (.start ⟨7, rfl⟩) rfl
  have held := claimed _ _ run (by decide +kernel)
  revert held
  decide +kernel

end Scheduler
end Xineliboutput.Udp
