import Xineliboutput.Udp.BackLog
import Xineliboutput.Udp.MissingText

/-!
# Answering a retransmission request

`cUdpScheduler::ReSend` sends what the backlog still holds of a requested range
and reports the rest as missing. A frame counts as held when its position is that
of the stream so far or a little behind it. The answer covers the requested range
exactly, but the number in front of a report is written as it is counted, so it
runs on past 255 where the range wraps.
-/

namespace Xineliboutput.Udp

open Xineliboutput.Foundation Xineliboutput.StreamHeaders

set_option autoImplicit false

/-- A datagram sent to one client: a frame of the backlog, or `udp_ctrl`. -/
inductive Datagram where
  | stored (frame : Frame)
  | control (payload : List UInt8)
  deriving DecidableEq

def Datagram.bytes : Datagram → List UInt8
  | .stored frame => frame.udpPacket
  | .control payload => udpHeader controlPos 0xffff 0 ++ payload

def controlPayload : List UInt8 := List.replicate (64 - udpHeaderSize) 0

/-- `priv_ntohull(frame->hdr_ext.pos) - Pos < 100000`, unsigned. -/
def Frame.near (frame : Frame) (pos : Nat) : Bool := (frame.pos + 2 ^ 64 - pos) % 2 ^ 64 < 100000

namespace BackLog

/-- The frame of that number, if it belongs to the stream behind `pos`. -/
def getBehind (backLog : BackLog) (pos number : Nat) : Option Frame :=
  (backLog.get number).filter fun frame => frame.near pos

/-- The inner loop: go on to the last number in front of a frame that is held. -/
def skipLost (backLog : BackLog) (pos : Nat) : Nat → Nat → Nat
  | 0, seq1 => seq1
  | left + 1, seq1 =>
      match backLog.getBehind pos (seq1 + 1) with
      | some _ => seq1
      | none => skipLost backLog pos left (seq1 + 1)

/-- The outer loop. The control datagram is filled in again for each report. -/
def reSendRange (backLog : BackLog) (seq2 : Nat) : Nat → Nat → Nat → List UInt8 → List Datagram
  | 0, _, _, _ => []
  | left + 1, seq1, pos, payload =>
      if seq2 < seq1 then []
      else
        match backLog.getBehind pos seq1 with
        | some frame =>
            .stored frame ::
              reSendRange backLog seq2 left (seq1 + 1)
                ((frame.pos + backLog.payloadSize seq1) % 2 ^ 64) payload
        | none =>
            let last := backLog.skipLost pos (seq2 - seq1) seq1
            let report := snprintf payload (missingText seq1 (last % 256) pos)
            .control report :: reSendRange backLog seq2 left (last + 1) pos report

/-- `ReSend`. What `send` answers only matters to the log. -/
def reSend (backLog : BackLog) (fd : Int) (pos seq1 seq2 : Nat) : List Datagram :=
  if fd < 0 then []
  else
    let seq2 := if seq2 < seq1 then seq2 + udpBufferSize else seq2
    if 64 < seq2 - seq1 then
      [.control (snprintf controlPayload (missingText seq1 (seq2 % 256) pos))]
    else backLog.reSendRange seq2 (seq2 + 1 - seq1) seq1 pos controlPayload

end BackLog

/-- `Handle_Control_UDP_RESEND` for one client; `none` is a rejected request. -/
def handleControlUdpResend (backLog : BackLog) (fdData : Int) (udp multicast : Bool)
    (streamPos : Nat) (arg : List UInt8) : Option (List Datagram) :=
  if (fdData == 0 || !udp) && !multicast then none
  else
    match scanRange arg with
    | (some seq1, some seq2, some pos) =>
        let seq1 := (seq1 % 2 ^ 32).toNat
        let seq2 := (seq2 % 2 ^ 32).toNat
        if seq1 ≤ udpSeqMask ∧ seq2 ≤ udpSeqMask ∧ pos ≤ streamPos then
          some (backLog.reSend (if 0 ≤ fdData then fdData else -1) pos seq1 seq2)
        else none
    | _ => none

theorem handle_resend_accepted {backLog : BackLog} {fdData : Int} {udp multicast : Bool}
    {streamPos : Nat} {arg : List UInt8} {answers : List Datagram}
    (accepted : handleControlUdpResend backLog fdData udp multicast streamPos arg =
      some answers) :
    ∃ fd pos seq1 seq2, pos ≤ streamPos ∧ seq1 ≤ 255 ∧ seq2 ≤ 255 ∧
      answers = backLog.reSend fd pos seq1 seq2 := by
  simp only [handleControlUdpResend] at accepted
  split at accepted
  · simp at accepted
  · split at accepted
    · split at accepted
      · rename_i bounds
        obtain ⟨firstBound, lastBound, posBound⟩ := bounds
        exact ⟨_, _, _, _, posBound, firstBound, lastBound, (Option.some.inj accepted).symm⟩
      · simp at accepted
    · simp at accepted

/-! ## What an answer covers -/

def numbersFrom (first count : Nat) : List Nat :=
  (List.range count).map fun step => (first + step) % 256

/-- The sequence numbers from `first` up to `last`, both included, across the wrap. -/
def cyclicRange (first last : Int) : List Nat :=
  (List.range (((last - first) % 256).toNat + 1)).map fun step : Nat => ((first + step) % 256).toNat

/-- The range a datagram reports as missing, as the client reads it. -/
def Datagram.reported : Datagram → Option (Int × Int × Nat)
  | .stored _ => none
  | .control payload => readMissing payload

def Datagram.numbers (datagram : Datagram) : List Nat :=
  match datagram with
  | .stored frame => [frame.seq]
  | .control _ =>
      match datagram.reported with
      | some (first, last, _) => cyclicRange first last
      | none => []

/-- Both ends of a report are sequence numbers, and a client that waits for the
first frame it is about takes it for that frame. -/
def Datagram.Understood (datagram : Datagram) : Prop :=
  ∀ report ∈ datagram.reported,
    (0 ≤ report.1 ∧ report.1 ≤ 255) ∧ (0 ≤ report.2.1 ∧ report.2.1 ≤ 255) ∧
      ∀ nextSeq ∈ datagram.numbers.head?, report.1 = (nextSeq : Int)

instance (datagram : Datagram) : Decidable datagram.Understood :=
  inferInstanceAs (Decidable (∀ report ∈ datagram.reported, _))

theorem numbers_from_add (first left right : Nat) :
    numbersFrom first (left + right) =
      numbersFrom first left ++ numbersFrom (first + left) right := by
  simp [numbersFrom, List.range_add, Nat.add_assoc]

theorem cyclic_range_eq (first last : Nat) (ordered : first ≤ last) (short : last < first + 256) :
    cyclicRange first ((last % 256 : Nat) : Int) = numbersFrom first (last + 1 - first) := by
  have count : (((last % 256 : Nat) - (first : Int)) % 256).toNat + 1 = last + 1 - first := by
    omega
  rw [cyclicRange, numbersFrom, count]
  apply List.map_congr_left
  intro step _
  omega

namespace BackLog

theorem recall_seq (backLog : BackLog) {pos number : Nat} {frame : Frame}
    (found : backLog.getBehind pos number = some frame) :
    frame.seq = number % 256 := by
  rw [getBehind, Option.filter_eq_some_iff] at found
  exact backLog.get_seq found.1

theorem skip_lost_spec (backLog : BackLog) (pos left seq1 : Nat) :
    seq1 ≤ backLog.skipLost pos left seq1 ∧ backLog.skipLost pos left seq1 ≤ seq1 + left ∧
    (∀ number, seq1 < number → number ≤ backLog.skipLost pos left seq1 →
      backLog.getBehind pos number = none) ∧
    (backLog.skipLost pos left seq1 < seq1 + left →
      (backLog.getBehind pos (backLog.skipLost pos left seq1 + 1)).isSome) := by
  induction left generalizing seq1 with
  | zero =>
      simp only [skipLost]
      refine ⟨Nat.le_refl _, by omega, ?_, by omega⟩
      intro number greater within
      omega
  | succ left ih =>
      cases held : backLog.getBehind pos (seq1 + 1) with
      | some frame =>
          simp only [skipLost, held]
          refine ⟨Nat.le_refl _, by omega, ?_, by simp⟩
          intro number greater within
          omega
      | none =>
          simp only [skipLost, held]
          obtain ⟨above, below, lost, stops⟩ := ih (seq1 + 1)
          refine ⟨by omega, by omega, ?_, fun early => stops (by omega)⟩
          intro number greater within
          by_cases next : number = seq1 + 1
          · rw [next, held]
          · exact lost number (by omega) within

theorem read_report (payload : List UInt8) (room : payload.length = 53) (first last pos : Nat)
    (firstBound : first < 512) (posBound : pos < 2 ^ 64) :
    readMissing (snprintf payload (missingText first (last % 256) pos)) =
      some ((first : Int), ((last % 256 : Nat) : Int), pos) :=
  read_missing_text payload room first (last % 256) pos (by omega) (by omega) posBound

theorem snprintf_length (payload text : List UInt8) (room : 0 < payload.length) :
    (snprintf payload text).length = payload.length := by
  simp only [snprintf, List.length_append, List.length_take, List.length_drop,
    List.length_singleton]
  omega

theorem report_numbers (payload : List UInt8) (room : payload.length = 53) (first last pos : Nat)
    (firstBound : first < 512) (posBound : pos < 2 ^ 64) (ordered : first ≤ last)
    (short : last < first + 256) :
    (Datagram.control (snprintf payload (missingText first (last % 256) pos))).numbers =
      numbersFrom first (last + 1 - first) := by
  simp only [Datagram.numbers, Datagram.reported,
    read_report payload room first last pos firstBound posBound]
  exact cyclic_range_eq first last ordered short

theorem report_understood_iff (payload : List UInt8) (room : payload.length = 53)
    (first last pos : Nat) (firstBound : first < 512) (posBound : pos < 2 ^ 64)
    (ordered : first ≤ last) (short : last < first + 256) :
    (Datagram.control (snprintf payload (missingText first (last % 256) pos))).Understood ↔
      first ≤ 255 := by
  have numbers := report_numbers payload room first last pos firstBound posBound ordered short
  have headOf : (numbersFrom first (last + 1 - first)).head? = some (first % 256) := by
    rw [show last + 1 - first = (last - first) + 1 by omega, numbersFrom, List.range_succ_eq_map]
    rfl
  simp only [Datagram.Understood, numbers, headOf, Datagram.reported,
    read_report payload room first last pos firstBound posBound, Option.mem_def,
    Option.some.injEq, forall_eq']
  omega

theorem re_send_range_partitions (backLog : BackLog) (seq2 left seq1 pos : Nat)
    (payload : List UInt8) (enough : seq2 + 1 - seq1 ≤ left) (wide : seq2 < 512)
    (short : seq2 ≤ seq1 + 64) (posBound : pos < 2 ^ 64) (room : payload.length = 53) :
    (backLog.reSendRange seq2 left seq1 pos payload).flatMap Datagram.numbers =
      numbersFrom seq1 (seq2 + 1 - seq1) := by
  induction left generalizing seq1 pos payload with
  | zero =>
      rw [show seq2 + 1 - seq1 = 0 by omega]
      rfl
  | succ left ih =>
      by_cases done : seq2 < seq1
      · rw [show seq2 + 1 - seq1 = 0 by omega, reSendRange, if_pos done]
        rfl
      · cases found : backLog.getBehind pos seq1 with
        | some frame =>
            have rest := ih (seq1 + 1) ((frame.pos + backLog.payloadSize seq1) % 2 ^ 64) payload
              (by omega) (by omega) (Nat.mod_lt _ (by decide)) room
            have this_number : Datagram.numbers (.stored frame) = numbersFrom seq1 1 := by
              simp [Datagram.numbers, numbersFrom, backLog.recall_seq found]
            simp only [reSendRange, if_neg done, found, List.flatMap_cons, rest, this_number]
            rw [← numbers_from_add]
            congr 1
            omega
        | none =>
            obtain ⟨above, below, -, -⟩ := backLog.skip_lost_spec pos (seq2 - seq1) seq1
            simp only [reSendRange, if_neg done, found]
            generalize backLog.skipLost pos (seq2 - seq1) seq1 = last at above below ⊢
            have reportRoom :
                (snprintf payload (missingText seq1 (last % 256) pos)).length = 53 := by
              rw [snprintf_length _ _ (by omega), room]
            have rest := ih (last + 1) pos _ (by omega) (by omega) posBound reportRoom
            rw [List.flatMap_cons, rest,
              report_numbers payload room seq1 last pos (by omega) posBound above (by omega)]
            rw [show seq2 + 1 - seq1 = (last + 1 - seq1) + (seq2 - last) by omega,
              numbers_from_add, show seq1 + (last + 1 - seq1) = last + 1 by omega,
              show seq2 + 1 - (last + 1) = seq2 - last by omega]

/-! ## Where reports begin -/

/-- The position asked for behind a number: the end of its frame if that is held. -/
def posBehind (backLog : BackLog) (pos number : Nat) : Nat :=
  match backLog.getBehind pos number with
  | some frame => frame.endPos
  | none => pos

/-- The position asked for at the number `count` behind `seq1`. -/
def expectedPos (backLog : BackLog) : Nat → Nat → Nat → Nat
  | 0, pos, _ => pos
  | count + 1, pos, seq1 => expectedPos backLog count (backLog.posBehind pos seq1) (seq1 + 1)

/-- The backlog holds the frame `count` behind `seq1` of the stream asked for. -/
def holds (backLog : BackLog) (pos seq1 count : Nat) : Bool :=
  (backLog.getBehind (backLog.expectedPos count pos seq1) (seq1 + count)).isSome

/-- A lost frame that is the first one requested or follows one that is held. -/
def GapAt (backLog : BackLog) (pos seq1 count : Nat) : Prop :=
  backLog.holds pos seq1 count = false ∧
    ∀ prior, count = prior + 1 → backLog.holds pos seq1 prior = true

theorem holds_succ (backLog : BackLog) (pos seq1 count : Nat) :
    backLog.holds pos seq1 (count + 1) =
      backLog.holds (backLog.posBehind pos seq1) (seq1 + 1) count := by
  simp only [holds, expectedPos, show seq1 + (count + 1) = seq1 + 1 + count by omega]

theorem holds_zero (backLog : BackLog) (pos seq1 : Nat) :
    backLog.holds pos seq1 0 = (backLog.getBehind pos seq1).isSome := rfl

theorem holds_behind_lost (backLog : BackLog) (pos : Nat) (lost seq1 count : Nat)
    (none_held : ∀ number, seq1 ≤ number → number < seq1 + lost →
      backLog.getBehind pos number = none) :
    backLog.holds pos seq1 (lost + count) = backLog.holds pos (seq1 + lost) count := by
  induction lost generalizing seq1 with
  | zero => rw [Nat.zero_add, Nat.add_zero]
  | succ lost ih =>
      have first := none_held seq1 (Nat.le_refl _) (by omega)
      have same : backLog.posBehind pos seq1 = pos := by rw [posBehind, first]
      rw [show lost + 1 + count = lost + count + 1 by omega, holds_succ, same,
        ih (seq1 + 1) (fun number above below => none_held number (by omega) (by omega)),
        show seq1 + 1 + lost = seq1 + (lost + 1) by omega]

theorem gap_succ_of_held {backLog : BackLog} {pos seq1 : Nat}
    (held : backLog.holds pos seq1 0 = true) (count : Nat) :
    backLog.GapAt pos seq1 (count + 1) ↔
      backLog.GapAt (backLog.posBehind pos seq1) (seq1 + 1) count := by
  simp only [GapAt, holds_succ]
  apply and_congr_right
  intro _
  constructor
  · intro behind prior is_prior
    rw [← holds_succ]
    exact behind (prior + 1) (by omega)
  · intro behind prior is_prior
    cases prior with
    | zero => exact held
    | succ prior =>
        rw [holds_succ]
        exact behind prior (by omega)

/-- Behind a whole stretch of lost frames that ends in front of a held one, gaps
begin where they begin for a walk that starts there. -/
theorem gap_behind_lost {backLog : BackLog} {pos seq1 lost : Nat}
    (none_held : ∀ number, seq1 ≤ number → number < seq1 + lost →
      backLog.getBehind pos number = none) (count : Nat) :
    backLog.GapAt pos seq1 (lost + (count + 1)) ↔
      backLog.GapAt pos (seq1 + lost) (count + 1) := by
  simp only [GapAt, holds_behind_lost backLog pos lost seq1 _ none_held]
  apply and_congr_right
  intro _
  constructor
  · intro behind prior is_prior
    rw [← holds_behind_lost backLog pos lost seq1 _ none_held]
    exact behind (lost + prior) (by omega)
  · intro behind prior is_prior
    obtain rfl : prior = lost + count := by omega
    rw [holds_behind_lost backLog pos lost seq1 _ none_held]
    exact behind count rfl

theorem not_gap_inside_lost {backLog : BackLog} {pos seq1 lost count : Nat}
    (none_held : ∀ number, seq1 ≤ number → number < seq1 + lost →
      backLog.getBehind pos number = none) (inside : count < lost) :
    ¬ backLog.GapAt pos seq1 (count + 1) := by
  rintro ⟨-, behind⟩
  have held := behind count rfl
  rw [show count = count + 0 from rfl,
    holds_behind_lost backLog pos count seq1 0
      (fun number above below => none_held number above (by omega)),
    holds_zero, none_held (seq1 + count) (by omega) (by omega)] at held
  simp at held

/-- No gap up to `seq2` begins behind the wrap. -/
def GapsUnwrapped (backLog : BackLog) (pos seq1 seq2 : Nat) : Prop :=
  ∀ count, seq1 + count ≤ seq2 → backLog.GapAt pos seq1 count → seq1 + count ≤ 255

theorem gaps_unwrapped_held {backLog : BackLog} {pos seq1 seq2 : Nat}
    (held : backLog.holds pos seq1 0 = true) :
    backLog.GapsUnwrapped pos seq1 seq2 ↔
      backLog.GapsUnwrapped (backLog.posBehind pos seq1) (seq1 + 1) seq2 := by
  constructor
  · intro each count within gap
    have bound := each (count + 1) (by omega) ((gap_succ_of_held held count).mpr gap)
    omega
  · intro later count within gap
    cases count with
    | zero =>
        rw [gap.1] at held
        contradiction
    | succ count =>
        have bound := later count (by omega) ((gap_succ_of_held held count).mp gap)
        omega

theorem gaps_unwrapped_lost {backLog : BackLog} {pos seq1 last seq2 : Nat} (above : seq1 ≤ last)
    (within : last ≤ seq2) (lost : ∀ number, seq1 ≤ number → number ≤ last →
      backLog.getBehind pos number = none)
    (stops : last < seq2 → (backLog.getBehind pos (last + 1)).isSome) :
    backLog.GapsUnwrapped pos seq1 seq2 ↔
      seq1 ≤ 255 ∧ backLog.GapsUnwrapped pos (last + 1) seq2 := by
  have none_held : ∀ number, seq1 ≤ number → number < seq1 + (last + 1 - seq1) →
      backLog.getBehind pos number = none := by
    intro number from_first before
    exact lost number from_first (by omega)
  have behind : seq1 + (last + 1 - seq1) = last + 1 := by omega
  constructor
  · intro each
    have firstGap : backLog.GapAt pos seq1 0 :=
      ⟨by rw [holds_zero, lost seq1 (Nat.le_refl _) above]; rfl, by omega⟩
    refine ⟨each 0 (by omega) firstGap, ?_⟩
    intro count inside gap
    cases count with
    | zero =>
        have held := stops (by omega)
        rw [GapAt, holds_zero, Option.isSome_eq_false_iff] at gap
        rw [Option.isSome_iff_ne_none] at held
        exact absurd (Option.isNone_iff_eq_none.mp gap.1) held
    | succ count =>
        rw [← behind] at gap
        have bound := each _ (by omega) ((gap_behind_lost none_held count).mpr gap)
        omega
  · rintro ⟨firstBound, later⟩ count inside gap
    cases count with
    | zero => exact firstBound
    | succ count =>
        by_cases covered : count < last + 1 - seq1
        · exact absurd gap (not_gap_inside_lost none_held covered)
        · obtain ⟨more, rfl⟩ : ∃ more, count = (last + 1 - seq1) + more :=
            ⟨count - (last + 1 - seq1), by omega⟩
          have moved := (gap_behind_lost none_held more).mp gap
          rw [behind] at moved
          have bound := later (more + 1) (by omega) moved
          omega

/-- The reports are about the gaps, so they are all understood just if no gap
begins behind the wrap. -/
theorem re_send_range_understood (backLog : BackLog) (seq2 left seq1 pos : Nat)
    (payload : List UInt8) (enough : seq2 + 1 - seq1 ≤ left) (wide : seq2 < 512)
    (short : seq2 ≤ seq1 + 64) (posBound : pos < 2 ^ 64) (room : payload.length = 53) :
    (∀ datagram ∈ backLog.reSendRange seq2 left seq1 pos payload, datagram.Understood) ↔
      backLog.GapsUnwrapped pos seq1 seq2 := by
  induction left generalizing seq1 pos payload with
  | zero =>
      simp only [reSendRange, List.not_mem_nil, false_implies, implies_true, true_iff]
      intro count within
      omega
  | succ left ih =>
      by_cases done : seq2 < seq1
      · simp only [reSendRange, if_pos done, List.not_mem_nil, false_implies, implies_true,
          true_iff]
        intro count within
        omega
      · cases found : backLog.getBehind pos seq1 with
        | some frame =>
            have held : backLog.holds pos seq1 0 = true := by rw [holds_zero, found]; rfl
            have stored := (Option.filter_eq_some_iff.mp found).1
            have onward : (frame.pos + backLog.payloadSize seq1) % 2 ^ 64 =
                backLog.posBehind pos seq1 := by
              simp only [posBehind, found, backLog.payload_size_eq stored, Frame.endPos]
            have rest := ih (seq1 + 1) (backLog.posBehind pos seq1) payload (by omega) (by omega)
              (onward ▸ Nat.mod_lt _ (by decide)) room
            have silent : (Datagram.stored frame).Understood := by
              simp [Datagram.Understood, Datagram.reported]
            simp only [reSendRange, if_neg done, found, onward, List.forall_mem_cons, rest]
            rw [gaps_unwrapped_held held]
            exact and_iff_right silent
        | none =>
            obtain ⟨above, below, lost, stops⟩ := backLog.skip_lost_spec pos (seq2 - seq1) seq1
            simp only [reSendRange, if_neg done, found]
            generalize backLog.skipLost pos (seq2 - seq1) seq1 = last at above below lost stops ⊢
            have reportRoom :
                (snprintf payload (missingText seq1 (last % 256) pos)).length = 53 := by
              rw [snprintf_length _ _ (by omega), room]
            have none_held : ∀ number, seq1 ≤ number → number ≤ last →
                backLog.getBehind pos number = none := by
              intro number from_first within
              by_cases first : number = seq1
              · rw [first, found]
              · exact lost number (by omega) within
            rw [List.forall_mem_cons,
              report_understood_iff payload room seq1 last pos (by omega) posBound above (by omega),
              ih (last + 1) pos _ (by omega) (by omega) posBound reportRoom]
            exact (gaps_unwrapped_lost above (by omega) none_held fun before =>
              stops (by omega)).symm

/-- The last number of a request, past 255 where the range wraps. -/
def lastRequested (seq1 seq2 : Nat) : Nat := if seq2 < seq1 then seq2 + udpBufferSize else seq2

theorem last_requested_spec {seq1 seq2 : Nat} (firstBound : seq1 ≤ 255) (lastBound : seq2 ≤ 255) :
    seq1 ≤ lastRequested seq1 seq2 ∧ lastRequested seq1 seq2 < seq1 + 256 ∧
      lastRequested seq1 seq2 < 512 ∧ lastRequested seq1 seq2 % 256 = seq2 := by
  unfold lastRequested udpBufferSize
  split <;> omega

theorem re_send_socket (backLog : BackLog) {fd : Int} (socket : 0 ≤ fd) (pos seq1 seq2 : Nat) :
    backLog.reSend fd pos seq1 seq2 =
      if 64 < lastRequested seq1 seq2 - seq1 then
        [.control (snprintf controlPayload
          (missingText seq1 (lastRequested seq1 seq2 % 256) pos))]
      else backLog.reSendRange (lastRequested seq1 seq2) (lastRequested seq1 seq2 + 1 - seq1) seq1
        pos controlPayload := by
  rw [reSend, if_neg (by omega)]
  rfl

theorem control_payload_length : controlPayload.length = 53 := by
  simp [controlPayload, udpHeaderSize]

theorem re_send_partitions (backLog : BackLog) {fd : Int} {pos seq1 seq2 : Nat}
    (socket : 0 ≤ fd) (firstBound : seq1 ≤ 255) (lastBound : seq2 ≤ 255)
    (posBound : pos < 2 ^ 64) :
    (backLog.reSend fd pos seq1 seq2).flatMap Datagram.numbers = cyclicRange seq1 seq2 := by
  obtain ⟨above, below, wide, same⟩ := last_requested_spec firstBound lastBound
  have asked : cyclicRange seq1 seq2 = numbersFrom seq1 (lastRequested seq1 seq2 + 1 - seq1) := by
    rw [← cyclic_range_eq seq1 _ above below, same]
  rw [re_send_socket backLog socket, asked]
  by_cases large : 64 < lastRequested seq1 seq2 - seq1
  · rw [if_pos large, List.flatMap_singleton]
    exact report_numbers _ control_payload_length _ _ _ (by omega) posBound above below
  · rw [if_neg large]
    exact re_send_range_partitions backLog _ _ _ _ _ (Nat.le_refl _) wide (by omega) posBound
      control_payload_length

theorem re_send_understood (backLog : BackLog) {fd : Int} {pos seq1 seq2 : Nat}
    (socket : 0 ≤ fd) (firstBound : seq1 ≤ 255) (lastBound : seq2 ≤ 255)
    (posBound : pos < 2 ^ 64) :
    (∀ datagram ∈ backLog.reSend fd pos seq1 seq2, datagram.Understood) ↔
      (64 < lastRequested seq1 seq2 - seq1 ∨ ∀ count, seq1 + count ≤ lastRequested seq1 seq2 →
        backLog.GapAt pos seq1 count → seq1 + count ≤ 255) := by
  obtain ⟨above, below, wide, -⟩ := last_requested_spec firstBound lastBound
  rw [re_send_socket backLog socket]
  by_cases large : 64 < lastRequested seq1 seq2 - seq1
  · rw [if_pos large, List.forall_mem_singleton,
      report_understood_iff _ control_payload_length _ _ _ (by omega) posBound above below]
    exact ⟨fun _ => .inl large, fun _ => firstBound⟩
  · rw [if_neg large,
      re_send_range_understood backLog _ _ _ _ _ (Nat.le_refl _) wide (by omega) posBound
        control_payload_length]
    exact ⟨.inr, fun either => either.resolve_left large⟩

/-- The answer is understood just if, where the range wraps and is short enough to
be answered frame by frame, no lost frame behind the wrap follows one that is held. -/
theorem re_send_answers_request (backLog : BackLog) (fd : Int) (pos seq1 seq2 : Nat)
    (socket : 0 ≤ fd) (firstBound : seq1 ≤ 255) (lastBound : seq2 ≤ 255)
    (posBound : pos < 2 ^ 64) :
    ((backLog.reSend fd pos seq1 seq2).flatMap Datagram.numbers = cyclicRange seq1 seq2 ∧
      ∀ datagram ∈ backLog.reSend fd pos seq1 seq2, datagram.Understood) ↔
    (seq1 ≤ seq2 ∨ 64 < seq2 + 256 - seq1 ∨
      ∀ count, 256 ≤ seq1 + count + 1 → seq1 + count + 1 ≤ seq2 + 256 →
        backLog.holds pos seq1 count = true → backLog.holds pos seq1 (count + 1) = true) := by
  rw [re_send_understood backLog socket firstBound lastBound posBound]
  have covered := re_send_partitions backLog socket firstBound lastBound posBound
  simp only [covered, true_and]
  by_cases wraps : seq2 < seq1
  · have last : lastRequested seq1 seq2 = seq2 + 256 := if_pos wraps
    rw [last]
    constructor
    · rintro (large | bounded)
      · exact .inr (.inl large)
      · refine .inr (.inr ?_)
        intro count above within held
        by_contra lost
        have gap : backLog.GapAt pos seq1 (count + 1) := by
          refine ⟨by simpa using lost, ?_⟩
          intro prior is_prior
          obtain rfl : prior = count := by omega
          exact held
        have bound := bounded (count + 1) (by omega) gap
        omega
    · rintro (ordered | large | held_behind)
      · omega
      · exact .inl large
      · refine .inr ?_
        intro count within gap
        by_contra past
        cases count with
        | zero => omega
        | succ count =>
            have held := held_behind count (by omega) (by omega) (gap.2 count rfl)
            rw [gap.1] at held
            contradiction
  · have last : lastRequested seq1 seq2 = seq2 := if_neg wraps
    rw [last]
    constructor
    · intro _
      exact .inl (by omega)
    · intro _
      refine .inr ?_
      intro count within _
      omega

/-- One turn of packets, then a control message in slot 0 and one more packet. -/
def afterOneTurn : BackLog :=
  let packet := List.replicate 188 0x47
  let stream : BackLog := (List.range 256).foldl
    (fun backLog number => BackLog.makeFrame backLog .sidVdr (188 * number) packet) (.new 0)
  let controlled :=
    stream.makeFrame .sidControl controlPos (ascii ['C', 'L', 'E', 'A', 'R', '\r', '\n'] ++ [0])
  controlled.makeFrame .sidVdr (188 * 256) packet

theorem re_send_answers_request_last_six :
    (afterOneTurn.reSend 5 (188 * 250) 250 255).flatMap Datagram.numbers = cyclicRange 250 255 ∧
      ∀ datagram ∈ afterOneTurn.reSend 5 (188 * 250) 250 255, datagram.Understood :=
  (re_send_answers_request afterOneTurn 5 (188 * 250) 250 255 (by decide) (by decide) (by decide)
    (by decide)).mpr (.inl (by decide))

/-- Frame 255 is sent again, and the control message behind it, which has no
stream position, is reported as 256-0. -/
theorem report_past_wrap_not_understood :
    ¬ ∀ (backLog : BackLog) (fd : Int) (pos seq1 seq2 : Nat), 0 ≤ fd → seq1 ≤ 255 → seq2 ≤ 255 →
      pos < 2 ^ 64 →
        (backLog.reSend fd pos seq1 seq2).flatMap Datagram.numbers = cyclicRange seq1 seq2 ∧
          ∀ datagram ∈ backLog.reSend fd pos seq1 seq2, datagram.Understood := by
  intro claimed
  obtain ⟨-, understood⟩ := claimed afterOneTurn 5 (188 * 255) 255 0 (by decide) (by decide)
    (by decide) (by decide)
  revert understood
  decide +kernel

end BackLog
end Xineliboutput.Udp
