import Xineliboutput.Client.StreamSync
import Xineliboutput.Foundation.Machine

/-!
# Rules of discarding

The index that `preprocess_buf` compares with is the highest of the DISCARD messages
executed since the numbering began anew. Data from the guard on is discarded, but
the comparison leaves out the packet that starts exactly at the guard.
-/

namespace Xineliboutput.Client

open Xineliboutput.Foundation

set_option autoImplicit false

def DiscardsWell (this : StreamSystem) : StreamStep → StreamSystem → Prop
  | .data, _ =>
      ∀ packet items, this.dataStream = .packet packet :: items →
        if (this.client.preprocessBuf packet).2 then
          ∀ index ∈ this.executed,
            packet.pos = 0 ∨ packet.pos < this.client.guardIndex ∨ index ≤ packet.pos
        else this.client.guardIndex ≤ packet.pos ∧ ∃ index ∈ this.executed, packet.pos < index
  | .control, next =>
      ∀ index frame lines, this.controlStream = .discard index frame :: lines →
        index ≤ this.client.discardIndex → next.client = this.client
  | .play _, _ | .sendHeader _, _ | .clear, _ | .postControl, _ | .postData, _ | .flush, _
  | .restart, _ | .finish, _ => True

/-- The step does not pass a packet at the guard while there is something to discard behind it. -/
def OffGuard (this : StreamSystem) : StreamStep → Prop
  | .data =>
      ∀ packet items, this.dataStream = .packet packet :: items →
        ¬(packet.pos = this.client.guardIndex ∧ packet.pos ≠ 0 ∧
          packet.pos < this.client.discardIndex)
  | .play _ | .sendHeader _ | .clear | .postControl | .postData | .flush | .restart | .control
  | .finish => True

def DiscardsThroughout (steps : List StreamStep) : Prop :=
  ∀ (count : Nat) (within : count < steps.length) (this next : StreamSystem),
    Machine.follow StreamSystem.perform StreamSystem.init (steps.take count) = some this →
    this.perform steps[count] = some next → DiscardsWell this steps[count] next

/-! ## The index and the messages -/

/-- The index is the highest one executed, and the numbering only begins anew at zero. -/
structure IndexKnown (this : StreamSystem) : Prop where
  highest : ∀ index ∈ this.executed, index ≤ this.client.discardIndex
  reached : this.client.discardIndex = 0 ∨ this.client.discardIndex ∈ this.executed
  anew : ∀ pos, .streamPos pos ∈ this.controlStream → pos = 0
  resetting : ∀ pos, this.client.controlThread = .resetting pos → pos = 0
  discarding : ∀ index, this.client.controlThread = .discarding index →
    this.client.discardIndex < index

theorem init_known : IndexKnown StreamSystem.init := by
  refine ⟨?_, Or.inl rfl, ?_, ?_, ?_⟩
  · intro index member
    cases member
  · intro pos member
    cases member
  · intro pos same
    cases same
  · intro index same
    cases same

theorem preprocess_control (this : InputPlugin) (packet : MediaPacket) :
    (this.preprocessBuf packet).1.discardIndex = this.discardIndex ∧
      (this.preprocessBuf packet).1.controlThread = this.controlThread := by
  unfold InputPlugin.preprocessBuf
  dsimp only
  split
  · exact ⟨rfl, rfl⟩
  · split <;> exact ⟨rfl, rfl⟩

theorem preprocess_returns (this : InputPlugin) (packet : MediaPacket) :
    (this.preprocessBuf packet).2 = true ↔
      ¬(packet.pos < this.discardIndex ∧ this.guardIndex < packet.pos) := by
  unfold InputPlugin.preprocessBuf
  dsimp only
  split
  · rename_i dropped
    exact iff_of_false Bool.false_ne_true (not_not.mpr dropped)
  · rename_i kept
    split <;> exact iff_of_true rfl kept

theorem known_append {this next : StreamSystem} (known : IndexKnown this)
    (client : next.client = this.client) (executed : next.executed = this.executed)
    (lines : ∀ pos, .streamPos pos ∈ next.controlStream →
      .streamPos pos ∈ this.controlStream ∨ pos = 0) : IndexKnown next := by
  refine ⟨?_, ?_, ?_, ?_, ?_⟩
  · rw [client, executed]
    exact known.highest
  · rw [client, executed]
    exact known.reached
  · intro pos member
    exact (lines pos member).elim (known.anew pos) id
  · rw [client]
    exact known.resetting
  · rw [client]
    exact known.discarding

theorem discard_to_known {this next : StreamSystem} (known : IndexKnown this) {index : UInt64}
    (client : InputPlugin) (higher : this.client.discardIndex < index)
    (lines : ∀ line ∈ next.controlStream, line ∈ this.controlStream)
    (finished : next.client = client.discardTo index)
    (executed : next.executed = index :: this.executed) : IndexKnown next := by
  refine ⟨?_, ?_, ?_, ?_, ?_⟩
  · rw [finished, executed]
    intro other member
    rcases List.mem_cons.mp member with rfl | earlier
    · exact UInt64.le_refl _
    · exact UInt64.le_trans (known.highest other earlier) (UInt64.le_of_lt higher)
  · rw [finished, executed]
    exact Or.inr List.mem_cons_self
  · intro pos member
    exact known.anew pos (lines _ member)
  · intro pos thread
    rw [finished] at thread
    cases thread
  · intro other thread
    rw [finished] at thread
    cases thread

theorem reset_to_known {this next : StreamSystem} (known : IndexKnown this)
    (client : InputPlugin) (lines : ∀ line ∈ next.controlStream, line ∈ this.controlStream)
    (finished : next.client = client.resetTo 0) (executed : next.executed = []) :
    IndexKnown next := by
  refine ⟨?_, ?_, ?_, ?_, ?_⟩
  · rw [executed]
    intro other member
    cases member
  · rw [finished]
    exact Or.inl rfl
  · intro pos member
    exact known.anew pos (lines _ member)
  · intro pos thread
    rw [finished] at thread
    cases thread
  · intro other thread
    rw [finished] at thread
    cases thread

theorem same_index_known {this next : StreamSystem} (known : IndexKnown this)
    (index : next.client.discardIndex = this.client.discardIndex)
    (executed : ∀ other ∈ next.executed, other ∈ this.executed ∨ other ≤ this.client.discardIndex)
    (kept : ∀ other ∈ this.executed, other ∈ next.executed)
    (lines : ∀ line ∈ next.controlStream, line ∈ this.controlStream)
    (resetting : ∀ pos, next.client.controlThread = .resetting pos → pos = 0)
    (discarding : ∀ other, next.client.controlThread = .discarding other →
      this.client.discardIndex < other) : IndexKnown next := by
  refine ⟨?_, ?_, ?_, resetting, ?_⟩
  · rw [index]
    intro other member
    exact (executed other member).elim (known.highest other) id
  · rw [index]
    exact known.reached.imp_right (kept _)
  · intro pos member
    exact known.anew pos (lines _ member)
  · rw [index]
    exact discarding

theorem parse_discard_cases (this : InputPlugin) (index : UInt64) (frame : UInt32) :
    (¬this.discardIndex < index ∧ this.parseControl (.discard index frame) = this) ∨
      (this.discardIndex < index ∧ this.parseControl (.discard index frame) =
        { this with discardFrame := frame }.discardTo index) ∨
      (this.discardIndex < index ∧ this.parseControl (.discard index frame) =
        { this with discardFrame := frame, controlThread := .discarding index }) := by
  unfold InputPlugin.parseControl
  dsimp only
  split
  · rename_i higher
    split
    · exact Or.inr (Or.inl ⟨higher, rfl⟩)
    · exact Or.inr (Or.inr ⟨higher, rfl⟩)
  · rename_i lower
    exact Or.inl ⟨lower, rfl⟩

theorem execute_known {this next : StreamSystem} (known : IndexKnown this)
    (performed : this.executeControl = some next) : IndexKnown next := by
  unfold StreamSystem.executeControl at performed
  split at performed
  · rename_i line lines idle stream
    cases performed
    have fewer : ∀ other ∈ lines, other ∈ this.controlStream := by
      intro other member
      rw [stream]
      exact List.mem_cons_of_mem _ member
    cases line with
    | discard index frame =>
        rcases parse_discard_cases this.client index frame with
          ⟨lower, parsed⟩ | ⟨higher, parsed⟩ | ⟨higher, parsed⟩
        · -- a late message
          simp only [parsed, idle, if_true]
          refine same_index_known known rfl ?_ ?_ fewer known.resetting known.discarding
          · intro other member
            rcases List.mem_cons.mp member with rfl | earlier
            · exact Or.inr (UInt64.not_lt.mp lower)
            · exact Or.inl earlier
          · intro other member
            exact List.mem_cons_of_mem _ member
        · simp only [parsed]
          exact discard_to_known known _ higher fewer rfl
            (by simp only [InputPlugin.discardTo, if_true])
        · simp only [parsed]
          refine same_index_known known rfl ?_ ?_ fewer (fun _ thread => nomatch thread) ?_
          · intro other member
            rw [if_neg (fun thread => nomatch thread)] at member
            exact Or.inl member
          · intro other member
            rw [if_neg (fun thread => nomatch thread)]
            exact member
          · intro other thread
            cases thread
            exact higher
    | streamPos pos =>
        obtain rfl : pos = 0 := known.anew pos (by rw [stream]; exact List.mem_cons_self)
        unfold InputPlugin.parseControl
        dsimp only
        split
        · exact reset_to_known known _ fewer rfl (by simp only [InputPlugin.resetTo, if_true])
        · refine same_index_known known rfl ?_ ?_ fewer ?_ (fun _ thread => nomatch thread)
          · intro other member
            rw [if_neg (fun thread => nomatch thread)] at member
            exact Or.inl member
          · intro other member
            rw [if_neg (fun thread => nomatch thread)]
            exact member
          · intro pos thread
            cases thread
            rfl
    | flush offset =>
        exact same_index_known known rfl (fun _ => Or.inl) (fun _ => id) fewer known.resetting
          known.discarding
  · cases performed

theorem finish_known {this next : StreamSystem} (known : IndexKnown this)
    (performed : this.finishControl = some next) : IndexKnown next := by
  unfold StreamSystem.finishControl at performed
  obtain ⟨client, finished, rfl⟩ := Option.map_eq_some_iff.mp performed
  unfold InputPlugin.finishControl at finished
  cases thread : this.client.controlThread with
  | idle =>
      rw [thread] at finished
      cases finished
  | discarding index =>
      rw [thread] at finished
      cases finished
      exact discard_to_known known _ (known.discarding index thread) (fun _ => id) rfl rfl
  | resetting pos =>
      rw [thread] at finished
      cases finished
      obtain rfl := known.resetting pos thread
      exact reset_to_known known _ (fun _ => id) rfl rfl

theorem read_known {this next : StreamSystem} (known : IndexKnown this)
    (performed : this.readData = some next) : IndexKnown next := by
  unfold StreamSystem.readData at performed
  split at performed
  · cases performed
  · split at performed
    · cases performed
    · rename_i packet items same
      cases performed
      obtain ⟨index, thread⟩ := preprocess_control this.client packet
      refine ⟨?_, ?_, known.anew, ?_, ?_⟩
      · rw [index]
        exact known.highest
      · rw [index]
        exact known.reached
      · rw [thread]
        exact known.resetting
      · rw [thread, index]
        exact known.discarding
    · cases performed
      exact ⟨known.highest, known.reached, known.anew, known.resetting, known.discarding⟩

theorem perform_known {this next : StreamSystem} (step : StreamStep) (known : IndexKnown this)
    (performed : this.perform step = some next) : IndexKnown next := by
  cases step with
  | play data =>
      cases performed
      exact known_append known rfl rfl fun _ => Or.inl
  | sendHeader data =>
      cases performed
      exact known_append known rfl rfl fun _ => Or.inl
  | clear =>
      cases performed
      unfold StreamSystem.clear
      split
      · exact known
      · exact known_append known rfl rfl fun _ => Or.inl
  | postControl =>
      unfold StreamSystem.perform at performed
      dsimp only at performed
      split at performed
      · cases performed
      · cases performed
        refine known_append known rfl rfl ?_
        intro pos member
        left
        simpa using member
  | postData =>
      unfold StreamSystem.perform at performed
      dsimp only at performed
      split at performed
      · cases performed
      · cases performed
        exact known_append known rfl rfl fun _ => Or.inl
  | flush =>
      cases performed
      refine known_append known rfl rfl ?_
      intro pos member
      left
      simpa using member
  | restart =>
      cases performed
      refine known_append known rfl rfl ?_
      intro pos member
      simpa using member
  | control => exact execute_known known performed
  | finish => exact finish_known known performed
  | data => exact read_known known performed

/-! ## Runs -/

theorem run_known (steps : List StreamStep) {this final : StreamSystem} (known : IndexKnown this)
    (run : Machine.follow StreamSystem.perform this steps = some final) : IndexKnown final := by
  induction steps generalizing this with
  | nil =>
      cases run
      exact known
  | cons step steps ih =>
      obtain ⟨next, performed, onward⟩ := Option.bind_eq_some_iff.mp run
      exact ih (perform_known step known performed) onward

/-- A packet that is returned leaves something behind exactly if it starts at the guard. -/
theorem returned_well {this : StreamSystem} (known : IndexKnown this) {packet : MediaPacket}
    (returned : (this.client.preprocessBuf packet).2 = true) :
    (∀ index ∈ this.executed,
        packet.pos = 0 ∨ packet.pos < this.client.guardIndex ∨ index ≤ packet.pos) ↔
      ¬(packet.pos = this.client.guardIndex ∧ packet.pos ≠ 0 ∧
        packet.pos < this.client.discardIndex) := by
  have kept := (preprocess_returns this.client packet).mp returned
  constructor
  · rintro well ⟨atGuard, nonzero, below⟩
    have positive : this.client.discardIndex ≠ 0 := by
      intro zero
      rw [zero] at below
      exact absurd below UInt64.not_lt_zero
    rcases well _ (known.reached.resolve_left positive) with zero | before | above
    · exact nonzero zero
    · rw [atGuard] at before
      exact UInt64.lt_irrefl _ before
    · exact absurd below (UInt64.not_lt.mpr above)
  · intro offGuard index member
    by_cases zero : packet.pos = 0
    · exact Or.inl zero
    · by_cases before : packet.pos < this.client.guardIndex
      · exact Or.inr (Or.inl before)
      · by_cases below : packet.pos < this.client.discardIndex
        · have notBehind := fun behind => kept ⟨below, behind⟩
          have atGuard : packet.pos = this.client.guardIndex :=
            UInt64.le_antisymm (UInt64.not_lt.mp notBehind) (UInt64.not_lt.mp before)
          exact absurd ⟨atGuard, zero, below⟩ offGuard
        · exact Or.inr (Or.inr (UInt64.le_trans (known.highest index member)
            (UInt64.not_lt.mp below)))

theorem dropped_well {this : StreamSystem} (known : IndexKnown this) {packet : MediaPacket}
    (dropped : ¬(this.client.preprocessBuf packet).2 = true) :
    (this.client.guardIndex ≤ packet.pos ∧ ∃ index ∈ this.executed, packet.pos < index) ∧
      packet.pos ≠ this.client.guardIndex := by
  rw [preprocess_returns, not_not] at dropped
  obtain ⟨below, behind⟩ := dropped
  have positive : this.client.discardIndex ≠ 0 := by
    intro zero
    rw [zero] at below
    exact absurd below UInt64.not_lt_zero
  refine ⟨⟨UInt64.le_of_lt behind, _, known.reached.resolve_left positive, below⟩, ?_⟩
  intro same
  rw [same] at behind
  exact UInt64.lt_irrefl _ behind

theorem data_step_well {this next : StreamSystem} (known : IndexKnown this) :
    DiscardsWell this .data next ↔ OffGuard this .data := by
  unfold DiscardsWell OffGuard
  constructor
  · intro well packet items stream
    have one := well packet items stream
    by_cases returned : (this.client.preprocessBuf packet).2 = true
    · rw [if_pos returned] at one
      exact (returned_well known returned).mp one
    · rintro ⟨atGuard, -⟩
      exact (dropped_well known returned).2 atGuard
  · intro offGuard packet items stream
    by_cases returned : (this.client.preprocessBuf packet).2 = true
    · rw [if_pos returned]
      exact (returned_well known returned).mpr (offGuard packet items stream)
    · rw [if_neg returned]
      exact (dropped_well known returned).1

theorem late_discard {this next : StreamSystem} (performed : this.executeControl = some next)
    {index : UInt64} {frame : UInt32} {lines : List ControlLine}
    (stream : this.controlStream = .discard index frame :: lines)
    (late : index ≤ this.client.discardIndex) : next.client = this.client := by
  unfold StreamSystem.executeControl at performed
  rw [stream] at performed
  split at performed
  · rename_i same
    cases same
    cases performed
    exact if_neg (UInt64.not_lt.mpr late)
  · cases performed

theorem perform_well {this next : StreamSystem} (step : StreamStep) (known : IndexKnown this)
    (performed : this.perform step = some next) : DiscardsWell this step next ↔ OffGuard this step := by
  cases step with
  | data => exact data_step_well known
  | control =>
      refine iff_of_true ?_ trivial
      intro index frame lines stream late
      exact late_discard performed stream late
  | play _ => exact Iff.rfl
  | sendHeader _ => exact Iff.rfl
  | clear => exact Iff.rfl
  | postControl => exact Iff.rfl
  | postData => exact Iff.rfl
  | flush => exact Iff.rfl
  | restart => exact Iff.rfl
  | finish => exact Iff.rfl

/-- A run discards well exactly if none of its steps passes a packet at the guard. -/
theorem discards_throughout_iff (steps : List StreamStep) :
    DiscardsThroughout steps ↔
      ∀ (count : Nat) (within : count < steps.length) (this next : StreamSystem),
        Machine.follow StreamSystem.perform StreamSystem.init (steps.take count) = some this →
        this.perform steps[count] = some next → OffGuard this steps[count] := by
  unfold DiscardsThroughout
  constructor
  · intro well count within this next reached performed
    exact (perform_well _ (run_known _ init_known reached) performed).mp
      (well count within this next reached performed)
  · intro offGuard count within this next reached performed
    exact (perform_well _ (run_known _ init_known reached) performed).mpr
      (offGuard count within this next reached performed)

/-- Eight bytes are played and flushed, four more are played, and a jump discards them. -/
def jumpBehindFlush : List StreamStep :=
  [.play [0, 0, 1, 0xe0, 0, 2, 0x80, 0], .data, .flush, .control,
    .play [0, 0, 1, 0xe0], .clear, .postControl, .control, .finish, .data]

theorem packet_at_guard_reappears : ¬DiscardsThroughout jumpBehindFlush := by
  intro well
  have last := well 9 (by decide) _ _ rfl rfl _ _ rfl
  rcases last 12 (List.mem_singleton_self _) with zero | before | above
  · exact absurd zero (by decide)
  · exact absurd before (by decide)
  · exact absurd above (by decide)

end Xineliboutput.Client
