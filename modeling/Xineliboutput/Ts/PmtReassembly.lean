import Xineliboutput.Ts.ParsePmt

/-!
# Reassembly inside its buffer

A call leaves its buffers in three ways: an adaptation field that claims to run
past the packet, a payload stored behind the end of `raw_pmt`, and a program info
walked past it. Nothing else does, in any run of calls on one `pmt_data_t`.
-/

namespace Xineliboutput.Ts

open Xineliboutput.Foundation

set_option autoImplicit false

/-! ## What a call needs -/

def programInfoLength (rawPmt : Block UInt8 rawPmtSize) : Nat :=
  word (rawPmt.cell 10) (rawPmt.cell 11) % 0x1000

def ProgramInfoFits (rawPmt : Block UInt8 rawPmtSize) : Prop :=
  ∀ e, DescriptorAt rawPmt.read (12 + programInfoLength rawPmt) 12 e →
    DescriptorInside rawPmt.read rawPmtSize e

def PmtData.sectionCrc (pmt : PmtData) (sectionLength : Nat) : UInt32 :=
  UInt32.ofNat (bigEndianValue ((pmt.rawPmt.cells.drop (sectionLength + 3 - 4)).take 4))

/-- The stored section is taken as complete, checked and new. -/
structure PmtData.Accepts (pmt : PmtData) (head : SectionHead) : Prop where
  nonempty : head.sectionLength ≠ 0
  complete : head.sectionLength ≤ pmt.pmtWritePtr.getD 0
  checked : pmt.sectionCrc head.sectionLength =
    tsComputeCrc32 (pmt.rawPmt.cells.take (head.sectionLength + 3 - 4)) 0xffffffff
  changed : ¬(pmt.sectionCrc head.sectionLength = pmt.crc32 ∧
    head.versionNumber = pmt.versionNumber)

structure PmtData.PayloadFits (pmt : PmtData) (pkt : TsPacket) : Prop where
  inPacket : pkt.payloadOffset + pointerSize pkt ≤ tsSize
  inBuffer : ∀ write, pmt.pmtWritePtr = some write →
    write + (tsSize - (pkt.payloadOffset + pointerSize pkt)) ≤ rawPmtSize

/-- If the payload is stored it fits, and if the section is then parsed its
program info fits. -/
def PmtData.CallFits (pmt : PmtData) (call : PmtCall) : Prop :=
  ∀ head, pmt.head call.programNo call.pkt call.behind = some head →
    (pmt.restart call.pkt).PayloadFits call.pkt ∧
    ∀ stored, (pmt.restart call.pkt).storePayload call.pkt = some stored →
      stored.Accepts head → ProgramInfoFits stored.rawPmt

/-! ## Storing the payload -/

theorem stored_length_inside {pkt : TsPacket}
    (inside : pkt.payloadOffset + pointerSize pkt ≤ tsSize) :
    storedLength pkt = tsSize - (pkt.payloadOffset + pointerSize pkt) := by
  have lower := pkt.payload_offset_lower
  unfold tsSize at inside
  unfold storedLength TsPacket.payloadSize tsSize
  omega

theorem pkt_slice_is_some (pkt : TsPacket) :
    (pkt.slice (pkt.payloadOffset + pointerSize pkt) (storedLength pkt)).isSome = true ↔
      pkt.payloadOffset + pointerSize pkt ≤ tsSize := by
  rw [Block.slice_is_some]
  constructor
  · intro fits
    omega
  · intro inside
    rw [stored_length_inside inside]
    omega

theorem slice_stored_length {pkt : TsPacket} {data : List UInt8}
    (sliced : pkt.slice (pkt.payloadOffset + pointerSize pkt) (storedLength pkt) = some data) :
    data.length = storedLength pkt := by
  unfold Block.slice at sliced
  split at sliced
  · cases sliced
    rw [List.length_take, List.length_drop, pkt.sized]
    omega
  · cases sliced

theorem store_payload_is_some {pmt : PmtData} (pkt : TsPacket) {write : Nat}
    (placed : pmt.pmtWritePtr = some write) :
    (pmt.storePayload pkt).isSome = true ↔ pmt.PayloadFits pkt := by
  constructor
  · intro stores
    obtain ⟨stored, ran⟩ := Option.isSome_iff_exists.mp stores
    simp only [PmtData.storePayload, placed, Option.bind_eq_bind, Option.bind_some,
      Option.bind_eq_some_iff] at ran
    obtain ⟨data, sliced, rawPmt, written, -⟩ := ran
    have inPacket := (pkt_slice_is_some pkt).mp (by rw [sliced]; rfl)
    refine ⟨inPacket, ?_⟩
    intro write' placed'
    rw [placed] at placed'
    cases placed'
    have fits := (Block.overwrite_is_some _ _ _).mp (by rw [written]; rfl)
    rwa [slice_stored_length sliced, stored_length_inside inPacket] at fits
  · intro fits
    obtain ⟨data, sliced⟩ :=
      Option.isSome_iff_exists.mp ((pkt_slice_is_some pkt).mpr fits.inPacket)
    have inBuffer := fits.inBuffer write placed
    rw [← stored_length_inside fits.inPacket, ← slice_stored_length sliced] at inBuffer
    obtain ⟨rawPmt, written⟩ :=
      Option.isSome_iff_exists.mp ((Block.overwrite_is_some pmt.rawPmt _ _).mpr inBuffer)
    simp only [PmtData.storePayload, placed, sliced, written, Option.bind_eq_bind,
      Option.bind_some, Option.isSome_some]

theorem store_payload_spec {pmt stored : PmtData} {pkt : TsPacket}
    (stores : pmt.storePayload pkt = some stored) :
    ∃ write rawPmt, pmt.pmtWritePtr = some write ∧ pmt.PayloadFits pkt ∧
      pmt.rawPmt.overwrite write (pkt.payload.drop (pointerSize pkt)) = some rawPmt ∧
      stored = { pmt with
        pmtWritePtr := some (write + (tsSize - (pkt.payloadOffset + pointerSize pkt)))
        rawPmt } := by
  have done := stores
  simp only [PmtData.storePayload, Option.bind_eq_bind, Option.bind_eq_some_iff] at done
  obtain ⟨data, sliced, write, placed, rawPmt, written, same⟩ := done
  have fits := (store_payload_is_some pkt placed).mp (by rw [stores]; rfl)
  have length := stored_length_inside fits.inPacket
  refine ⟨write, rawPmt, placed, fits, ?_, ?_⟩
  · have content : pkt.payload.drop (pointerSize pkt) = data := by
      unfold Block.slice at sliced
      split at sliced
      · cases sliced
        have behind : (pkt.cells.drop (pkt.payloadOffset + pointerSize pkt)).length =
            tsSize - (pkt.payloadOffset + pointerSize pkt) := by
          rw [List.length_drop, pkt.sized]
        rw [TsPacket.payload, List.drop_drop, length, List.take_of_length_le (by omega)]
      · cases sliced
    rw [content]
    exact written
  · rw [← length]
    exact (Option.some.inj same).symm

/-! ## Parsing the section -/

theorem raw_pmt_extent (rawPmt : Block UInt8 rawPmtSize) (position : Nat) :
    (rawPmt.read position).isSome = true ↔ position < rawPmtSize := rawPmt.read_is_some position

theorem program_info_word (rawPmt : Block UInt8 rawPmtSize) :
    (fetchWord 10).run rawPmt.read = some (word (rawPmt.cell 10) (rawPmt.cell 11)) := by
  have high := rawPmt.read_cell 10
  have low := rawPmt.read_cell 11
  simp only [fetchWord, Scan.run_bind, Scan.run_fetch]
  rw [show rawPmt.read 10 = some (rawPmt.cell 10) from high, Option.bind_some,
    show rawPmt.read (10 + 1) = some (rawPmt.cell 11) from low, Option.bind_some]
  rfl

theorem section_ends_iff (rawPmt : Block UInt8 rawPmtSize) {sectionLength : Nat}
    (short : sectionLength < 0x400) (tables : PmtTables) :
    ((parseSection sectionLength tables).run rawPmt.read).isSome = true ↔
      ProgramInfoFits rawPmt := by
  have walk : ((tsGetRegDesc 12 (programInfoLength rawPmt)).run rawPmt.read).isSome = true ↔
      ProgramInfoFits rawPmt :=
    reg_desc_ends_iff (raw_pmt_extent rawPmt) (programInfoLength rawPmt) (by omega)
  unfold parseSection
  rw [Scan.run_bind, program_info_word, Option.bind_some, Scan.run_bind]
  constructor
  · intro ends
    apply walk.mp
    obtain ⟨result, ran⟩ := Option.isSome_iff_exists.mp ends
    obtain ⟨identifier, found, -⟩ := Option.bind_eq_some_iff.mp ran
    exact Option.isSome_iff_exists.mpr ⟨identifier, found⟩
  · intro fits
    obtain ⟨identifier, found⟩ := Option.isSome_iff_exists.mp (walk.mpr fits)
    rw [show word (rawPmt.cell 10) (rawPmt.cell 11) % 0x1000 = programInfoLength rawPmt from rfl,
      found, Option.bind_some]
    refine Scan.EndsWithin.ite (fun _ => .pure _) (fun consistent => ?_) rawPmt.read
      fun position => (raw_pmt_extent rawPmt position).mpr
    apply Scan.EndsWithin.bind (streams_end _ _ (by unfold rawPmtSize; omega) _)
    intro parsed
    apply Scan.EndsWithin.ite
    · intro complete
      exact .bind (fetch_word_ends (by decide)) fun _ => .pure _
    · intro incomplete
      exact .pure _

theorem finish_section_complete (stored : PmtData) (head : SectionHead)
    (short : head.sectionLength < 0x400) (nonempty : head.sectionLength ≠ 0)
    (complete : ¬stored.pmtWritePtr.getD 0 < head.sectionLength) :
    stored.finishSection head =
      if stored.sectionCrc head.sectionLength ≠
          tsComputeCrc32 (stored.rawPmt.cells.take (head.sectionLength + 3 - 4)) 0xffffffff then
        some (stored, false)
      else if stored.sectionCrc head.sectionLength = stored.crc32 ∧
          head.versionNumber = stored.versionNumber then
        some (stored, false)
      else
        ((parseSection head.sectionLength stored.tables).run stored.rawPmt.read).bind fun parsed =>
          some ({ stored with
            crc32 := stored.sectionCrc head.sectionLength
            versionNumber := head.versionNumber
            tables := parsed.1 }, parsed.2) := by
  unfold PmtData.finishSection
  rw [if_neg complete, if_neg nonempty, Block.slice_eq _ (by unfold rawPmtSize; omega),
    Block.slice_eq _ (by unfold rawPmtSize; omega)]
  rfl

theorem finish_section_is_some (stored : PmtData) {head : SectionHead}
    (short : head.sectionLength < 0x400) :
    (stored.finishSection head).isSome = true ↔
      (stored.Accepts head → ProgramInfoFits stored.rawPmt) := by
  by_cases incomplete : stored.pmtWritePtr.getD 0 < head.sectionLength
  · rw [PmtData.finishSection, if_pos incomplete]
    exact ⟨fun _ accepts => absurd accepts.complete (Nat.not_le.mpr incomplete), fun _ => rfl⟩
  by_cases empty : head.sectionLength = 0
  · rw [PmtData.finishSection, if_neg incomplete, if_pos empty]
    exact ⟨fun _ accepts => absurd empty accepts.nonempty, fun _ => rfl⟩
  rw [finish_section_complete stored head short empty incomplete]
  by_cases checked : stored.sectionCrc head.sectionLength =
      tsComputeCrc32 (stored.rawPmt.cells.take (head.sectionLength + 3 - 4)) 0xffffffff
  · rw [if_neg (not_not.mpr checked)]
    by_cases known : stored.sectionCrc head.sectionLength = stored.crc32 ∧
        head.versionNumber = stored.versionNumber
    · rw [if_pos known]
      exact ⟨fun _ accepts => absurd known accepts.changed, fun _ => rfl⟩
    · rw [if_neg known]
      have accepts : stored.Accepts head := ⟨empty, Nat.not_lt.mp incomplete, checked, known⟩
      rw [forall_prop_of_true accepts, ← section_ends_iff stored.rawPmt short stored.tables]
      cases (parseSection head.sectionLength stored.tables).run stored.rawPmt.read <;> rfl
  · rw [if_pos checked]
    exact ⟨fun _ accepts => absurd accepts.checked checked, fun _ => rfl⟩

theorem finish_section_frame {stored after : PmtData} {head : SectionHead} {result : Bool}
    (finishes : stored.finishSection head = some (after, result)) :
    after.pmtWritePtr = stored.pmtWritePtr ∧ (after.pmt = true → stored.pmt = true) := by
  unfold PmtData.finishSection at finishes
  split at finishes
  · cases finishes
    exact ⟨rfl, id⟩
  split at finishes
  · cases finishes
    exact ⟨rfl, fun collecting => Bool.noConfusion collecting⟩
  simp only [Option.bind_eq_bind, Option.bind_eq_some_iff] at finishes
  obtain ⟨crc32, -, data, -, finishes⟩ := finishes
  split at finishes
  · cases finishes
    exact ⟨rfl, id⟩
  split at finishes
  · cases finishes
    exact ⟨rfl, id⟩
  · obtain ⟨parsed, -, same⟩ := Option.bind_eq_some_iff.mp finishes
    cases same
    exact ⟨rfl, id⟩

/-! ## One call -/

def PmtData.WritePtrInside (pmt : PmtData) : Prop :=
  ∀ write, pmt.pmtWritePtr = some write → write ≤ rawPmtSize

structure PmtData.Sound (pmt : PmtData) : Prop where
  placed : pmt.pmt = true → ∃ write, pmt.pmtWritePtr = some write
  inside : pmt.WritePtrInside

theorem restart_sound {pmt : PmtData} (sound : pmt.Sound) (pkt : TsPacket) :
    (pmt.restart pkt).Sound := by
  unfold PmtData.restart
  split
  · refine ⟨fun _ => ⟨0, rfl⟩, ?_⟩
    intro write placed
    cases placed
    exact Nat.zero_le _
  · exact sound

theorem head_placed {pmt : PmtData} (sound : pmt.Sound) {call : PmtCall} {head : SectionHead}
    (known : pmt.head call.programNo call.pkt call.behind = some head) :
    ∃ write, (pmt.restart call.pkt).pmtWritePtr = some write := by
  unfold PmtData.head at known
  unfold PmtData.restart
  split at known <;> rename_i started
  · rw [if_pos started]
    exact ⟨0, rfl⟩
  · rw [if_neg started]
    split at known <;> rename_i collecting
    · exact sound.placed collecting
    · cases known

theorem head_short {pmt : PmtData} {call : PmtCall} {head : SectionHead}
    (known : pmt.head call.programNo call.pkt call.behind = some head) :
    head.sectionLength < 0x400 := by
  unfold PmtData.head checkHeader at known
  split_ifs at known <;> cases known <;> exact Nat.mod_lt _ (by decide)

theorem call_is_some {pmt : PmtData} (sound : pmt.Sound) (call : PmtCall) :
    (pmt.call call).isSome = true ↔ pmt.CallFits call := by
  unfold PmtData.call tsParsePmt PmtData.CallFits
  rw [Option.isSome_map]
  cases known : pmt.head call.programNo call.pkt call.behind with
  | none => simp
  | some head =>
      obtain ⟨write, placed⟩ := head_placed sound known
      have stores := store_payload_is_some call.pkt placed
      have finishes := fun stored : PmtData =>
        finish_section_is_some stored (head_short known)
      constructor
      · intro ends head' same
        cases same
        obtain ⟨result, ran⟩ := Option.isSome_iff_exists.mp ends
        obtain ⟨stored, done, finished⟩ := Option.bind_eq_some_iff.mp ran
        refine ⟨stores.mp (by rw [done]; rfl), ?_⟩
        intro stored' done'
        rw [done] at done'
        cases done'
        exact (finishes stored).mp (by rw [finished]; rfl)
      · intro fits
        obtain ⟨payloadFits, infoFits⟩ := fits head rfl
        obtain ⟨stored, done⟩ := Option.isSome_iff_exists.mp (stores.mpr payloadFits)
        simp only [done, Option.bind_some]
        exact (finishes stored).mpr (infoFits stored done)

theorem call_sound {pmt next : PmtData} (sound : pmt.Sound) {call : PmtCall}
    (called : pmt.call call = some next) : next.Sound := by
  unfold PmtData.call tsParsePmt at called
  obtain ⟨⟨after, result⟩, ran, same⟩ := Option.map_eq_some_iff.mp called
  cases same
  split at ran
  · cases ran
    exact restart_sound sound call.pkt
  · obtain ⟨stored, done, finished⟩ := Option.bind_eq_some_iff.mp ran
    obtain ⟨write, rawPmt, placed, fits, written, rfl⟩ := store_payload_spec done
    obtain ⟨pointer, collecting⟩ := finish_section_frame finished
    refine ⟨fun _ => ⟨_, pointer⟩, ?_⟩
    intro write' placed'
    rw [pointer] at placed'
    cases placed'
    exact fits.inBuffer write placed

/-! ## Runs of calls -/

def parseCalls (calls : List PmtCall) : Option PmtData :=
  Machine.follow PmtData.call zeroedPmtData calls

/-- After every call of the sequence the write pointer is NULL or inside
`raw_pmt`, and no call has left the packet or `raw_pmt`. -/
def StaysInside (calls : List PmtCall) : Prop :=
  ∀ count ≤ calls.length, ∃ pmt, parseCalls (calls.take count) = some pmt ∧ pmt.WritePtrInside

theorem zeroed_sound : zeroedPmtData.Sound :=
  ⟨fun collecting => Bool.noConfusion collecting, fun _ placed => nomatch placed⟩

theorem calls_sound (calls : List PmtCall) {pmt : PmtData} (called : parseCalls calls = some pmt) :
    pmt.Sound := by
  have runs := Machine.Run.follow
    ⟨fun state => state = zeroedPmtData, fun state call next => state.call call = some next⟩
    PmtData.call (fun _ _ _ called => called) calls (.start rfl) called
  refine runs.invariant (fun _ state => state.Sound) ?_ ?_
  · rintro state rfl
    exact zeroed_sound
  · intro labels state call next sound called
    exact call_sound sound called

/-- A sequence of calls stays inside exactly if every call fits the state it
finds. -/
theorem reassembly_stays_inside_iff (calls : List PmtCall) :
    StaysInside calls ↔
      ∀ count (within : count < calls.length) pmt, parseCalls (calls.take count) = some pmt →
        pmt.CallFits calls[count] := by
  constructor
  · intro inside count within pmt called
    obtain ⟨next, onward, -⟩ := inside (count + 1) within
    unfold parseCalls at onward called
    rw [Machine.follow_take_succ _ _ _ within, called, Option.bind_some] at onward
    exact (call_is_some (calls_sound _ called) _).mp (by rw [onward]; rfl)
  · intro fits count
    induction count with
    | zero =>
        intro _
        exact ⟨zeroedPmtData, rfl, zeroed_sound.inside⟩
    | succ count ih =>
        intro within
        obtain ⟨pmt, called, -⟩ := ih (by omega)
        have sound := calls_sound _ called
        obtain ⟨next, onward⟩ :=
          Option.isSome_iff_exists.mp ((call_is_some sound _).mpr (fits count within pmt called))
        refine ⟨next, ?_, (call_sound sound onward).inside⟩
        unfold parseCalls at called ⊢
        rw [Machine.follow_take_succ _ _ _ within, called, Option.bind_some, onward]

/-- A section is started, and the next packet has an adaptation field of 255 bytes. -/
def overlongCalls : List PmtCall := [
  ⟨1, .startingWith [0x47, 0x40, 0x64, 0x10, 0, 0x02, 0xb3, 0xfd, 0, 1, 0xc1, 0, 0] 0, fun _ => 0⟩,
  ⟨1, .startingWith [0x47, 0x00, 0x64, 0x31, 255] 0, fun _ => 0⟩]

theorem overlong_adaptation_field_leaves_packet : ¬StaysInside overlongCalls := by
  intro inside
  obtain ⟨pmt, called, -⟩ := inside 2 (by decide)
  have refused : parseCalls (overlongCalls.take 2) = none := by decide +kernel
  rw [refused] at called
  cases called

end Xineliboutput.Ts
