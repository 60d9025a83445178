import Xineliboutput.Ts.PmtReassembly

/-!
# Rejected program maps

Most tests of `ts_parse_pmt` come before anything of the tables is changed. Those of the
lengths come after the checksum and the version have been taken over and the PIDs reset.
-/

namespace Xineliboutput.Ts

open Xineliboutput.Foundation

set_option autoImplicit false

/-! ## Consistent lengths -/

/-- The stream info lengths from `stream` on lead to `stop`. -/
inductive StreamLengths (memory : Memory UInt8) (stop : Nat) : Nat → Prop where
  | done : StreamLengths memory stop stop
  | next {stream infoWord : Nat} (sized : (fetchWord (stream + 3)).run memory = some infoWord)
      (inside : stream + 5 + infoWord % 0x1000 ≤ stop)
      (onward : StreamLengths memory stop (stream + 5 + infoWord % 0x1000)) :
      StreamLengths memory stop stream

/-- The program info and the streams fill the section up to the checksum. -/
structure ConsistentLengths (rawPmt : Block UInt8 rawPmtSize) (sectionLength : Nat) : Prop where
  program : 13 + programInfoLength rawPmt ≤ sectionLength
  streams : StreamLengths rawPmt.read (sectionLength - 1) (12 + programInfoLength rawPmt)

theorem parse_streams_lengths {memory : Memory UInt8} {hdmvPmt : Bool} (rounds : Nat)
    {stream sectionLength : Nat} {tables parsed : PmtTables} {consistent : Bool}
    (enough : sectionLength ≤ rounds)
    (ran : (parseStreams hdmvPmt rounds stream sectionLength tables).run memory =
      some (parsed, consistent)) :
    consistent = true ↔ StreamLengths memory (stream + sectionLength) stream := by
  induction rounds generalizing stream sectionLength tables with
  | zero =>
      cases ran
      have none : sectionLength = 0 := Nat.le_zero.mp enough
      rw [none]
      exact ⟨fun _ => .done, fun _ => rfl⟩
  | succ rounds following =>
      rw [parseStreams, Scan.run_ite] at ran
      by_cases more : 0 < sectionLength
      · rw [if_pos more] at ran
        simp only [Scan.run_bind, Option.bind_eq_some_iff] at ran
        rcases ran with ⟨pidWord, -, infoWord, sized, ran⟩
        rw [Scan.run_ite] at ran
        by_cases long : sectionLength < 5 + infoWord % 0x1000
        · rw [if_pos long] at ran
          cases ran
          constructor
          · exact nofun
          · intro lengths
            generalize ends : stream + sectionLength = stop at lengths
            cases lengths with
            | done => omega
            | next sized' inside onward =>
                rw [sized] at sized'
                cases sized'
                omega
        · rw [if_neg long] at ran
          simp only [Scan.run_bind, Option.bind_eq_some_iff] at ran
          rcases ran with ⟨grown, -, ran⟩
          have later := following (by omega) ran
          have stop : stream + (5 + infoWord % 0x1000) +
              (sectionLength - (5 + infoWord % 0x1000)) = stream + sectionLength := by
            omega
          rw [stop, ← Nat.add_assoc] at later
          rw [later]
          constructor
          · intro onward
            exact .next sized (by omega) onward
          · intro lengths
            generalize ends : stream + sectionLength = stop at lengths
            cases lengths with
            | done => omega
            | next sized' inside onward =>
                rw [sized] at sized'
                cases sized'
                exact onward
      · rw [if_neg more] at ran
        cases ran
        have none : sectionLength = 0 := Nat.eq_zero_of_not_pos more
        rw [none]
        exact ⟨fun _ => .done, fun _ => rfl⟩

theorem parse_section_lengths {rawPmt : Block UInt8 rawPmtSize} {sectionLength : Nat}
    {tables parsed : PmtTables} {result : Bool}
    (ran : (parseSection sectionLength tables).run rawPmt.read = some (parsed, result)) :
    result = true ↔ ConsistentLengths rawPmt sectionLength := by
  unfold parseSection at ran
  rw [Scan.run_bind, program_info_word, Option.bind_some, Scan.run_bind] at ran
  rcases Option.bind_eq_some_iff.mp ran with ⟨identifier, -, ran⟩
  have info : word (rawPmt.cell 10) (rawPmt.cell 11) % 0x1000 = programInfoLength rawPmt := rfl
  rw [Scan.run_ite, info] at ran
  by_cases long : sectionLength < 13 + programInfoLength rawPmt
  · rw [if_pos long] at ran
    cases ran
    constructor
    · exact nofun
    · intro consistent
      exact absurd consistent.program (Nat.not_le.mpr long)
  · rw [if_neg long, Scan.run_bind] at ran
    rcases Option.bind_eq_some_iff.mp ran with ⟨⟨grown, whole⟩, streams, ran⟩
    have lengths := parse_streams_lengths _ (Nat.le_refl _) streams
    have stop : 12 + programInfoLength rawPmt + (sectionLength - (13 + programInfoLength rawPmt)) =
        sectionLength - 1 := by
      omega
    rw [stop] at lengths
    have same : result = whole := by
      rw [Scan.run_ite] at ran
      cases whole with
      | false =>
          cases ran
          rfl
      | true =>
          simp only [if_true, Scan.run_bind, Option.bind_eq_some_iff] at ran
          rcases ran with ⟨pcrWord, -, ran⟩
          cases ran
          rfl
    rw [same, lengths]
    exact ⟨fun streams => ⟨Nat.not_lt.mp long, streams⟩, fun consistent => consistent.streams⟩

/-! ## One call -/

/-- What the demuxer uses: the tables, the checksum and the version. -/
structure PmtData.SameMap (after before : PmtData) : Prop where
  tables : after.tables = before.tables
  crc32 : after.crc32 = before.crc32
  versionNumber : after.versionNumber = before.versionNumber

theorem PmtData.SameMap.refl (pmt : PmtData) : pmt.SameMap pmt := ⟨rfl, rfl, rfl⟩

theorem restart_same_map (pmt : PmtData) (pkt : TsPacket) : (pmt.restart pkt).SameMap pmt := by
  unfold PmtData.restart
  split
  · exact ⟨rfl, rfl, rfl⟩
  · exact .refl pmt

theorem store_payload_same_map {pmt stored : PmtData} {pkt : TsPacket}
    (stores : pmt.storePayload pkt = some stored) : stored.SameMap pmt := by
  rcases store_payload_spec stores with ⟨write, rawPmt, -, -, -, rfl⟩
  exact ⟨rfl, rfl, rfl⟩

/-- A finished section leaves the map alone or is accepted; then the checksum or the version
is another one. -/
theorem finish_section_cases {stored after : PmtData} {head : SectionHead} {result : Bool}
    (short : head.sectionLength < 0x400)
    (finishes : stored.finishSection head = some (after, result)) :
    (¬stored.Accepts head ∧ after.SameMap stored ∧ result = false) ∨
      (stored.Accepts head ∧ ¬after.SameMap stored ∧
        (result = true ↔ ConsistentLengths stored.rawPmt head.sectionLength)) := by
  by_cases incomplete : stored.pmtWritePtr.getD 0 < head.sectionLength
  · left
    rw [PmtData.finishSection, if_pos incomplete] at finishes
    cases finishes
    exact ⟨fun accepts => absurd accepts.complete (Nat.not_le.mpr incomplete), .refl _, rfl⟩
  by_cases empty : head.sectionLength = 0
  · left
    rw [PmtData.finishSection, if_neg incomplete, if_pos empty] at finishes
    cases finishes
    exact ⟨fun accepts => absurd empty accepts.nonempty, ⟨rfl, rfl, rfl⟩, rfl⟩
  rw [finish_section_complete stored head short empty incomplete] at finishes
  split at finishes
  case isTrue broken =>
    left
    cases finishes
    exact ⟨fun accepts => broken accepts.checked, .refl _, rfl⟩
  case isFalse checked =>
    split at finishes
    case isTrue known =>
      left
      cases finishes
      exact ⟨fun accepts => accepts.changed known, .refl _, rfl⟩
    case isFalse changed =>
      right
      rcases Option.bind_eq_some_iff.mp finishes with ⟨parsed, ran, same⟩
      cases same
      constructor
      · exact ⟨empty, Nat.not_lt.mp incomplete, not_not.mp checked, changed⟩
      constructor
      · intro unchanged
        exact changed ⟨unchanged.crc32, unchanged.versionNumber⟩
      · exact parse_section_lengths ran

/-- If the packet completes a section that is accepted, its lengths are consistent. -/
def PmtData.CompletesConsistently (pmt : PmtData) (call : PmtCall) : Prop :=
  ∀ head stored, pmt.head call.programNo call.pkt call.behind = some head →
    (pmt.restart call.pkt).storePayload call.pkt = some stored → stored.Accepts head →
    ConsistentLengths stored.rawPmt head.sectionLength

/-- For every state and packet, a call that returns 0 leaves the map as it was exactly where the
packet does not complete an accepted section with inconsistent lengths. -/
theorem rejected_unchanged_iff (pmt : PmtData) (call : PmtCall) {after : PmtData} {result : Bool}
    (returned : tsParsePmt pmt call.programNo call.pkt call.behind = some (after, result)) :
    (result = false → after.SameMap pmt) ↔ pmt.CompletesConsistently call := by
  unfold tsParsePmt at returned
  unfold PmtData.CompletesConsistently
  cases known : pmt.head call.programNo call.pkt call.behind with
  | none =>
      rw [known] at returned
      cases returned
      exact ⟨fun _ _ _ => nofun, fun _ _ => restart_same_map pmt call.pkt⟩
  | some head =>
      rw [known] at returned
      rcases Option.bind_eq_some_iff.mp returned with ⟨stored, stores, finishes⟩
      have kept : stored.SameMap pmt := by
        have restarted := restart_same_map pmt call.pkt
        have payload := store_payload_same_map stores
        exact ⟨payload.tables.trans restarted.tables, payload.crc32.trans restarted.crc32,
          payload.versionNumber.trans restarted.versionNumber⟩
      rcases finish_section_cases (head_short known) finishes with
        ⟨refused, same, zero⟩ | ⟨accepts, differs, parsed⟩
      · constructor
        · intro _ head' stored' known' stores' accepts
          cases known'
          rw [stores] at stores'
          cases stores'
          exact absurd accepts refused
        · intro _ _
          exact ⟨same.tables.trans kept.tables, same.crc32.trans kept.crc32,
            same.versionNumber.trans kept.versionNumber⟩
      · constructor
        · intro unchanged head' stored' known' stores' _
          cases known'
          rw [stores] at stores'
          cases stores'
          apply parsed.mp
          cases result with
          | true => rfl
          | false =>
              have map := unchanged rfl
              exact absurd ⟨map.tables.trans kept.tables.symm, map.crc32.trans kept.crc32.symm,
                map.versionNumber.trans kept.versionNumber.symm⟩ differs
        · intro consistent zero
          have one := parsed.mpr (consistent head stored rfl stores accepts)
          rw [zero] at one
          cases one

/-! ## Two sections -/

/-- A stream is being demuxed: its map has a video and an audio stream. -/
def demuxedPmt : PmtData :=
  { zeroedPmtData with
    crc32 := 0x12345678
    versionNumber := 3
    tables := {
      pcrPid := 0x100
      videoPid := 0x100
      videoType := 0x02
      audioTracks := TrackTable.none.add ⟨0x101, 0x04⟩
      spuTracks := .none } }

/-- A section of one stream in one packet, with these four bytes for a checksum. -/
def oneStreamCall (infoLength : UInt8) (checksum : List UInt8) : PmtCall where
  programNo := 1
  pkt := .startingWith ([0x47, 0x40, 0x64, 0x10, 0, 0x02, 0xb0, 18, 0, 1, 0xc1, 0, 0, 0xe1, 0x00,
    0xf0, 0, 0x02, 0xe1, 0x00, 0xf0, infoLength] ++ checksum) 0xff
  behind _ := 0

/-- The section's checksum is wrong, and the map stays. -/
theorem wrong_checksum_unchanged :
    ∃ after, tsParsePmt demuxedPmt 1 (oneStreamCall 0 [0, 0, 0, 0]).pkt (fun _ => 0) =
      some (after, false) ∧ after.SameMap demuxedPmt := by
  have zero : (tsParsePmt demuxedPmt 1 (oneStreamCall 0 [0, 0, 0, 0]).pkt (fun _ => 0)).map
      Prod.snd = some false := by
    decide +kernel
  rcases Option.map_eq_some_iff.mp zero with ⟨⟨after, result⟩, returned, rfl⟩
  apply Exists.intro after
  refine ⟨returned, (rejected_unchanged_iff demuxedPmt (oneStreamCall 0 [0, 0, 0, 0])
    returned).mpr ?_ rfl⟩
  intro head stored known stores accepts
  have short : demuxedPmt.head 1 (oneStreamCall 0 [0, 0, 0, 0]).pkt (fun _ => 0) =
      some ⟨18, 0⟩ := by
    decide +kernel
  have broken : ((demuxedPmt.restart (oneStreamCall 0 [0, 0, 0, 0]).pkt).storePayload
      (oneStreamCall 0 [0, 0, 0, 0]).pkt).all (fun stored => stored.sectionCrc 18 !=
        tsComputeCrc32 (stored.rawPmt.cells.take 17) 0xffffffff) = true := by
    decide +kernel
  have same : head = ⟨18, 0⟩ := Option.some.inj (known.symm.trans short)
  rw [stores, Option.all_some, bne_iff_ne] at broken
  rw [same] at accepts
  exact absurd accepts.checked broken

/-- The stream info claims 255 bytes: 0 is returned, the PIDs are gone and the version is that of
the section. -/
theorem inconsistent_length_resets :
    (tsParsePmt demuxedPmt 1 (oneStreamCall 0xff [0x2f, 0x7c, 0x63, 0x65]).pkt
        (fun _ => 0)).map (fun (after, result) =>
          (after.tables.videoPid, after.tables.audioTracks.entries, after.versionNumber, result)) =
      some (invalidPid, [], 0, false) ∧
    demuxedPmt.tables.videoPid = 0x100 ∧
      demuxedPmt.tables.audioTracks.entries = [⟨0x101, 0x04⟩] ∧ demuxedPmt.versionNumber = 3 := by
  decide +kernel

end Xineliboutput.Ts
