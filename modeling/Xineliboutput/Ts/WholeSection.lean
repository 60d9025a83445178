import Xineliboutput.Ts.PmtReassembly

/-!
# Well-formed sections

The descriptor loops of a well-formed section fill the lengths given for them, and
its streams fill the section up to the checksum. The parser reads such a section
without a look past its end and returns one.
-/

namespace Xineliboutput.Ts

open Xineliboutput.Foundation

set_option autoImplicit false

/-! ## Loops that fill their length -/

inductive DescriptorLoop (memory : Memory UInt8) (stop : Nat) : Nat → Prop where
  | done : DescriptorLoop memory stop stop
  | next {p : Nat} {length : UInt8} (sized : memory (p + 1) = some length)
      (inside : p + 2 + length.toNat ≤ stop)
      (onward : DescriptorLoop memory stop (p + 2 + length.toNat)) : DescriptorLoop memory stop p

inductive StreamLoop (memory : Memory UInt8) (stop : Nat) : Nat → Prop where
  | done : StreamLoop memory stop stop
  | next {p infoWord : Nat} (sized : (fetchWord (p + 3)).run memory = some infoWord)
      (inside : p + 5 + infoWord % 0x1000 ≤ stop)
      (descriptors : DescriptorLoop memory (p + 5 + infoWord % 0x1000) (p + 5))
      (onward : StreamLoop memory stop (p + 5 + infoWord % 0x1000)) : StreamLoop memory stop p

section Loops

variable {memory : Memory UInt8} {stop : Nat}

theorem StreamLoop.start_le {p : Nat} (streams : StreamLoop memory stop p) : p ≤ stop := by
  cases streams <;> omega

theorem reg_desc_reads {d : Nat} (rounds : Nat) (descriptors : DescriptorLoop memory stop d)
    (reaches : ∀ position < stop, (memory position).isSome = true) :
    ((regDescFrom stop rounds d).run memory).isSome = true := by
  induction rounds generalizing d with
  | zero => rfl
  | succ rounds ih =>
      rw [regDescFrom, Scan.run_ite]
      by_cases before : d < stop
      · cases descriptors with
        | done => omega
        | next sized inside onward =>
            rename_i length
            obtain ⟨tag, tagged⟩ := Option.isSome_iff_exists.mp (reaches d before)
            rw [if_pos before]
            simp only [Scan.run_bind, Scan.run_fetch, tagged, sized, Option.bind_some,
              Scan.run_ite]
            by_cases registration : tag = 5 ∧ 4 ≤ length
            · rw [if_pos registration]
              have long := UInt8.le_iff_toNat_le.mp registration.2
              have four : (4 : UInt8).toNat = 4 := rfl
              exact fetch_word32_ends (by omega) memory reaches
            · rw [if_neg registration]
              exact ih onward
      · rw [if_neg before]
        rfl

theorem pes_private_reads {stream codedLength i : Nat} (pid rounds : Nat) (tables : PmtTables)
    (descriptors : DescriptorLoop memory (stream + codedLength) (stream + i))
    (reaches : ∀ position < stream + codedLength, (memory position).isSome = true) :
    ((parsePesPrivate stream pid codedLength rounds i tables).run memory).isSome = true := by
  induction rounds generalizing i tables with
  | zero => rfl
  | succ rounds ih =>
      rw [parsePesPrivate, Scan.run_ite]
      by_cases before : i < codedLength
      · generalize start : stream + i = p at descriptors
        cases descriptors with
        | done => omega
        | next sized inside onward =>
            rename_i length
            subst start
            have step : stream + i + 2 + length.toNat = stream + (i + (length.toNat + 2)) := by
              omega
            rw [step] at onward
            obtain ⟨tag, tagged⟩ := Option.isSome_iff_exists.mp (reaches (stream + i) (by omega))
            rw [if_pos before]
            simp only [Scan.run_bind, Scan.run_fetch, tagged, Option.bind_some]
            generalize (if isAudioDescriptor tag then
              tables.addAudioTrack pid (descriptorToStreamType tag) else none) = added
            cases added with
            | some tables => rfl
            | none =>
                simp only [Scan.run_bind, Scan.run_fetch, sized, Option.bind_some, Scan.run_ite]
                split
                · have subtitles : Scan.EndsWithin (stream + (i + 2 + length.toNat))
                      (parseDvbSub stream pid (i + 2 + length.toNat) length.toNat (i + 2) tables) :=
                    dvb_sub_ends (Nat.le_refl _) _ _ _ _
                  obtain ⟨tables, ran⟩ := Option.isSome_iff_exists.mp
                    (subtitles memory fun position lower => reaches position (by omega))
                  rw [ran, Option.bind_some]
                  exact ih tables onward
                · exact ih tables onward
      · rw [if_neg before]
        rfl

theorem other_reads {stream streamInfoLength : Nat} (pid : Nat) (streamType : UInt8)
    (tables : PmtTables)
    (descriptors : DescriptorLoop memory (stream + 5 + streamInfoLength) (stream + 5))
    (reaches : ∀ position < stream + 5 + streamInfoLength, (memory position).isSome = true) :
    ((parseOther stream streamInfoLength pid streamType tables).run memory).isSome = true := by
  unfold parseOther
  rw [Scan.run_ite]
  split
  · rw [Scan.run_ite]
    split
    · rfl
    · obtain ⟨identifier, ran⟩ := Option.isSome_iff_exists.mp
        (reg_desc_reads streamInfoLength descriptors reaches)
      rw [Scan.run_bind, tsGetRegDesc, ran, Option.bind_some, Scan.run_ite]
      split <;> rfl
  · rfl

theorem stream_reads {stream streamInfoLength : Nat} (hdmvPmt : Bool) (pid : Nat)
    (tables : PmtTables)
    (descriptors : DescriptorLoop memory (stream + 5 + streamInfoLength) (stream + 5))
    (reaches : ∀ position < stream + 5 + streamInfoLength, (memory position).isSome = true) :
    ((parseStream hdmvPmt stream streamInfoLength pid tables).run memory).isSome = true := by
  obtain ⟨streamType, typed⟩ := Option.isSome_iff_exists.mp (reaches stream (by omega))
  unfold parseStream
  rw [Scan.run_bind, Scan.run_fetch, typed, Option.bind_some]
  simp only [Scan.run_ite]
  split
  · rfl
  split
  · rfl
  split
  · rfl
  split
  · rw [Nat.add_assoc] at descriptors reaches
    exact pes_private_reads pid streamInfoLength tables descriptors reaches
  split
  · rfl
  split
  · rfl
  · exact other_reads pid streamType tables descriptors reaches

theorem streams_read (hdmvPmt : Bool) (rounds : Nat) {stream : Nat} (tables : PmtTables)
    (enough : stop ≤ stream + rounds) (streams : StreamLoop memory stop stream)
    (reaches : ∀ position < stop, (memory position).isSome = true) :
    ∃ parsed, (parseStreams hdmvPmt rounds stream (stop - stream) tables).run memory =
      some (parsed, true) := by
  induction rounds generalizing stream tables with
  | zero => exact ⟨tables, rfl⟩
  | succ rounds ih =>
      rw [parseStreams, Scan.run_ite]
      by_cases more : 0 < stop - stream
      · cases streams with
        | done => omega
        | next sized inside descriptors onward =>
            rename_i infoWord
            have pidFetched : ((fetchWord (stream + 1)).run memory).isSome = true :=
              fetch_word_ends (by omega) memory reaches
            obtain ⟨pidWord, pidRead⟩ := Option.isSome_iff_exists.mp pidFetched
            have consistent : ¬stop - stream < 5 + infoWord % 0x1000 := by omega
            obtain ⟨tables, ran⟩ := Option.isSome_iff_exists.mp
              (stream_reads hdmvPmt (pidWord % 0x2000) tables descriptors
                fun position lower => reaches position (by omega))
            rw [if_pos more]
            simp only [Scan.run_bind, pidRead, sized, Option.bind_some, Scan.run_ite]
            rw [if_neg consistent, ran, Option.bind_some, Nat.sub_sub, ← Nat.add_assoc]
            exact ih tables (by omega) onward
      · rw [if_neg more]
        exact ⟨tables, rfl⟩

end Loops

/-! ## Sections -/

/-- A whole map section of the program: its header passes the checks, its loops
fill it, and its last four bytes are its checksum. -/
structure PmtSection (programNo : Nat) where
  bytes : List UInt8
  sectionLength : Nat
  programInfoLength : Nat
  sized : bytes.length = sectionLength + 3
  short : sectionLength ≤ 1021
  lengthField : word (bytes.getD 1 0) (bytes.getD 2 0) % 0x400 = sectionLength
  syntaxIndicator : bytes.getD 1 0 &&& 0x80 ≠ 0
  program : word (bytes.getD 3 0) (bytes.getD 4 0) = programNo
  currentNext : bytes.getD 5 0 &&& 0x01 ≠ 0
  sectionNumber : bytes.getD 6 0 = 0
  lastSectionNumber : bytes.getD 7 0 = 0
  infoField : word (bytes.getD 10 0) (bytes.getD 11 0) % 0x1000 = programInfoLength
  programInfo : DescriptorLoop (Memory.ofList bytes) (12 + programInfoLength) 12
  streams : StreamLoop (Memory.ofList bytes) (sectionLength - 1) (12 + programInfoLength)
  checksum : bigEndianValue (bytes.drop (sectionLength - 1)) =
    (tsComputeCrc32 (bytes.take (sectionLength - 1)) 0xffffffff).toNat

namespace PmtSection

variable {programNo : Nat}

theorem long (sect : PmtSection programNo) : 13 + sect.programInfoLength ≤ sect.sectionLength := by
  have filled := sect.streams.start_le
  omega

theorem reaches (sect : PmtSection programNo) :
    ∀ position < sect.bytes.length, (Memory.ofList sect.bytes position).isSome = true :=
  fun position => (Memory.of_list_extent sect.bytes position).mpr

/-- `ts_parse_pmt` reads a well-formed section without a byte outside it, and returns one. -/
theorem parses (sect : PmtSection programNo) (tables : PmtTables) :
    ∃ parsed, (parseSection sect.sectionLength tables).run (Memory.ofList sect.bytes) =
      some (parsed, true) := by
  have long := sect.long
  have sized := sect.sized
  have infoFetched := list_word sect.bytes 10 (by omega)
  obtain ⟨identifier, identified⟩ := Option.isSome_iff_exists.mp
    (reg_desc_reads sect.programInfoLength sect.programInfo
      fun position lower => sect.reaches position (by omega))
  have consistent : ¬sect.sectionLength < 13 + sect.programInfoLength := by omega
  obtain ⟨parsed, ran⟩ := streams_read (identifier = 0x48444d56)
    (sect.sectionLength - (13 + sect.programInfoLength)) tables.resetPids (by omega) sect.streams
    fun position lower => sect.reaches position (by omega)
  rw [show sect.sectionLength - 1 - (12 + sect.programInfoLength) =
    sect.sectionLength - (13 + sect.programInfoLength) by omega] at ran
  have pcrFetched := list_word sect.bytes 8 (by omega)
  refine ⟨{ parsed with
    pcrPid := word (sect.bytes.getD 8 0) (sect.bytes.getD 9 0) % 0x2000 }, ?_⟩
  unfold parseSection tsGetRegDesc
  rw [Scan.run_bind, infoFetched, Option.bind_some, sect.infoField, Scan.run_bind, identified,
    Option.bind_some, Scan.run_ite, if_neg consistent, Scan.run_bind, ran, Option.bind_some,
    Scan.run_ite, if_pos rfl, Scan.run_bind, pcrFetched]
  rfl

end PmtSection
end Xineliboutput.Ts
