import Xineliboutput.Ts.PmtCarrying

/-!
# What the packets of a section are answered

A packet reports whether the checksum passes with it and the version number that
`ts_parse_pmt` takes from it, which is the one of the section only in the packet
that starts it. The answers depend on these reports and on the section parsed
last, and so the condition under which the division into packets does not show.
-/

namespace Xineliboutput.Ts

open Xineliboutput.Foundation

set_option autoImplicit false

variable {programNo : Nat}

/-! ## Reports and answers -/

structure Report where
  arrived : Bool
  version : Nat

structure Known where
  crc32 : UInt32
  versionNumber : Nat
  tables : PmtTables

def PmtData.known (pmt : PmtData) : Known := ⟨pmt.crc32, pmt.versionNumber, pmt.tables⟩

namespace PmtSection

variable (sect : PmtSection programNo)

/-- The reported section is parsed unless it is the one that is known. -/
def hear (known : Known) (report : Report) : Known × Bool :=
  if report.arrived = true ∧
      ¬(sect.crc32 = known.crc32 ∧ report.version = known.versionNumber) then
    (⟨sect.crc32, report.version, sect.asOneBlock known.tables⟩, true)
  else (known, false)

def hearAll : Known → List Report → Known × List Bool
  | known, [] => (known, [])
  | known, report :: reports =>
      ((hearAll (sect.hear known report).1 reports).1,
        (sect.hear known report).2 :: (hearAll (sect.hear known report).1 reports).2)

theorem hear_all_append (known : Known) (first second : List Report) :
    sect.hearAll known (first ++ second) =
      ((sect.hearAll (sect.hearAll known first).1 second).1,
        (sect.hearAll known first).2 ++ (sect.hearAll (sect.hearAll known first).1 second).2) := by
  induction first generalizing known with
  | nil => rfl
  | cons report first ih =>
      simp only [List.cons_append, hearAll, ih]

theorem hear_all_length (known : Known) (reports : List Report) :
    (sect.hearAll known reports).2.length = reports.length := by
  induction reports generalizing known with
  | nil => rfl
  | cons report reports ih => simp only [hearAll, List.length_cons, ih]

theorem hear_quiet_iff (known : Known) (report : Report) :
    (sect.hear known report).2 = false ↔ (report.arrived = true →
      sect.crc32 = known.crc32 ∧ report.version = known.versionNumber) := by
  unfold hear
  by_cases news : report.arrived = true ∧
      ¬(sect.crc32 = known.crc32 ∧ report.version = known.versionNumber)
  · rw [if_pos news]
    exact ⟨fun same => Bool.noConfusion same, fun old => absurd (old news.1) news.2⟩
  · rw [if_neg news]
    exact ⟨fun _ arrived => not_not.mp fun fresh => news ⟨arrived, fresh⟩, fun _ => rfl⟩

theorem hear_quiet {known : Known} {report : Report} (quiet : (sect.hear known report).2 = false) :
    (sect.hear known report).1 = known := by
  unfold hear at quiet ⊢
  split at quiet <;> rename_i news
  · exact Bool.noConfusion quiet
  · rw [if_neg news]

theorem hear_news {known : Known} {report : Report} (arrived : report.arrived = true)
    (fresh : ¬(sect.crc32 = known.crc32 ∧ report.version = known.versionNumber)) :
    sect.hear known report =
      (⟨sect.crc32, report.version, sect.asOneBlock known.tables⟩, true) :=
  if_pos ⟨arrived, fresh⟩

/-- Nothing is answered with one exactly if every section reported is the one known. -/
theorem hear_all_quiet_iff (known : Known) (reports : List Report) :
    (sect.hearAll known reports).2 = List.replicate reports.length false ↔
      ∀ report ∈ reports, report.arrived = true →
        sect.crc32 = known.crc32 ∧ report.version = known.versionNumber := by
  induction reports with
  | nil => simp [hearAll]
  | cons report reports ih =>
      rw [hearAll, List.length_cons, List.replicate_succ, List.cons.injEq, List.forall_mem_cons,
        ← hear_quiet_iff]
      constructor
      · rintro ⟨quiet, onward⟩
        rw [sect.hear_quiet quiet] at onward
        exact ⟨quiet, ih.mp onward⟩
      · rintro ⟨quiet, onward⟩
        rw [sect.hear_quiet quiet]
        exact ⟨quiet, ih.mpr onward⟩

theorem hear_all_quiet {known : Known} {reports : List Report}
    (quiet : (sect.hearAll known reports).2 = List.replicate reports.length false) :
    (sect.hearAll known reports).1 = known := by
  induction reports with
  | nil => rfl
  | cons report reports ih =>
      rw [hearAll, List.length_cons, List.replicate_succ, List.cons.injEq] at quiet
      obtain ⟨first, onward⟩ := quiet
      rw [sect.hear_quiet first] at onward
      rw [hearAll, sect.hear_quiet first]
      exact ih onward

/-- The section has been answered with one exactly once, at the completing report. -/
theorem hear_all_once_iff (known : Known) (before after : List Report) {completing : Report}
    (arrived : completing.arrived = true) (still : ∀ report ∈ after, report.arrived = true) :
    (sect.hearAll known (before ++ completing :: after)).2 =
        List.replicate before.length false ++ true :: List.replicate after.length false ↔
      (∀ report ∈ before, report.arrived = true →
        sect.crc32 = known.crc32 ∧ report.version = known.versionNumber) ∧
      ¬(sect.crc32 = known.crc32 ∧ completing.version = known.versionNumber) ∧
      ∀ report ∈ after, report.version = completing.version := by
  rw [hear_all_append, ← hear_all_quiet_iff]
  constructor
  · intro answers
    obtain ⟨quiet, answers⟩ := List.append_inj answers
      (by rw [hear_all_length, List.length_replicate])
    rw [sect.hear_all_quiet quiet, hearAll, List.cons.injEq] at answers
    obtain ⟨news, onward⟩ := answers
    have fresh : ¬(sect.crc32 = known.crc32 ∧ completing.version = known.versionNumber) := by
      intro old
      rw [(sect.hear_quiet_iff known completing).mpr fun _ => old] at news
      cases news
    rw [sect.hear_news arrived fresh, hear_all_quiet_iff] at onward
    exact ⟨quiet, fresh, fun report member => (onward report member (still report member)).2⟩
  · rintro ⟨quiet, fresh, same⟩
    have onward := (sect.hear_all_quiet_iff
      ⟨sect.crc32, completing.version, sect.asOneBlock known.tables⟩ after).mpr
      fun report member _ => ⟨rfl, same report member⟩
    rw [quiet, sect.hear_all_quiet quiet, hearAll, sect.hear_news arrived fresh]
    simp only [onward]

theorem hear_all_once_tables (known : Known) (before : List Report) {after : List Report}
    {completing : Report}
    (arrived : completing.arrived = true) (still : ∀ report ∈ after, report.arrived = true)
    (once : (sect.hearAll known (before ++ completing :: after)).2 =
      List.replicate before.length false ++ true :: List.replicate after.length false) :
    (sect.hearAll known (before ++ completing :: after)).1.tables =
      sect.asOneBlock known.tables := by
  obtain ⟨quiet, fresh, same⟩ := (sect.hear_all_once_iff known before after arrived still).mp once
  rw [hear_all_append, sect.hear_all_quiet ((sect.hear_all_quiet_iff _ _).mpr quiet), hearAll,
    sect.hear_news arrived fresh, sect.hear_all_quiet]
  rw [hear_all_quiet_iff]
  intro report member _
  exact ⟨rfl, same report member⟩

end PmtSection

/-! ## One packet -/

section Packet

variable {sect : PmtSection programNo} {stale stuffing : List UInt8} {count : Nat}

theorem finish_overlaid {stored : PmtData}
    (overlaid : Overlaid stale (sect.bytes ++ stuffing) count stored) (version : Nat) :
    ∃ after, stored.finishSection ⟨sect.sectionLength, version⟩ =
        some (after, (sect.hear stored.known ⟨sect.Arrived stale count, version⟩).2) ∧
      after.known = (sect.hear stored.known ⟨sect.Arrived stale count, version⟩).1 ∧
      after.pmt = stored.pmt ∧ Overlaid stale (sect.bytes ++ stuffing) count after := by
  have long := sect.long
  have short := sect.short
  have written : stored.pmtWritePtr.getD 0 = count := by rw [overlaid.placed]; rfl
  by_cases enough : sect.sectionLength ≤ count
  · have complete := finish_section_complete stored ⟨sect.sectionLength, version⟩
      (by simp only; omega) (by simp only; omega) (by simp only [written]; omega)
    rw [complete, overlaid_checksum overlaid enough]
    have passes := section_crc_iff overlaid enough
    by_cases arrived : sect.Arrived stale count
    · rw [if_neg (not_not.mpr (passes.mpr arrived)), passes.mpr arrived]
      by_cases known : sect.crc32 = stored.crc32 ∧ version = stored.versionNumber
      · have quiet := (sect.hear_quiet_iff stored.known
          ⟨sect.Arrived stale count, version⟩).mpr fun _ => known
        rw [if_pos known, quiet, sect.hear_quiet quiet]
        exact ⟨stored, rfl, rfl, rfl, overlaid⟩
      · have whole := (overlaid_arrived overlaid enough).mpr arrived
        have ran : (parseSection sect.sectionLength stored.tables).run stored.rawPmt.read =
            some (sect.asOneBlock stored.tables, true) := by
          apply (parseSection sect.sectionLength stored.tables).grows ?_ _
            (sect.parses_as_one_block stored.tables)
          intro position byte found
          unfold Memory.ofList at found
          rw [← whole, List.getElem?_take] at found
          split at found
          · exact found
          · cases found
        rw [if_neg known, ran, sect.hear_news (decide_eq_true arrived) known]
        exact ⟨_, rfl, rfl, rfl, overlaid.placed, overlaid.reached, overlaid.cells⟩
    · have quiet := (sect.hear_quiet_iff stored.known
        ⟨sect.Arrived stale count, version⟩).mpr fun claimed =>
          absurd (of_decide_eq_true claimed) arrived
      rw [if_pos fun same => arrived (passes.mp same), quiet, sect.hear_quiet quiet]
      exact ⟨stored, rfl, rfl, rfl, overlaid⟩
  · have quiet := (sect.hear_quiet_iff stored.known
      ⟨sect.Arrived stale count, version⟩).mpr fun claimed =>
        absurd (of_decide_eq_true claimed).1 enough
    rw [PmtData.finishSection, if_pos (by rw [written]; exact Nat.not_le.mp enough), quiet,
      sect.hear_quiet quiet]
    exact ⟨stored, rfl, rfl, rfl, overlaid⟩

/-- What a packet of the section reports when `count` bytes have been stored with it. -/
def report (sect : PmtSection programNo) (stale : List UInt8) (count : Nat) (pkt : TsPacket) :
    Report :=
  ⟨sect.Arrived stale count, versionField (pkt.cell 10)⟩

theorem restart_known (pmt : PmtData) (pkt : TsPacket) : (pmt.restart pkt).known = pmt.known := by
  unfold PmtData.restart
  split <;> rfl

theorem packet_heard {pmt : PmtData} {pkt : TsPacket} {behind : Nat → UInt8} {tail : List UInt8}
    (head : pmt.head programNo pkt behind =
      some ⟨sect.sectionLength, versionField (pkt.cell 10)⟩)
    (overlaid : Overlaid stale (sect.bytes ++ stuffing) count (pmt.restart pkt))
    (headers : pkt.payloadOffset + pointerSize pkt ≤ tsSize)
    (next : (sect.bytes ++ stuffing).drop count = chunk pkt ++ tail)
    (fits : count + (chunk pkt).length ≤ rawPmtSize) :
    ∃ after, tsParsePmt pmt programNo pkt behind =
        some (after, (sect.hear pmt.known
          (report sect stale (count + (chunk pkt).length) pkt)).2) ∧
      after.known = (sect.hear pmt.known (report sect stale (count + (chunk pkt).length) pkt)).1 ∧
      after.pmt = (pmt.restart pkt).pmt ∧
      Overlaid stale (sect.bytes ++ stuffing) (count + (chunk pkt).length) after := by
  obtain ⟨rawPmt, stores, stored⟩ := store_overlaid overlaid headers next fits
  obtain ⟨after, finishes, known, collecting, onward⟩ :=
    finish_overlaid stored (versionField (pkt.cell 10))
  refine ⟨after, ?_, ?_, collecting, onward⟩
  · rw [← restart_known pmt pkt, tsParsePmt, head]
    simp only [stores, Option.bind_some]
    exact finishes
  · rw [← restart_known pmt pkt]
    exact known

theorem call_fits {pmt after : PmtData} {pkt : TsPacket} {behind : Nat → UInt8}
    {answer : Bool} {version : Nat}
    (head : pmt.head programNo pkt behind = some ⟨sect.sectionLength, version⟩)
    (overlaid : Overlaid stale (sect.bytes ++ stuffing) count (pmt.restart pkt))
    (called : tsParsePmt pmt programNo pkt behind = some (after, answer)) :
    count + (chunk pkt).length ≤ rawPmtSize := by
  rw [tsParsePmt, head] at called
  obtain ⟨stored, stores, -⟩ := Option.bind_eq_some_iff.mp called
  have fits := ((store_payload_is_some pkt overlaid.placed).mp (by rw [stores]; rfl)).inBuffer
    count overlaid.placed
  rwa [← chunk_length] at fits

/-- The length field is read back from the buffer for every packet after the first. -/
theorem continued_head {pmt : PmtData} {pkt : TsPacket} (behind : Nat → UInt8)
    (overlaid : Overlaid stale (sect.bytes ++ stuffing) count pmt) (collecting : pmt.pmt = true)
    (begun : 3 ≤ count) (continued : pkt.payloadStart = false) :
    pmt.head programNo pkt behind = some ⟨sect.sectionLength, versionField (pkt.cell 10)⟩ := by
  have sized := sect.sized
  have front : pmt.rawPmt.cells.take 3 = sect.bytes.take 3 := by
    rw [overlaid_take overlaid (by omega), Nat.sub_eq_zero_of_le begun, List.take_zero,
      List.append_nil, List.take_of_length_le]
    rw [List.length_take]
    omega
  have stored : ∀ index : Fin rawPmtSize, index.val < 3 →
      pmt.rawPmt.cell index = sect.bytes.getD index 0 := by
    intro index early
    have found : pmt.rawPmt.cells[index.val]? = some (pmt.rawPmt.cell index) :=
      pmt.rawPmt.read_cell index
    rw [← List.getElem?_take_of_lt early, front, List.getElem?_take_of_lt early] at found
    rw [List.getD_eq_getElem?_getD, found]
    rfl
  unfold PmtData.head
  rw [if_neg (by rw [continued]; exact Bool.false_ne_true), if_pos collecting, stored 1 (by decide),
    stored 2 (by decide)]
  exact congrArg (fun length => some (SectionHead.mk length (versionField (pkt.cell 10))))
    sect.lengthField

end Packet

/-! ## All packets -/

def perform (programNo : Nat) (behind : TsPacket → Nat → UInt8) (pmt : PmtData) (pkt : TsPacket) :
    Option (PmtData × Bool) :=
  tsParsePmt pmt programNo pkt (behind pkt)

def reports (sect : PmtSection programNo) (stale : List UInt8) : Nat → List TsPacket → List Report
  | _, [] => []
  | count, pkt :: packets =>
      report sect stale (count + (chunk pkt).length) pkt ::
        reports sect stale (count + (chunk pkt).length) packets

theorem received_cons (pkt : TsPacket) (packets : List TsPacket) :
    received (pkt :: packets) = (chunk pkt).length + received packets := by
  rw [received, List.flatMap_cons, List.length_append, received]

section Rest

variable {sect : PmtSection programNo} {stale stuffing : List UInt8}

def Continues (pkt : TsPacket) : Prop :=
  pkt.payloadStart = false ∧ pkt.payloadOffset + pointerSize pkt ≤ tsSize

theorem continued_restart {pkt : TsPacket} (continued : pkt.payloadStart = false) (pmt : PmtData) :
    pmt.restart pkt = pmt := by
  unfold PmtData.restart
  rw [if_neg (by rw [continued]; exact Bool.false_ne_true)]

theorem rest_heard (behind : TsPacket → Nat → UInt8) (packets : List TsPacket)
    (continued : ∀ pkt ∈ packets, Continues pkt) {count : Nat} {pmt : PmtData}
    (overlaid : Overlaid stale (sect.bytes ++ stuffing) count pmt) (collecting : pmt.pmt = true)
    (begun : 3 ≤ count)
    (next : (sect.bytes ++ stuffing).drop count = packets.flatMap chunk)
    (fits : count + received packets ≤ rawPmtSize) :
    ∃ final labels, Machine.drive (perform programNo behind) pmt packets = some (final, labels) ∧
      final.known = (sect.hearAll pmt.known (reports sect stale count packets)).1 ∧
      labels.map Prod.snd = (sect.hearAll pmt.known (reports sect stale count packets)).2 := by
  induction packets generalizing count pmt with
  | nil => exact ⟨pmt, [], rfl, rfl, rfl⟩
  | cons pkt packets ih =>
      have member := List.forall_mem_cons.mp continued
      have started := continued_restart member.1.1 pmt
      have head := continued_head (behind pkt) overlaid collecting begun member.1.1
      rw [received_cons] at fits
      rw [List.flatMap_cons] at next
      obtain ⟨after, called, known, still, onward⟩ := packet_heard head
        (by rw [started]; exact overlaid) member.1.2 next (by omega)
      rw [started, collecting] at still
      obtain ⟨final, labels, driven, finalKnown, answers⟩ := ih member.2 onward still (by omega)
        (by rw [← List.drop_drop, next, List.drop_left]) (by omega)
      refine ⟨final, (pkt, (sect.hear pmt.known
        (report sect stale (count + (chunk pkt).length) pkt)).2) :: labels, ?_, ?_, ?_⟩
      · rw [Machine.drive, perform, called]
        simp only [driven, Option.map_some]
      · rw [reports, PmtSection.hearAll, ← known]
        exact finalKnown
      · rw [List.map_cons, reports, PmtSection.hearAll, ← known, answers]

theorem rest_fits {behind : TsPacket → Nat → UInt8} (packets : List TsPacket)
    (continued : ∀ pkt ∈ packets, Continues pkt) {count : Nat} {pmt : PmtData}
    (overlaid : Overlaid stale (sect.bytes ++ stuffing) count pmt) (collecting : pmt.pmt = true)
    (begun : 3 ≤ count) (bounded : count ≤ rawPmtSize)
    (next : (sect.bytes ++ stuffing).drop count = packets.flatMap chunk)
    (driven : (Machine.drive (perform programNo behind) pmt packets).isSome = true) :
    count + received packets ≤ rawPmtSize := by
  induction packets generalizing count pmt with
  | nil => exact bounded
  | cons pkt packets ih =>
      have member := List.forall_mem_cons.mp continued
      have started := continued_restart member.1.1 pmt
      have head := continued_head (behind pkt) overlaid collecting begun member.1.1
      have restarted : Overlaid stale (sect.bytes ++ stuffing) count (pmt.restart pkt) := by
        rw [started]
        exact overlaid
      rw [List.flatMap_cons] at next
      rw [Machine.drive, perform] at driven
      cases called : tsParsePmt pmt programNo pkt (behind pkt) with
      | none =>
          rw [called] at driven
          cases driven
      | some result =>
          obtain ⟨after', answer⟩ := result
          have fits := call_fits head restarted called
          obtain ⟨after, called', known, still, onward⟩ :=
            packet_heard head restarted member.1.2 next fits
          rw [called'] at called driven
          rw [started, collecting] at still
          simp only [Option.isSome_map] at driven
          have later := ih member.2 onward still (by omega) fits
            (by rw [← List.drop_drop, next, List.drop_left]) driven
          rw [received_cons]
          omega

end Rest

end Xineliboutput.Ts
