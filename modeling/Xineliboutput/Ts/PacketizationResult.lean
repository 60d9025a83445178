import Xineliboutput.Ts.Packetization

/-!
# The result and the division into packets

`ts_parse_pmt` stores what follows the first payload byte of the packet that
starts a section. Where the section follows there, its result is that of the
section as one block except for the disturbances named here.
-/

namespace Xineliboutput.Ts

open Xineliboutput.Foundation

set_option autoImplicit false

variable {programNo : Nat}

namespace Carrying

variable {sect : PmtSection programNo}

/-- The section follows the header of its first packet and an empty pointer field. -/
structure PlainStart (carrying : Carrying sect) : Prop where
  noSkipped : carrying.skipped = []
  noAdaptation : ∀ pkt ∈ carrying.packets, pkt.payloadStart = true → pkt.adaptFieldExists = false

/-- One is returned for the packet that completes the section and zero for the
others, and the tables are those of the section as one block. -/
def SameAsOneBlock (carrying : Carrying sect) (pmt : PmtData) (behind : TsPacket → Nat → UInt8) :
    Prop :=
  ∃ final labels,
    Machine.drive (perform programNo behind) pmt carrying.packets = some (final, labels) ∧
    labels.map Prod.snd = List.replicate carrying.before.length false ++
      true :: List.replicate carrying.after.length false ∧
    final.tables = sect.asOneBlock pmt.tables

/-- Everything is stored inside `raw_pmt`, no earlier packet ends where the rest of
the section already stands in the buffer, and the version numbers taken from the
packets neither make the section look known nor look new again. -/
structure Undisturbed (carrying : Carrying sect) (pmt : PmtData) : Prop where
  fits : received carrying.packets ≤ rawPmtSize
  notEarly : ∀ earlier pkt later, carrying.before = earlier ++ pkt :: later →
    sect.Arrived pmt.rawPmt.cells (received (earlier ++ [pkt])) →
      sect.crc32 = pmt.crc32 ∧ versionField (pkt.cell 10) = pmt.versionNumber
  notKnown : ¬(sect.crc32 = pmt.crc32 ∧
    versionField (carrying.completing.cell 10) = pmt.versionNumber)
  notAgain : ∀ pkt ∈ carrying.after,
    versionField (pkt.cell 10) = versionField (carrying.completing.cell 10)

end Carrying

/-! ## Reports of a part of the packets -/

theorem received_append (first second : List TsPacket) :
    received (first ++ second) = received first + received second := by
  simp only [received, List.flatMap_append, List.length_append]

theorem reports_append (sect : PmtSection programNo) (stale : List UInt8) (count : Nat)
    (first second : List TsPacket) :
    reports sect stale count (first ++ second) =
      reports sect stale count first ++ reports sect stale (count + received first) second := by
  induction first generalizing count with
  | nil => rfl
  | cons pkt first ih =>
      rw [List.cons_append, reports, reports, List.cons_append, ih, received_cons, Nat.add_assoc]

theorem reports_length (sect : PmtSection programNo) (stale : List UInt8) (count : Nat)
    (packets : List TsPacket) : (reports sect stale count packets).length = packets.length := by
  induction packets generalizing count with
  | nil => rfl
  | cons pkt packets ih => rw [reports, List.length_cons, List.length_cons, ih]

theorem mem_reports {sect : PmtSection programNo} {stale : List UInt8} {count : Nat}
    {packets : List TsPacket} {heard : Report} :
    heard ∈ reports sect stale count packets ↔ ∃ earlier pkt later,
      packets = earlier ++ pkt :: later ∧
        heard = report sect stale (count + received (earlier ++ [pkt])) pkt := by
  constructor
  · intro member
    induction packets generalizing count with
    | nil => cases member
    | cons first packets ih =>
        rw [reports, List.mem_cons] at member
        cases member with
        | inl same =>
            refine ⟨[], first, packets, rfl, ?_⟩
            rw [same, List.nil_append, received_cons]
            rfl
        | inr later =>
            obtain ⟨earlier, pkt, later, same, heardSame⟩ := ih later
            refine ⟨first :: earlier, pkt, later, by rw [same, List.cons_append], ?_⟩
            rw [heardSame, List.cons_append, received_cons, Nat.add_assoc]
  · rintro ⟨earlier, pkt, later, rfl, rfl⟩
    rw [reports_append, reports, received_append, received_cons, show received [] = 0 from rfl,
      Nat.add_zero, ← Nat.add_assoc]
    exact List.mem_append_right _ List.mem_cons_self

/-! ## The first packet -/

section First

variable {sect : PmtSection programNo} {first : TsPacket} {tail stuffing : List UInt8}

theorem first_cell (offset : first.payloadOffset = 4)
    (carried : first.payload ++ tail = 0 :: (sect.bytes ++ stuffing)) {index : Nat}
    (inside : index < 184) :
    first.cells[4 + index]? = (0 :: (sect.bytes ++ stuffing))[index]? := by
  have length := first.payload_length
  rw [offset] at length
  unfold tsSize at length
  rw [← carried, List.getElem?_append_left (by omega), TsPacket.payload, offset,
    List.getElem?_drop]

theorem first_header (offset : first.payloadOffset = 4)
    (carried : first.payload ++ tail = 0 :: (sect.bytes ++ stuffing)) (behind : Nat → UInt8)
    {i : Nat} (lower : 5 ≤ i) (upper : i < 13) :
    headerByte first behind i = sect.bytes.getD (i - 5) 0 := by
  have long := sect.long
  have sized := sect.sized
  have pointer : first.cell 4 = 0 := by
    have found : first.cells[4]? = some (first.cell 4) := first.read_cell 4
    rw [first_cell offset carried (by omega : 0 < 184)] at found
    exact (Option.some.inj found).symm
  have placed := first_cell offset carried (by omega : i - 5 + 1 < 184)
  rw [show 4 + (i - 5 + 1) = i by omega, List.getElem?_cons_succ,
    List.getElem?_append_left (by omega)] at placed
  unfold headerByte Block.read
  rw [pointer, show (0 : UInt8).toNat + i = i from Nat.zero_add i, placed,
    List.getD_eq_getElem?_getD, List.getElem?_eq_getElem (by omega)]
  rfl

theorem first_head (offset : first.payloadOffset = 4) (started : first.payloadStart = true)
    (carried : first.payload ++ tail = 0 :: (sect.bytes ++ stuffing)) (pmt : PmtData)
    (behind : Nat → UInt8) :
    pmt.head programNo first behind =
      some ⟨sect.sectionLength, versionField (first.cell 10)⟩ := by
  have header := fun {i : Nat} => first_header (i := i) offset carried behind
  have version : first.cell 10 = sect.bytes.getD 5 0 := by
    have long := sect.long
    have sized := sect.sized
    have found : first.cells[10]? = some (first.cell 10) := first.read_cell 10
    rw [first_cell offset carried (by omega : 6 < 184), List.getElem?_cons_succ,
      List.getElem?_append_left (by omega)] at found
    rw [List.getD_eq_getElem?_getD, found]
    rfl
  unfold PmtData.head checkHeader
  rw [if_pos started, header (i := 6) (by omega) (by omega), header (i := 10) (by omega) (by omega),
    header (i := 8) (by omega) (by omega), header (i := 9) (by omega) (by omega),
    header (i := 11) (by omega) (by omega), header (i := 12) (by omega) (by omega),
    header (i := 7) (by omega) (by omega), version]
  rw [if_neg (not_or.mpr ⟨sect.syntaxIndicator, sect.currentNext⟩),
    if_neg (not_not.mpr sect.program),
    if_neg (not_or.mpr ⟨not_not.mpr sect.sectionNumber, not_not.mpr sect.lastSectionNumber⟩)]
  exact congrArg (fun length => some (SectionHead.mk length (versionField (sect.bytes.getD 5 0))))
    sect.lengthField

end First

/-! ## The whole carrying -/

section Plain

variable {sect : PmtSection programNo} {carrying : Carrying sect}

/-- A plainly started carrying, divided behind its first packet. -/
structure StartsWith (carrying : Carrying sect) (first : TsPacket) (rest : List TsPacket) :
    Prop where
  packets : carrying.packets = first :: rest
  started : first.payloadStart = true
  offset : first.payloadOffset = 4
  continued : ∀ pkt ∈ rest, Continues pkt
  carried : first.payload ++ rest.flatMap TsPacket.payload =
    0 :: (sect.bytes ++ carrying.stuffing)

theorem plain_starts (plain : carrying.PlainStart) :
    ∃ first rest, StartsWith carrying first rest := by
  obtain ⟨first, rest, packets, started, continued, -⟩ := carrying.started
  have member : ∀ pkt ∈ rest, pkt ∈ carrying.before ++ carrying.completing :: carrying.after := by
    intro pkt inside
    rw [packets]
    exact List.mem_cons_of_mem _ inside
  refine ⟨first, rest, packets, started, ?_, ?_, ?_⟩
  · have direct := plain.noAdaptation first
      (by rw [Carrying.packets, packets]; exact List.mem_cons_self) started
    rw [TsPacket.payloadOffset, if_neg (by rw [direct]; exact Bool.false_ne_true)]
  · intro pkt inside
    have headers := (carrying.intact pkt (member pkt inside)).2.2
    refine ⟨continued pkt inside, ?_⟩
    rw [pointerSize, if_neg (by rw [continued pkt inside]; exact Bool.false_ne_true)]
    omega
  · have carried := carrying.carried
    have pointer : carrying.pointer = 0 := by
      apply UInt8.toNat_inj.mp
      rw [carrying.pointed, plain.noSkipped]
      rfl
    rw [packets, List.flatMap_cons, plain.noSkipped, pointer] at carried
    exact carried

variable {first : TsPacket} {rest : List TsPacket}

theorem chunk_first (starts : StartsWith carrying first rest) :
    chunk first = first.payload.drop 1 := by
  rw [chunk, pointerSize, if_pos starts.started]

theorem chunk_continued {pkt : TsPacket} (continued : Continues pkt) : chunk pkt = pkt.payload := by
  rw [chunk, pointerSize, if_neg (by rw [continued.1]; exact Bool.false_ne_true), List.drop_zero]

theorem chunks_continued {packets : List TsPacket} (continued : ∀ pkt ∈ packets, Continues pkt) :
    packets.flatMap chunk = packets.flatMap TsPacket.payload := by
  induction packets with
  | nil => rfl
  | cons pkt packets ih =>
      have member := List.forall_mem_cons.mp continued
      rw [List.flatMap_cons, List.flatMap_cons, ih member.2, chunk_continued member.1]

theorem first_payload_length (starts : StartsWith carrying first rest) :
    first.payload.length = 184 := by
  rw [first.payload_length, starts.offset, tsSize]

theorem first_chunk_length (starts : StartsWith carrying first rest) :
    (chunk first).length = 183 := by
  rw [chunk_first starts, List.length_drop, first_payload_length starts]

theorem chunks_carried (starts : StartsWith carrying first rest) :
    chunk first ++ rest.flatMap chunk = sect.bytes ++ carrying.stuffing := by
  have length := first_payload_length starts
  rw [chunk_first starts, chunks_continued starts.continued,
    ← List.drop_append_of_le_length (by omega), starts.carried]
  rfl

theorem first_overlaid (starts : StartsWith carrying first rest) (pmt : PmtData) :
    Overlaid pmt.rawPmt.cells (sect.bytes ++ carrying.stuffing) 0 (pmt.restart first) ∧
      (pmt.restart first).pmt = true := by
  unfold PmtData.restart
  rw [if_pos starts.started]
  exact ⟨⟨rfl, Nat.zero_le _, rfl⟩, rfl⟩

theorem first_heard (starts : StartsWith carrying first rest) (pmt : PmtData)
    (behind : TsPacket → Nat → UInt8) :
    ∃ after, perform programNo behind pmt first = some (after, (sect.hear pmt.known
        (report sect pmt.rawPmt.cells (chunk first).length first)).2) ∧
      after.known = (sect.hear pmt.known
        (report sect pmt.rawPmt.cells (chunk first).length first)).1 ∧
      after.pmt = true ∧
      Overlaid pmt.rawPmt.cells (sect.bytes ++ carrying.stuffing) (chunk first).length after := by
  obtain ⟨overlaid, collecting⟩ := first_overlaid starts pmt
  have length := first_chunk_length starts
  have headers : first.payloadOffset + pointerSize first ≤ tsSize := by
    rw [starts.offset, pointerSize, if_pos starts.started]
    decide
  have heard := packet_heard
    (first_head starts.offset starts.started starts.carried pmt (behind first)) overlaid headers
    (by rw [List.drop_zero, chunks_carried starts]) (by rw [length]; decide)
  rw [Nat.zero_add, collecting] at heard
  exact heard

theorem all_heard (starts : StartsWith carrying first rest) (pmt : PmtData)
    (behind : TsPacket → Nat → UInt8) (fits : received carrying.packets ≤ rawPmtSize) :
    ∃ final labels,
      Machine.drive (perform programNo behind) pmt carrying.packets = some (final, labels) ∧
      final.known = (sect.hearAll pmt.known
        (reports sect pmt.rawPmt.cells 0 carrying.packets)).1 ∧
      labels.map Prod.snd = (sect.hearAll pmt.known
        (reports sect pmt.rawPmt.cells 0 carrying.packets)).2 := by
  obtain ⟨after, called, known, collecting, overlaid⟩ := first_heard starts pmt behind
  have length := first_chunk_length starts
  rw [starts.packets, received_cons] at fits
  obtain ⟨final, labels, driven, finalKnown, answers⟩ := rest_heard behind rest
    starts.continued overlaid collecting (by omega)
    (by rw [← chunks_carried starts, List.drop_left]) fits
  refine ⟨final, (first, (sect.hear pmt.known
    (report sect pmt.rawPmt.cells (chunk first).length first)).2) :: labels, ?_, ?_, ?_⟩
  · rw [starts.packets, Machine.drive, called]
    simp only [driven, Option.map_some]
  · rw [starts.packets, reports, Nat.zero_add, PmtSection.hearAll, ← known]
    exact finalKnown
  · rw [starts.packets, List.map_cons, reports, Nat.zero_add, PmtSection.hearAll, ← known, answers]

theorem all_fit (starts : StartsWith carrying first rest) (pmt : PmtData)
    (behind : TsPacket → Nat → UInt8)
    (driven : (Machine.drive (perform programNo behind) pmt carrying.packets).isSome = true) :
    received carrying.packets ≤ rawPmtSize := by
  obtain ⟨after, called, known, collecting, overlaid⟩ := first_heard starts pmt behind
  have length := first_chunk_length starts
  rw [starts.packets, Machine.drive, called] at driven
  simp only [Option.isSome_map] at driven
  rw [starts.packets, received_cons]
  exact rest_fits rest starts.continued overlaid collecting (by omega)
    (by rw [length]; decide) (by rw [← chunks_carried starts, List.drop_left]) driven

theorem front_received (starts : StartsWith carrying first rest) {front back : List TsPacket}
    (split : first :: rest = front ++ back) (nonempty : front ≠ []) :
    (front.flatMap TsPacket.payload).length = received front + 1 := by
  cases front with
  | nil => exact absurd rfl nonempty
  | cons pkt front =>
      rw [List.cons_append, List.cons.injEq] at split
      obtain ⟨rfl, rfl⟩ := split
      have continued : ∀ pkt ∈ front, Continues pkt :=
        fun pkt member => starts.continued pkt (List.mem_append_left _ member)
      rw [received_cons, List.flatMap_cons, List.length_append, first_payload_length starts,
        first_chunk_length starts, received, chunks_continued continued]
      omega

theorem completed_received (starts : StartsWith carrying first rest) (plain : carrying.PlainStart) :
    sect.sectionLength + 3 ≤ received (carrying.before ++ [carrying.completing]) := by
  have split : first :: rest =
      (carrying.before ++ [carrying.completing]) ++ carrying.after := by
    rw [← starts.packets, Carrying.packets, List.append_assoc]
    rfl
  have length := front_received starts split (by simp)
  have completes := carrying.completes
  have sized := sect.sized
  rw [plain.noSkipped, List.length_nil] at completes
  omega

/-- The reports of a carrying: those before the completing packet, its own, and
those after it, which all find the section in the buffer. -/
theorem carrying_reports (stale : List UInt8) :
    reports sect stale 0 carrying.packets =
      reports sect stale 0 carrying.before ++
        report sect stale (received (carrying.before ++ [carrying.completing]))
          carrying.completing ::
        reports sect stale (received (carrying.before ++ [carrying.completing]))
          carrying.after := by
  have grown : received carrying.before + (chunk carrying.completing).length =
      received (carrying.before ++ [carrying.completing]) := by
    rw [received_append, received_cons]
    rfl
  rw [Carrying.packets, reports_append, reports, Nat.zero_add, grown]

theorem same_iff_undisturbed (plain : carrying.PlainStart) (pmt : PmtData)
    (behind : TsPacket → Nat → UInt8) :
    carrying.SameAsOneBlock pmt behind ↔ carrying.Undisturbed pmt := by
  obtain ⟨first, rest, starts⟩ := plain_starts plain
  have completed := completed_received starts plain
  have arrived : (report sect pmt.rawPmt.cells
      (received (carrying.before ++ [carrying.completing])) carrying.completing).arrived = true :=
    decide_eq_true (sect.arrived_whole pmt.rawPmt.cells completed)
  have still : ∀ heard ∈ reports sect pmt.rawPmt.cells
      (received (carrying.before ++ [carrying.completing])) carrying.after,
      heard.arrived = true := by
    intro heard member
    obtain ⟨earlier, pkt, later, -, rfl⟩ := mem_reports.mp member
    exact decide_eq_true (sect.arrived_whole pmt.rawPmt.cells (by omega))
  have once := sect.hear_all_once_iff pmt.known (reports sect pmt.rawPmt.cells 0 carrying.before)
    (reports sect pmt.rawPmt.cells (received (carrying.before ++ [carrying.completing]))
      carrying.after) arrived still
  have tables := fun answers => sect.hear_all_once_tables pmt.known
    (reports sect pmt.rawPmt.cells 0 carrying.before) arrived still answers
  rw [← carrying_reports, reports_length, reports_length] at once
  rw [← carrying_reports, reports_length, reports_length] at tables
  constructor
  · rintro ⟨final, labels, driven, answers, -⟩
    have fits := all_fit starts pmt behind (by rw [driven]; rfl)
    obtain ⟨final', labels', driven', known, heard⟩ := all_heard starts pmt behind fits
    rw [driven] at driven'
    cases driven'
    rw [answers] at heard
    obtain ⟨early, fresh, same⟩ := once.mp heard.symm
    refine ⟨fits, ?_, fresh, ?_⟩
    · intro earlier pkt later split present
      exact early _ (mem_reports.mpr ⟨earlier, pkt, later, split, rfl⟩)
        (decide_eq_true (by rwa [Nat.zero_add]))
    · intro pkt member
      obtain ⟨earlier, later, split⟩ := List.append_of_mem member
      exact same _ (mem_reports.mpr ⟨earlier, pkt, later, split, rfl⟩)
  · intro undisturbed
    obtain ⟨final, labels, driven, known, heard⟩ :=
      all_heard starts pmt behind undisturbed.fits
    have answers := once.mpr ⟨by
      intro heard member present
      obtain ⟨earlier, pkt, later, split, rfl⟩ := mem_reports.mp member
      rw [Nat.zero_add] at present
      exact undisturbed.notEarly earlier pkt later split (of_decide_eq_true present),
      undisturbed.notKnown, by
      intro heard member
      obtain ⟨earlier, pkt, later, split, rfl⟩ := mem_reports.mp member
      exact undisturbed.notAgain pkt (by rw [split]; simp)⟩
    refine ⟨final, labels, driven, heard.trans answers, ?_⟩
    have finalTables := congrArg Known.tables known
    rw [tables answers] at finalTables
    exact finalTables

end Plain

/-- For every carrying of a section with a plain start the result is that of the
section as one block exactly if nothing disturbs it. -/
theorem packets_do_not_show (sect : PmtSection programNo) (carrying : Carrying sect)
    (pmt : PmtData) (behind : TsPacket → Nat → UInt8) :
    (carrying.PlainStart ∧ carrying.Undisturbed pmt → carrying.SameAsOneBlock pmt behind) ∧
      (carrying.PlainStart → carrying.SameAsOneBlock pmt behind → carrying.Undisturbed pmt) :=
  ⟨fun condition => (same_iff_undisturbed condition.1 pmt behind).mpr condition.2,
    fun plain => (same_iff_undisturbed plain pmt behind).mp⟩

/-! ## A small section -/

def videoBytes : List UInt8 := [0x02, 0xb0, 0x12, 0x00, 0x01, 0xc1, 0x00, 0x00, 0xe1, 0x00, 0xf0,
  0x00, 0x02, 0xe1, 0x00, 0xf0, 0x00, 0x9e, 0x8b, 0x23, 0xd1]

def videoSection : PmtSection 1 where
  bytes := videoBytes
  sectionLength := 18
  programInfoLength := 0
  sized := by decide
  short := by decide
  lengthField := by decide
  syntaxIndicator := by decide
  program := by decide
  currentNext := by decide
  sectionNumber := by decide
  lastSectionNumber := by decide
  infoField := by decide
  programInfo := .done
  streams := by
    have sized : (fetchWord (12 + 0 + 3)).run (Memory.ofList videoBytes) = some 0xf000 := by decide
    exact .next sized (by decide) .done .done
  checksum := by decide +kernel

def videoPacket (skipped : List UInt8) : TsPacket :=
  .startingWith ([0x47, 0x40, 0x64, 0x10, UInt8.ofNat skipped.length] ++ skipped ++
    videoSection.bytes) 0xff

def plainCarrying : Carrying videoSection where
  before := []
  completing := videoPacket []
  after := []
  pid := 0x64
  pointer := 0
  skipped := []
  stuffing := List.replicate 162 0xff
  onePid := by decide +kernel
  intact := by decide +kernel
  started := ⟨videoPacket [], [], rfl, by decide +kernel, by decide +kernel, by decide +kernel⟩
  pointed := rfl
  stuffed := by decide +kernel
  carried := by decide +kernel
  incomplete := by decide +kernel
  completes := by decide +kernel

theorem packets_do_not_show_one_packet :
    plainCarrying.SameAsOneBlock zeroedPmtData fun _ _ => 0 := by
  apply (packets_do_not_show videoSection plainCarrying zeroedPmtData fun _ _ => 0).1
  refine ⟨⟨rfl, by decide +kernel⟩, by decide +kernel, ?_, by decide +kernel, by decide +kernel⟩
  intro earlier pkt later split
  simp [plainCarrying] at split

def pointedCarrying : Carrying videoSection where
  before := []
  completing := videoPacket [0xff]
  after := []
  pid := 0x64
  pointer := 1
  skipped := [0xff]
  stuffing := List.replicate 161 0xff
  onePid := by decide +kernel
  intact := by decide +kernel
  started := ⟨videoPacket [0xff], [], rfl, by decide +kernel, by decide +kernel, by decide +kernel⟩
  pointed := rfl
  stuffed := by decide +kernel
  carried := by decide +kernel
  incomplete := by decide +kernel
  completes := by decide +kernel

theorem skipped_byte_loses_section :
    ¬pointedCarrying.SameAsOneBlock zeroedPmtData fun _ _ => 0 := by
  rintro ⟨final, labels, driven, answers, -⟩
  have refused : (Machine.drive (perform 1 fun _ _ => 0) zeroedPmtData pointedCarrying.packets).map
      (fun result => result.2.map Prod.snd) = some [false] := by decide +kernel
  rw [driven, Option.map_some, answers] at refused
  cases refused

end Xineliboutput.Ts
