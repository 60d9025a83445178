import Xineliboutput.Ts.PatSection

/-!
# The program association table

The table of MPEG-2 systems in a single section, and what `ts_parse_pat` makes of the packets
that carry one.
-/

namespace Xineliboutput.Ts

open Xineliboutput.Foundation

set_option autoImplicit false

/-! ## MPEG-2 systems -/

/-- A complete program association section, applicable now and the only one of its table. -/
structure ValidPat (bytes : List UInt8) : Prop where
  long : 12 ≤ bytes.length
  tableId : bytes.getD 0 0 = 0
  syntaxIndicator : bytes.getD 1 0 &&& 0x80 ≠ 0
  sectionLength : bytes.length = 3 + word (bytes.getD 1 0 &&& 0x0f) (bytes.getD 2 0)
  bounded : bytes.length ≤ 1024
  whole : 4 ∣ bytes.length
  current : bytes.getD 5 0 &&& 0x01 ≠ 0
  sectionNumber : bytes.getD 6 0 = 0
  lastSectionNumber : bytes.getD 7 0 = 0
  crc : (sectionCrc bytes).toBitVec =
    Foundation.crc32 0x04c11db7 0xffffffff (bytes.take (bytes.length - 4))

/-- A table of one program. -/
example : ValidPat [0x00, 0xb0, 0x0d, 0x00, 0x01, 0xc1, 0x00, 0x00, 0x00, 0x01, 0xe1, 0x00,
    0xe8, 0xf9, 0x5e, 0x7d] := by
  constructor <;> decide +kernel

/-- The programs of a table; program number zero is the network PID. -/
def patTable (bytes : List UInt8) : List (Nat × Nat) :=
  PatLoop.listed (programEntries ((bytes.drop 8).take (bytes.length - 12)))

/-- The payload of the packet has the section behind its pointer field. -/
structure TsPacket.Carries (pkt : TsPacket) (bytes : List UInt8) : Prop where
  valid : ValidPat bytes
  hasPayload : pkt.hasPayload = true
  payloadStart : pkt.payloadStart = true
  pointed : ∃ pointer : UInt8, ∃ before after : List UInt8,
    pkt.payload = pointer :: (before ++ (bytes ++ after)) ∧ before.length = pointer.toNat

def PatData.Differs (pat : PatData) (bytes : List UInt8) : Prop :=
  pat.crc32 ≠ sectionCrc bytes ∨ pat.version ≠ sectionVersion bytes ∨
    pat.programs ≠ patTable bytes

/-- The call has taken over the table. -/
structure PatFollows (pat next : PatData) (count : Nat) (bytes : List UInt8) : Prop where
  returned : count = (patTable bytes).length
  programs : next.programs = patTable bytes
  ended : next.programNumber.read count = some 0
  changed : next.patChangedFlag = true ↔ pat.Differs bytes

/-- The call stays inside, and follows the table that the packet carries. -/
structure PatExact (pat : PatData) (pkt : TsPacket) : Prop where
  inside : (tsParsePat pat pkt).isSome = true
  follows : ∀ bytes, pkt.Carries bytes → ∀ next count, tsParsePat pat pkt = some (next, count) →
    PatFollows pat next count bytes

/-! ## Conditions -/

/-- The table is the beginning of the longer list that is held, with its version and CRC. -/
def PatData.Truncates (pat : PatData) (bytes : List UInt8) : Prop :=
  pat.crc32 = sectionCrc bytes ∧ pat.version = sectionVersion bytes ∧
    patTable bytes <+: pat.programs ∧ patTable bytes ≠ pat.programs

/-- What stands where the section would be without an adaptation field gives the same list
and the same verdict. -/
def TsPacket.SeenAlike (pkt : TsPacket) (pat : PatData) (bytes : List UInt8) : Prop :=
  if pkt.PatAccepted then
    foundPrograms pkt.patSection = patTable bytes ∧
      ((pat.crc32 ≠ sectionCrc pkt.patSection ∨ pat.version ≠ pkt.patVersion ∨
        ¬foundPrograms pkt.patSection <+: pat.programs) ↔ pat.Differs bytes)
  else
    patTable bytes = [] ∧ pat.programs = [] ∧ (pat.patChangedFlag = true ↔ pat.Differs bytes)

/-! ## Packets without an adaptation field -/

theorem program_entries_length (bytes : List UInt8) :
    (programEntries bytes).length = bytes.length / 4 := by
  fun_induction programEntries bytes with
  | case1 first second third fourth rest ih =>
      simp only [List.length_cons, ih]
      omega
  | case2 bytes short =>
      match bytes with
      | [] | [_] | [_, _] | [_, _, _] => simp
      | first :: second :: third :: fourth :: rest => exact absurd rfl (short _ _ _ _ rest)

theorem ValidPat.found {bytes : List UInt8} (valid : ValidPat bytes) :
    foundPrograms bytes = patTable bytes := by
  have long := valid.long
  have whole := valid.whole
  have rounds : (bytes.length - 12 + 3) / 4 = (bytes.length - 12) / 4 := by omega
  have four : 4 * ((bytes.length - 12) / 4) = bytes.length - 12 := by omega
  have all : (programEntries ((bytes.drop 8).take (bytes.length - 12))).length ≤
      (bytes.length - 12) / 4 := by
    rw [program_entries_length, List.length_take]
    exact Nat.div_le_div_right (Nat.min_le_left _ _)
  rw [foundPrograms, patTable, rounds, ← take_program_entries (bytes.drop 8) (Nat.le_of_eq four),
    List.take_of_length_le all]

namespace TsPacket

variable {pkt : TsPacket} {pat : PatData} {bytes : List UInt8}

theorem Carries.section (carries : pkt.Carries bytes) (plain : pkt.adaptFieldExists = false) :
    ∃ after, pkt.cells.drop (pkt.patStart + 5) = bytes ++ after := by
  obtain ⟨pointer, before, after, payload, length⟩ := carries.pointed
  have offset : pkt.payloadOffset = 4 := by
    rw [payloadOffset, if_neg (by rw [plain]; decide)]
  rw [TsPacket.payload, offset] at payload
  have start : pkt.patStart = pointer.toNat := by
    have first : pkt.cells[4]? = some pointer := by
      rw [← List.head?_drop, payload]
      rfl
    have cell := Block.read_cell pkt 4
    unfold Block.read at cell
    rw [show ((4 : Fin tsSize) : Nat) = 4 from rfl, first] at cell
    rw [patStart, ← Option.some.inj cell]
  refine ⟨after, ?_⟩
  calc pkt.cells.drop (pkt.patStart + 5)
      = (pkt.cells.drop 4).drop (before.length + 1) := by
        rw [List.drop_drop, start, length]
        congr 1
        omega
    _ = bytes ++ after := by
        rw [payload, List.drop_succ_cons, List.drop_left]

theorem Carries.byte (carries : pkt.Carries bytes) (plain : pkt.adaptFieldExists = false) {i : Nat}
    (within : i < bytes.length) : pkt.patByte (i + 5) = bytes.getD i 0 := by
  obtain ⟨after, behind⟩ := carries.section plain
  have same : pkt.cells[pkt.patStart + (i + 5)]? = bytes[i]? := by
    rw [Nat.add_comm i 5, ← Nat.add_assoc, ← List.getElem?_drop, behind,
      List.getElem?_append_left within]
  unfold patByte Block.read
  rw [same, List.getD_eq_getElem?_getD]

theorem Carries.room (carries : pkt.Carries bytes) (plain : pkt.adaptFieldExists = false) :
    pkt.patStart + 5 + bytes.length ≤ tsSize := by
  obtain ⟨after, behind⟩ := carries.section plain
  have total := congrArg List.length behind
  have long := carries.valid.long
  rw [List.length_drop, pkt.sized, List.length_append] at total
  omega

theorem Carries.length (carries : pkt.Carries bytes) (plain : pkt.adaptFieldExists = false) :
    bytes.length = pkt.patLength + 3 := by
  have size : tsSize = 188 := rfl
  have long := carries.valid.long
  have room := carries.room plain
  have declared := carries.valid.sectionLength
  rw [← carries.byte plain (by omega : 1 < bytes.length),
    ← carries.byte plain (by omega : 2 < bytes.length)] at declared
  unfold word at declared
  have zero : pkt.patByte (1 + 5) &&& 0x0f = 0 := by
    apply UInt8.toNat_inj.mp
    change _ = 0
    omega
  have low : pkt.patByte 6 &&& 0x03 = 0 := by
    have masked : pkt.patByte 6 &&& 0x03 = (pkt.patByte 6 &&& 0x0f) &&& 0x03 := by
      rw [UInt8.and_assoc]
      rfl
    rw [masked, zero]
    rfl
  rw [zero] at declared
  rw [patLength, word, low]
  exact declared.trans (Nat.add_comm _ _)

theorem Carries.same_section (carries : pkt.Carries bytes)
    (plain : pkt.adaptFieldExists = false) : pkt.patSection = bytes := by
  obtain ⟨after, behind⟩ := carries.section plain
  rw [patSection, behind, ← carries.length plain, List.take_left]

theorem Carries.same_version (carries : pkt.Carries bytes)
    (plain : pkt.adaptFieldExists = false) : pkt.patVersion = sectionVersion bytes := by
  have long := carries.valid.long
  rw [patVersion, sectionVersion, ← carries.byte plain (by omega : 5 < bytes.length)]

theorem Carries.good (carries : pkt.Carries bytes) (plain : pkt.adaptFieldExists = false) :
    pkt.PatHeaderGood := by
  have long := carries.valid.long
  refine ⟨?_, ?_, ?_, ?_⟩
  · rw [carries.byte plain (by omega : 1 < bytes.length)]
    exact carries.valid.syntaxIndicator
  · rw [carries.byte plain (by omega : 5 < bytes.length)]
    exact carries.valid.current
  · rw [carries.byte plain (by omega : 6 < bytes.length)]
    exact carries.valid.sectionNumber
  · rw [carries.byte plain (by omega : 7 < bytes.length)]
    exact carries.valid.lastSectionNumber

theorem Carries.accepted (carries : pkt.Carries bytes) (plain : pkt.adaptFieldExists = false) :
    pkt.PatAccepted := by
  have room := carries.room plain
  refine ⟨carries.payloadStart, by omega, carries.good plain, ?_⟩
  rw [carries.same_section plain]
  apply UInt32.toBitVec_inj.mp
  rw [compute_crc_eq]
  exact carries.valid.crc

theorem Carries.seen_alike_iff (carries : pkt.Carries bytes)
    (plain : pkt.adaptFieldExists = false) :
    pkt.SeenAlike pat bytes ↔ ¬pat.Truncates bytes := by
  rw [SeenAlike, if_pos (carries.accepted plain), carries.same_section plain,
    carries.same_version plain, carries.valid.found, PatData.Differs, PatData.Truncates]
  constructor
  · intro verdict truncates
    obtain ⟨crc, version, first, other⟩ := truncates
    rcases verdict.2.mpr (.inr (.inr other.symm)) with differs | differs | differs
    · exact differs crc
    · exact differs version
    · exact differs first
  · intro whole
    refine ⟨rfl, ?_⟩
    constructor
    · intro touched
      rcases touched with crc | version | longer
      · exact .inl crc
      · exact .inr (.inl version)
      · exact .inr (.inr fun same => longer (same ▸ List.prefix_refl _))
    · intro differs
      by_contra untouched
      simp only [not_or, not_not, ne_eq] at untouched
      obtain ⟨crc, version, first⟩ := untouched
      rcases differs with other | other | other
      · exact other crc
      · exact other version
      · exact whole ⟨crc, version, first, other.symm⟩

/-- The table is followed exactly if the section that is looked at gives the same. -/
theorem follows_iff (readable : pkt.PatReadable) :
    (∀ next count, tsParsePat pat pkt = some (next, count) → PatFollows pat next count bytes) ↔
      pkt.SeenAlike pat bytes := by
  unfold SeenAlike
  split
  · next accepted =>
      obtain ⟨next, ran, stored⟩ := parse_pat_accepted pat readable accepted
      constructor
      · intro follows
        have followed := follows next _ ran
        exact ⟨stored.programs.symm.trans followed.programs,
          stored.changed.symm.trans followed.changed⟩
      · intro alike other count same
        rw [ran] at same
        cases same
        exact {
          returned := congrArg List.length alike.1
          programs := stored.programs.trans alike.1
          ended := stored.ended
          changed := stored.changed.trans alike.2 }
  · next rejected =>
      have ran := parse_pat_rejected pat readable rejected
      constructor
      · intro follows
        have followed := follows pat 0 ran
        have empty := List.length_eq_zero_iff.mp followed.returned.symm
        exact ⟨empty, followed.programs.trans empty, followed.changed⟩
      · intro alike other count same
        rw [ran] at same
        cases same
        obtain ⟨empty, none, changed⟩ := alike
        refine ⟨by rw [empty]; rfl, none.trans empty.symm, ?_, changed⟩
        obtain ⟨number, pid, read, _, slot⟩ := pat.slots_get (show 0 < tsMaxPrograms by decide)
        rw [read]
        obtain ⟨inside, first⟩ := List.getElem?_eq_some_iff.mp slot
        rw [PatData.programs, List.takeWhile_eq_nil_iff] at none
        have zero : ¬(pat.slots[0].1 != 0) = true := none inside
        rw [first] at zero
        simpa using zero

end TsPacket

/-! ## The table and the code -/

/-- The call reads the header and the CRC before it looks where they are. -/
theorem pat_exact_iff (pat : PatData) (pkt : TsPacket) :
    PatExact pat pkt ↔
      pkt.PatReadable ∧ ∀ bytes, pkt.Carries bytes →
        (pkt.adaptFieldExists = false → ¬pat.Truncates bytes) ∧
          (pkt.adaptFieldExists = true → pkt.SeenAlike pat bytes) := by
  constructor
  · intro exactly
    have readable := TsPacket.parse_pat_inside_iff.mp exactly.inside
    refine ⟨readable, ?_⟩
    intro bytes carries
    have alike := (TsPacket.follows_iff readable).mp (exactly.follows bytes carries)
    exact ⟨fun plain => (carries.seen_alike_iff plain).mp alike, fun _ => alike⟩
  · intro condition
    obtain ⟨readable, alike⟩ := condition
    refine ⟨TsPacket.parse_pat_inside_iff.mpr readable, ?_⟩
    intro bytes carries
    apply (TsPacket.follows_iff readable).mpr
    cases adapted : pkt.adaptFieldExists with
    | false => exact (carries.seen_alike_iff adapted).mpr ((alike bytes carries).1 adapted)
    | true => exact (alike bytes carries).2 adapted

def pointingBehind : TsPacket := .startingWith [0x47, 0x40, 0x00, 0x10, 0xb7] 0xff

/-- A `pat_data_t` filled with zeros. -/
def zeroedPatData : PatData where
  programNumber := .filled 0
  pmtPid := .filled 0
  version := 0
  crc32 := 0
  patChangedFlag := false

theorem pat_header_read_behind :
    tsParsePat zeroedPatData pointingBehind = none ∧ ¬PatExact zeroedPatData pointingBehind := by
  have outside : tsParsePat zeroedPatData pointingBehind = none := by decide
  refine ⟨outside, ?_⟩
  intro exactly
  have inside := exactly.inside
  rw [outside] at inside
  cases inside

end Xineliboutput.Ts
