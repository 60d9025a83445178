import Xineliboutput.Foundation.Crc32
import Xineliboutput.Ts.ParsePat

/-!
# The program association section

What `ts_parse_pat` makes of the section that it finds, for any bytes that stand there, and the
program association table of MPEG-2 systems for comparison.
-/

namespace Xineliboutput.Ts

open Xineliboutput.Foundation

set_option autoImplicit false

/-! ## The checksum -/

theorem crc_table_eq (i : Fin 256) :
    (crc32Table (UInt32.ofNat i)).toBitVec =
      crcShifts 0x04c11db7 8 ((UInt32.ofNat i).toBitVec <<< 24) := by
  revert i
  decide +kernel

theorem crc_index_small (crc32 : UInt32) (byte : UInt8) :
    ((crc32 >>> 24) ^^^ byte.toUInt32).toNat < 256 := by
  have high : (crc32 >>> 24).toNat < 2 ^ 8 := by
    have bounded := crc32.toNat_lt
    rw [UInt32.toNat_shiftRight]
    change crc32.toNat >>> 24 < _
    rw [Nat.shiftRight_eq_div_pow]
    omega
  have low : byte.toUInt32.toNat < 2 ^ 8 := by
    rw [UInt8.toNat_toUInt32]
    exact byte.toNat_lt
  rw [UInt32.toNat_xor]
  exact Nat.xor_lt_two_pow high low

theorem compute_crc_eq (data : List UInt8) (crc32 : UInt32) :
    (tsComputeCrc32 data crc32).toBitVec = Foundation.crc32 0x04c11db7 crc32.toBitVec data := by
  induction data generalizing crc32 with
  | nil => rfl
  | cons byte data ih =>
      have index : UInt32.ofNat ((crc32 >>> 24) ^^^ byte.toUInt32).toNat =
          (crc32 >>> 24) ^^^ byte.toUInt32 := UInt32.ofNat_toNat
      have entry := crc_table_eq ⟨_, crc_index_small crc32 byte⟩
      rw [index] at entry
      have onward := ih ((crc32 <<< 8) ^^^ crc32Table ((crc32 >>> 24) ^^^ byte.toUInt32))
      rw [tsComputeCrc32, List.foldl_cons, ← tsComputeCrc32, onward, Foundation.crc32,
        Foundation.crc32, List.foldl_cons, crc_octet_eq, UInt32.toBitVec_xor, entry]
      rfl

/-! ## Sections -/

def sectionVersion (bytes : List UInt8) : Nat := (bytes.getD 5 0).toNat / 2 % 32

def sectionCrc (bytes : List UInt8) : UInt32 :=
  UInt32.ofNat (bigEndianValue (bytes.drop (bytes.length - 4)))

/-- The programs that the loop finds in a section of any length. -/
def foundPrograms (bytes : List UInt8) : List (Nat × Nat) :=
  PatLoop.listed ((programEntries (bytes.drop 8)).take ((bytes.length - 12 + 3) / 4))

namespace TsPacket

variable (pkt : TsPacket)

/-- Where `pkt` points after `pkt += pkt[4]`. -/
def patStart : Nat := (pkt.cell 4).toNat

def patByte (i : Nat) : UInt8 := (pkt.read (pkt.patStart + i)).getD 0

/-- `section_length` -/
def patLength : Nat := word (pkt.patByte 6 &&& 0x03) (pkt.patByte 7)

/-- `version_number` -/
def patVersion : Nat := (pkt.patByte 10).toNat / 2 % 32

/-- The section that `ts_parse_pat` looks at. -/
def patSection : List UInt8 := (pkt.cells.drop (pkt.patStart + 5)).take (pkt.patLength + 3)

def PatHeaderGood : Prop :=
  pkt.patByte 6 &&& 0x80 ≠ 0 ∧ pkt.patByte 10 &&& 0x01 ≠ 0 ∧ pkt.patByte 11 = 0 ∧
    pkt.patByte 12 = 0

instance : Decidable pkt.PatHeaderGood := inferInstanceAs (Decidable (_ ∧ _ ∧ _ ∧ _))

def PatAccepted : Prop :=
  pkt.payloadStart = true ∧ pkt.patStart ≤ tsSize ∧ pkt.PatHeaderGood ∧
    sectionCrc pkt.patSection =
      tsComputeCrc32 (pkt.patSection.take (pkt.patSection.length - 4)) 0xffffffff

instance : Decidable pkt.PatAccepted := inferInstanceAs (Decidable (_ ∧ _ ∧ _ ∧ _))

/-- If a section is looked at, its header and its last byte are in the packet, and its length
is not zero when the checksum is computed. -/
def PatReadable : Prop :=
  pkt.payloadStart = true → pkt.patStart ≤ tsSize →
    pkt.patStart + 12 < tsSize ∧ pkt.patStart + pkt.patLength + 8 ≤ tsSize ∧
      (pkt.PatHeaderGood → 0 < pkt.patLength)

variable {pkt}

theorem pat_byte_read {i : Nat} (inside : pkt.patStart + i < tsSize) :
    pkt.read (pkt.patStart + i) = some (pkt.patByte i) := by
  obtain ⟨byte, found⟩ := Option.isSome_iff_exists.mp ((Block.read_is_some pkt _).mpr inside)
  rw [patByte, found]
  rfl

theorem pat_section_length (fits : pkt.patStart + pkt.patLength + 8 ≤ tsSize) :
    pkt.patSection.length = pkt.patLength + 3 := by
  rw [patSection, List.length_take, List.length_drop, pkt.sized]
  omega

end TsPacket

/-! ## The update -/

/-- What the call does with a section that it accepts. -/
structure PatStored (pat next : PatData) (count version : Nat) (bytes : List UInt8) : Prop where
  returned : count = (foundPrograms bytes).length
  programs : next.programs = foundPrograms bytes
  ended : next.programNumber.read count = some 0
  changed : next.patChangedFlag = true ↔
    pat.crc32 ≠ sectionCrc bytes ∨ pat.version ≠ version ∨
      ¬foundPrograms bytes <+: pat.programs
  version : next.version = version
  crc32 : next.crc32 = sectionCrc bytes

theorem take_program_entries (bytes : List UInt8) {count length : Nat}
    (enough : 4 * count ≤ length) :
    (programEntries (bytes.take length)).take count = (programEntries bytes).take count := by
  induction count generalizing bytes length with
  | zero => rfl
  | succ count ih =>
      have long : 4 ≤ length := by omega
      obtain ⟨length, rfl⟩ := Nat.exists_eq_add_of_le' long
      match bytes with
      | [] | [_] | [_, _] | [_, _, _] => simp
      | first :: second :: third :: fourth :: rest =>
          simp only [List.take_succ_cons, programEntries, List.cons.injEq, true_and]
          exact ih rest (by omega)

theorem listed_nonzero {entries : List (Nat × Nat)} {program : Nat × Nat}
    (member : program ∈ PatLoop.listed entries) : (program.1 != 0) = true :=
  (List.mem_filter.mp member).2

theorem take_while_prefix_iff {Item : Type} (test : Item → Bool) {front items : List Item}
    (passes : ∀ item ∈ front, test item = true) :
    front <+: items.takeWhile test ↔ front <+: items := by
  constructor
  · intro first
    exact first.trans (List.takeWhile_prefix test)
  · intro first
    obtain ⟨rest, rfl⟩ := first
    rw [List.takeWhile_append_of_pos passes]
    exact List.prefix_append _ _

theorem set_behind {Item : Type} (front rest : List Item) (item : Item) (more : rest ≠ []) :
    (front ++ rest).set front.length item = front ++ item :: rest.tail := by
  cases rest with
  | nil => exact absurd rfl more
  | cons head rest => exact set_front front rest head item

theorem programs_ended {pat : PatData} {programs rest : List (Nat × Nat)}
    (slots : pat.slots = programs ++ rest)
    (used : ∀ program ∈ programs, (program.1 != 0) = true)
    (room : programs.length < tsMaxPrograms) :
    ∃ programNumber, pat.programNumber.overwrite programs.length [0] = some programNumber ∧
      PatData.programs { pat with programNumber } = programs ∧
      programNumber.read programs.length = some 0 := by
  obtain ⟨programNumber, written, cells⟩ := overwrite_one pat.programNumber room 0
  refine ⟨programNumber, written, ?_, ?_⟩
  · have inside : programs.length < pat.pmtPid.cells.length := by
      rw [pat.pmtPid.sized]
      exact room
    have more : rest ≠ [] := by
      intro none
      have total := pat.slots_length
      rw [slots, none, List.append_nil] at total
      omega
    have ended : PatData.slots { pat with programNumber } =
        programs ++ (0, pat.pmtPid.cells[programs.length]) :: rest.tail := by
      rw [← set_behind programs rest _ more, ← slots, PatData.slots, PatData.slots, ← zip_set,
        List.set_getElem_self, cells]
    rw [PatData.programs, ended, List.takeWhile_append_of_pos used]
    simp
  · unfold Block.read
    rw [cells, List.getElem?_set_self (by rw [pat.programNumber.sized]; exact room)]

/-- Entries that are all used are where the list begins exactly if they are where the array
begins. -/
theorem take_slots_iff (pat : PatData) {programs : List (Nat × Nat)}
    (used : ∀ program ∈ programs, (program.1 != 0) = true) :
    pat.slots.take programs.length = programs ↔ programs <+: pat.programs := by
  rw [PatData.programs, take_while_prefix_iff _ used, List.prefix_iff_eq_take, eq_comm]

namespace TsPacket

variable {pkt : TsPacket} {pat : PatData}

theorem pat_rounds (fits : pkt.patStart + pkt.patLength + 8 ≤ tsSize) :
    PatLoop.listed ((programEntries (pkt.cells.drop (pkt.patStart + 13))).take
        (patRounds (pkt.patStart + 13 + pkt.patLength - 9) (pkt.patStart + 13))) =
      foundPrograms pkt.patSection := by
  have behind : pkt.patSection.drop 8 =
      (pkt.cells.drop (pkt.patStart + 13)).take (pkt.patLength + 3 - 8) := by
    rw [patSection, List.drop_take, List.drop_drop]
  have rounds : patRounds (pkt.patStart + 13 + pkt.patLength - 9) (pkt.patStart + 13) =
      (pkt.patSection.length - 12 + 3) / 4 := by
    rw [patRounds, pat_section_length fits]
    omega
  rw [foundPrograms, behind, rounds, pat_section_length fits, take_program_entries]
  omega

theorem found_programs_short (fits : pkt.patStart + pkt.patLength + 8 ≤ tsSize) :
    (foundPrograms pkt.patSection).length < tsMaxPrograms := by
  have total := pat_section_length fits
  have kept := List.length_filter_le (fun program : Nat × Nat => program.1 != 0)
    ((programEntries (pkt.patSection.drop 8)).take ((pkt.patSection.length - 12 + 3) / 4))
  have size : tsSize = 188 := rfl
  rw [List.length_take] at kept
  rw [foundPrograms, PatLoop.listed]
  change _ < 64
  omega

theorem pat_data_slice (fits : pkt.patStart + pkt.patLength + 8 ≤ tsSize)
    (filled : 0 < pkt.patLength) :
    pkt.slice (pkt.patStart + 5) ((pkt.patLength + 3 + (2 ^ 32 - 4)) % 2 ^ 32) =
      some (pkt.patSection.take (pkt.patSection.length - 4)) := by
  have size : tsSize = 188 := rfl
  have count : (pkt.patLength + 3 + (2 ^ 32 - 4)) % 2 ^ 32 = pkt.patLength - 1 := by omega
  have shorter : min (pkt.patLength + 3 - 4) (pkt.patLength + 3) = pkt.patLength - 1 := by omega
  rw [count, Block.slice_eq _ (by omega), pat_section_length fits, patSection, List.take_take,
    shorter]

theorem pat_crc_slice (fits : pkt.patStart + pkt.patLength + 8 ≤ tsSize) :
    ∃ crc32, pkt.slice (pkt.patStart + pkt.patLength + 4) 4 = some crc32 ∧
      (0 < pkt.patLength → UInt32.ofNat (bigEndianValue crc32) = sectionCrc pkt.patSection) := by
  refine ⟨_, Block.slice_eq _ (by omega), ?_⟩
  intro filled
  have start : pkt.patStart + 5 + (pkt.patLength + 3 - 4) = pkt.patStart + pkt.patLength + 4 := by
    omega
  have four : pkt.patLength + 3 - (pkt.patLength + 3 - 4) = 4 := by omega
  rw [sectionCrc, pat_section_length fits, patSection, List.drop_take, List.drop_drop, start, four]

theorem store_pat_run (pat : PatData) (fits : pkt.patStart + pkt.patLength + 8 ≤ tsSize)
    (filled : 0 < pkt.patLength) (accepted : pkt.PatAccepted) :
    ∃ next, storePat pat pkt pkt.patStart pkt.patLength (sectionCrc pkt.patSection)
        pkt.patVersion = some (next, (foundPrograms pkt.patSection).length) ∧
      PatStored pat next (foundPrograms pkt.patSection).length pkt.patVersion
        pkt.patSection := by
  have size : tsSize = 188 := rfl
  have short := found_programs_short fits
  have used : ∀ program ∈ foundPrograms pkt.patSection, (program.1 != 0) = true :=
    fun program => listed_nonzero
  let changed : Bool :=
    pat.crc32 ≠ sectionCrc pkt.patSection ∨ pat.version ≠ pkt.patVersion
  let renewed : PatData :=
    { pat with crc32 := sectionCrc pkt.patSection, version := pkt.patVersion }
  let first : PatLoop := ⟨renewed, 0, changed⟩
  have rounds := pat_rounds fits
  obtain ⟨loop, ran, stored⟩ := PatLoop.visits_run
    ((programEntries (pkt.cells.drop (pkt.patStart + 13))).take
      (patRounds (pkt.patStart + 13 + pkt.patLength - 9) (pkt.patStart + 13))) first
    (by rw [rounds, Nat.zero_add]; exact Nat.le_of_lt short)
  rw [rounds] at stored
  rw [← pat_programs_run (by omega) tsSize (pkt.patStart + 13) (by omega)] at ran
  have count : loop.programCount = (foundPrograms pkt.patSection).length :=
    stored.count.trans (Nat.zero_add _)
  have slots : loop.pat.slots = foundPrograms pkt.patSection ++
      pat.slots.drop (foundPrograms pkt.patSection).length := by
    have all := stored.slots
    rw [Nat.zero_add] at all
    exact all
  obtain ⟨programNumber, written, programs, ended⟩ := programs_ended slots used short
  refine ⟨{ loop.pat with programNumber, patChangedFlag := loop.changed }, ?_, rfl, programs,
    ended, ?_, stored.version, stored.crc32⟩
  · rw [storePat, pat_data_slice fits filled]
    simp only [Option.bind_eq_bind, Option.bind_some]
    rw [if_neg (not_not_intro accepted.2.2.2), ran, Option.bind_some, count, written]
    rfl
  · have noted : loop.changed = (changed ||
        pat.slots.take (foundPrograms pkt.patSection).length != foundPrograms pkt.patSection) :=
      stored.changed
    rw [← take_slots_iff pat used]
    change loop.changed = true ↔ _
    rw [noted]
    simp [changed, or_assoc]

theorem header_good_iff :
    pkt.PatHeaderGood ↔
      ¬(pkt.patByte 6 &&& 0x80 = 0 ∨ pkt.patByte 10 &&& 0x01 = 0) ∧
        ¬(pkt.patByte 11 ≠ 0 ∨ pkt.patByte 12 ≠ 0) := by
  simp only [PatHeaderGood, not_or, not_not, ne_eq, and_assoc]

/-- The call when everything that it reads before the checksum is in the packet. -/
theorem parse_pat_header (start : pkt.payloadStart = true)
    (header : pkt.patStart + 12 < tsSize) (fits : pkt.patStart + pkt.patLength + 8 ≤ tsSize)
    (filled : pkt.PatHeaderGood → 0 < pkt.patLength) :
    tsParsePat pat pkt =
      if pkt.PatHeaderGood then
        storePat pat pkt pkt.patStart pkt.patLength (sectionCrc pkt.patSection) pkt.patVersion
      else some (pat, 0) := by
  have size : tsSize = 188 := rfl
  obtain ⟨crc32, sliced, value⟩ := pat_crc_slice fits
  have entry : tsParsePat pat pkt =
      if pkt.patByte 6 &&& 0x80 = 0 ∨ pkt.patByte 10 &&& 0x01 = 0 then some (pat, 0)
      else if (tsSize : Int) - 4 - 1 - 3 - pkt.patLength < pkt.patStart then some (pat, 0)
      else if pkt.patByte 11 ≠ 0 ∨ pkt.patByte 12 ≠ 0 then some (pat, 0)
      else
        storePat pat pkt pkt.patStart pkt.patLength (UInt32.ofNat (bigEndianValue crc32))
          pkt.patVersion := by
    unfold tsParsePat
    rw [if_neg (by rw [start]; decide)]
    dsimp only
    rw [← patStart, if_neg (by omega), pat_byte_read (by omega), pat_byte_read (by omega),
      pat_byte_read (by omega), pat_byte_read (by omega), pat_byte_read (by omega)]
    simp only [Option.bind_eq_bind, Option.bind_some]
    rw [← patLength, sliced, Option.bind_some, patVersion]
  rw [entry]
  by_cases good : pkt.PatHeaderGood
  · obtain ⟨current, single⟩ := header_good_iff.mp good
    rw [if_pos good, if_neg current, if_neg (by omega), if_neg single, value (filled good)]
  · rw [if_neg good]
    by_cases current : pkt.patByte 6 &&& 0x80 = 0 ∨ pkt.patByte 10 &&& 0x01 = 0
    · rw [if_pos current]
    · have single : pkt.patByte 11 ≠ 0 ∨ pkt.patByte 12 ≠ 0 := by
        by_contra single
        exact good (header_good_iff.mpr ⟨current, single⟩)
      rw [if_neg current, if_neg (by omega), if_pos single]

theorem parse_pat_accepted (pat : PatData) (readable : pkt.PatReadable) (accepted : pkt.PatAccepted) :
    ∃ next, tsParsePat pat pkt = some (next, (foundPrograms pkt.patSection).length) ∧
      PatStored pat next (foundPrograms pkt.patSection).length pkt.patVersion
        pkt.patSection := by
  obtain ⟨start, within, good, _⟩ := id accepted
  obtain ⟨header, fits, filled⟩ := readable start within
  obtain ⟨next, ran, stored⟩ := store_pat_run pat fits (filled good) accepted
  refine ⟨next, ?_, stored⟩
  rw [parse_pat_header start header fits filled, if_pos good]
  exact ran

theorem parse_pat_rejected (pat : PatData) (readable : pkt.PatReadable) (rejected : ¬pkt.PatAccepted) :
    tsParsePat pat pkt = some (pat, 0) := by
  by_cases start : pkt.payloadStart = true
  · by_cases within : pkt.patStart ≤ tsSize
    · obtain ⟨header, fits, filled⟩ := readable start within
      rw [parse_pat_header start header fits filled]
      split
      · next good =>
          have differs : sectionCrc pkt.patSection ≠
              tsComputeCrc32 (pkt.patSection.take (pkt.patSection.length - 4)) 0xffffffff :=
            fun same => rejected ⟨start, within, good, same⟩
          rw [storePat, pat_data_slice fits (filled good)]
          simp only [Option.bind_eq_bind, Option.bind_some]
          rw [if_pos differs]
      · rfl
    · have behind : tsSize < (pkt.cell 4).toNat := Nat.lt_of_not_le within
      rw [tsParsePat, if_neg (by rw [start]; decide)]
      dsimp only
      rw [if_pos behind]
  · rw [tsParsePat, if_pos (Bool.not_eq_true _ ▸ start)]

theorem parse_pat_inside {result : PatData × Nat} (ran : tsParsePat pat pkt = some result) :
    pkt.PatReadable := by
  intro start within
  have size : tsSize = 188 := rfl
  unfold tsParsePat at ran
  rw [if_neg (by rw [start]; decide)] at ran
  dsimp only at ran
  rw [← patStart, if_neg (by omega)] at ran
  obtain ⟨high, readHigh, ran⟩ := Option.bind_eq_some_iff.mp ran
  obtain ⟨low, readLow, ran⟩ := Option.bind_eq_some_iff.mp ran
  obtain ⟨version, readVersion, ran⟩ := Option.bind_eq_some_iff.mp ran
  obtain ⟨number, readNumber, ran⟩ := Option.bind_eq_some_iff.mp ran
  obtain ⟨last, readLast, ran⟩ := Option.bind_eq_some_iff.mp ran
  obtain ⟨crc32, sliced, ran⟩ := Option.bind_eq_some_iff.mp ran
  have header : pkt.patStart + 12 < tsSize :=
    (Block.read_is_some pkt _).mp (by rw [readLast]; rfl)
  rw [pat_byte_read (by omega)] at readHigh readLow readVersion readNumber readLast
  cases readHigh
  cases readLow
  cases readVersion
  cases readNumber
  cases readLast
  have whole := (Block.slice_is_some pkt _ _).mp (by rw [sliced]; rfl)
  rw [← patLength] at whole ran
  have fits : pkt.patStart + pkt.patLength + 8 ≤ tsSize := by omega
  refine ⟨header, fits, ?_⟩
  intro good
  obtain ⟨current, single⟩ := header_good_iff.mp good
  rw [if_neg current, if_neg (by omega), if_neg single, storePat] at ran
  generalize length : (pkt.patLength + 3 + (2 ^ 32 - 4)) % 2 ^ 32 = count at ran
  obtain ⟨data, computed, _⟩ := Option.bind_eq_some_iff.mp ran
  have bounded := (Block.slice_is_some pkt _ _).mp (Option.isSome_iff_exists.mpr ⟨data, computed⟩)
  omega

theorem parse_pat_inside_iff : (tsParsePat pat pkt).isSome = true ↔ pkt.PatReadable := by
  constructor
  · intro inside
    obtain ⟨result, ran⟩ := Option.isSome_iff_exists.mp inside
    exact parse_pat_inside ran
  · intro readable
    by_cases accepted : pkt.PatAccepted
    · obtain ⟨next, ran, _⟩ := parse_pat_accepted pat readable accepted
      rw [ran]
      rfl
    · rw [parse_pat_rejected pat readable accepted]
      rfl

end TsPacket
end Xineliboutput.Ts
