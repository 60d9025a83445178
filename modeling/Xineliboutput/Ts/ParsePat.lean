import Mathlib.Data.List.TakeWhile
import Xineliboutput.Foundation.ByteOrder
import Xineliboutput.Ts.TsPacket

/-!
# Parsing the program association table

`ts_parse_pat` of `ts.c`. `none` is a call that reads outside the packet or writes outside the
two arrays. Where it reads inside, the call is an update by the list of programs that it finds
behind the byte after the pointer.
-/

namespace Xineliboutput.Ts

open Xineliboutput.Foundation

set_option autoImplicit false

abbrev tsMaxPrograms : Nat := 64

structure PatData where
  programNumber : Block Nat tsMaxPrograms
  pmtPid : Block Nat tsMaxPrograms
  version : Nat
  crc32 : UInt32
  patChangedFlag : Bool
deriving DecidableEq

/-- The variables of the program loop. -/
structure PatLoop where
  pat : PatData
  programCount : Nat
  changed : Bool

namespace PatLoop

/-- One round, with the program number and the PID that it has read. -/
def visit (loop : PatLoop) (program : Nat × Nat) : Option PatLoop :=
  if program.1 = 0 then some loop
  else do
    let number ← loop.pat.programNumber.read loop.programCount
    let pid ← loop.pat.pmtPid.read loop.programCount
    if number ≠ program.1 ∨ pid ≠ program.2 then do
      let programNumber ← loop.pat.programNumber.overwrite loop.programCount [program.1]
      let pmtPid ← loop.pat.pmtPid.overwrite loop.programCount [program.2]
      some ⟨{ loop.pat with programNumber, pmtPid }, loop.programCount + 1, true⟩
    else some { loop with programCount := loop.programCount + 1 }

end PatLoop

def programEntry (first second third fourth : UInt8) : Nat × Nat :=
  (word first second, word (third &&& 0x1f) fourth)

def patPrograms (pkt : TsPacket) (stop : Nat) : Nat → Nat → PatLoop → Option PatLoop
  | 0, _, loop => some loop
  | rounds + 1, program, loop =>
      if program < stop then do
        let first ← pkt.read program
        let second ← pkt.read (program + 1)
        let third ← pkt.read (program + 2)
        let fourth ← pkt.read (program + 3)
        let loop ← loop.visit (programEntry first second third fourth)
        patPrograms pkt stop rounds (program + 4) loop
      else some loop

/-- From the test of the checksum on; `pkt` is a position now. -/
def storePat (pat : PatData) (packet : TsPacket) (pkt sectionLength : Nat) (crc32 : UInt32)
    (versionNumber : Nat) : Option (PatData × Nat) := do
  let data ← packet.slice (pkt + 5) ((sectionLength + 3 + (2 ^ 32 - 4)) % 2 ^ 32)
  if crc32 ≠ tsComputeCrc32 data 0xffffffff then some (pat, 0)
  else do
    let changed : Bool := pat.crc32 ≠ crc32 ∨ pat.version ≠ versionNumber
    let pat := { pat with crc32, version := versionNumber }
    let loop ← patPrograms packet (pkt + 13 + sectionLength - 9) tsSize (pkt + 13) ⟨pat, 0, changed⟩
    let programNumber ← loop.pat.programNumber.overwrite loop.programCount [0]
    some ({ loop.pat with programNumber, patChangedFlag := loop.changed }, loop.programCount)

/-- `ts_parse_pat` -/
def tsParsePat (pat : PatData) (packet : TsPacket) : Option (PatData × Nat) :=
  if packet.payloadStart = false then some (pat, 0)
  else
    let pkt := (packet.cell 4).toNat
    if tsSize < pkt then some (pat, 0)
    else do
      let lengthHigh ← packet.read (pkt + 6)
      let lengthLow ← packet.read (pkt + 7)
      let version ← packet.read (pkt + 10)
      let sectionNumber ← packet.read (pkt + 11)
      let lastSectionNumber ← packet.read (pkt + 12)
      let sectionLength := word (lengthHigh &&& 0x03) lengthLow
      let crc32 ← packet.slice (pkt + sectionLength + 4) 4
      if lengthHigh &&& 0x80 = 0 ∨ version &&& 0x01 = 0 then some (pat, 0)
      else if (tsSize : Int) - 4 - 1 - 3 - sectionLength < pkt then some (pat, 0)
      else if sectionNumber ≠ 0 ∨ lastSectionNumber ≠ 0 then some (pat, 0)
      else
        storePat pat packet pkt sectionLength (UInt32.ofNat (bigEndianValue crc32))
          (version.toNat / 2 % 32)

/-! ## The lists -/

namespace PatData

variable (pat : PatData)

def slots : List (Nat × Nat) := pat.programNumber.cells.zip pat.pmtPid.cells

/-- The list that is held: up to the first program number of zero. -/
def programs : List (Nat × Nat) := pat.slots.takeWhile fun program => program.1 != 0

theorem slots_length : pat.slots.length = tsMaxPrograms := by
  rw [slots, List.length_zip, pat.programNumber.sized, pat.pmtPid.sized, Nat.min_self]

variable {pat}

theorem slots_get {index : Nat} (within : index < tsMaxPrograms) :
    ∃ number pid, pat.programNumber.read index = some number ∧
      pat.pmtPid.read index = some pid ∧ pat.slots[index]? = some (number, pid) := by
  obtain ⟨number, first⟩ :=
    Option.isSome_iff_exists.mp ((Block.read_is_some pat.programNumber index).mpr within)
  obtain ⟨pid, second⟩ :=
    Option.isSome_iff_exists.mp ((Block.read_is_some pat.pmtPid index).mpr within)
  refine ⟨number, pid, first, second, ?_⟩
  unfold Block.read at first second
  rw [slots, List.getElem?_zip_eq_some]
  exact ⟨first, second⟩

end PatData

theorem overwrite_one {Cell : Type} {size : Nat} (block : Block Cell size) {index : Nat}
    (within : index < size) (value : Cell) :
    ∃ after, block.overwrite index [value] = some after ∧
      after.cells = block.cells.set index value := by
  obtain ⟨after, written⟩ :=
    Option.isSome_iff_exists.mp ((Block.overwrite_is_some block index [value]).mpr within)
  refine ⟨after, written, ?_⟩
  have inside : index < block.cells.length := by rw [block.sized]; exact within
  rw [Block.overwrite_cells written, List.set_eq_take_append_cons_drop, if_pos inside,
    List.append_assoc]
  rfl

theorem zip_set {First Second : Type} (firsts : List First) (seconds : List Second) (index : Nat)
    (first : First) (second : Second) :
    (firsts.set index first).zip (seconds.set index second) =
      (firsts.zip seconds).set index (first, second) := by
  induction firsts generalizing seconds index with
  | nil => simp
  | cons head firsts ih =>
      cases seconds with
      | nil => simp
      | cons other seconds =>
          cases index with
          | zero => rfl
          | succ index =>
              rw [List.set_cons_succ, List.set_cons_succ, List.zip_cons_cons, ih]
              rfl

/-! ## The loop -/

namespace PatLoop

variable {loop : PatLoop} {program : Nat × Nat}

/-- A program is stored at its index, and noted when it was not there before. -/
theorem visit_run (used : program.1 ≠ 0) (within : loop.programCount < tsMaxPrograms) :
    ∃ next, loop.visit program = some next ∧ next.programCount = loop.programCount + 1 ∧
      next.pat.slots = loop.pat.slots.set loop.programCount program ∧
      next.changed = (loop.changed || loop.pat.slots[loop.programCount]? != some program) ∧
      next.pat.version = loop.pat.version ∧ next.pat.crc32 = loop.pat.crc32 := by
  obtain ⟨number, pid, readNumber, readPid, slot⟩ := loop.pat.slots_get within
  by_cases differs : number ≠ program.1 ∨ pid ≠ program.2
  · obtain ⟨numbers, writtenNumber, setNumber⟩ :=
      overwrite_one loop.pat.programNumber within program.1
    obtain ⟨pids, writtenPid, setPid⟩ := overwrite_one loop.pat.pmtPid within program.2
    refine ⟨⟨{ loop.pat with programNumber := numbers, pmtPid := pids },
      loop.programCount + 1, true⟩, ?_, rfl, ?_, ?_, rfl, rfl⟩
    · simp only [visit, if_neg used, readNumber, readPid, Option.bind_eq_bind, Option.bind_some,
        if_pos differs, writtenNumber, writtenPid]
    · rw [PatData.slots, setNumber, setPid]
      exact zip_set _ _ _ _ _
    · have other : (number, pid) ≠ program := by
        intro same
        rw [← same] at differs
        exact differs.elim (fun first => first rfl) fun second => second rfl
      rw [slot]
      simp [other]
  · obtain ⟨rfl, rfl⟩ : number = program.1 ∧ pid = program.2 := by
      simpa only [not_or, not_not] using differs
    refine ⟨{ loop with programCount := loop.programCount + 1 }, ?_, rfl, ?_, ?_, rfl, rfl⟩
    · simp only [visit, if_neg used, readNumber, readPid, Option.bind_eq_bind, Option.bind_some,
        if_neg differs]
    · obtain ⟨inside, same⟩ := List.getElem?_eq_some_iff.mp slot
      have kept := List.set_getElem_self inside
      rw [same] at kept
      exact kept.symm
    · rw [slot]
      simp

/-- What the rounds of the loop leave: the programs in order, and whether one was not there. -/
structure Stored (loop next : PatLoop) (programs : List (Nat × Nat)) : Prop where
  count : next.programCount = loop.programCount + programs.length
  slots : next.pat.slots = loop.pat.slots.take loop.programCount ++ programs ++
    loop.pat.slots.drop (loop.programCount + programs.length)
  changed : next.changed =
    (loop.changed || (loop.pat.slots.drop loop.programCount).take programs.length != programs)
  version : next.pat.version = loop.pat.version
  crc32 : next.pat.crc32 = loop.pat.crc32

theorem Stored.nothing (loop : PatLoop) : Stored loop loop [] where
  count := rfl
  slots := by simp
  changed := by simp
  version := rfl
  crc32 := rfl

theorem Stored.cons {loop middle next : PatLoop} {program : Nat × Nat}
    {programs : List (Nat × Nat)} (within : loop.programCount < tsMaxPrograms)
    (count : middle.programCount = loop.programCount + 1)
    (slots : middle.pat.slots = loop.pat.slots.set loop.programCount program)
    (changed : middle.changed =
      (loop.changed || loop.pat.slots[loop.programCount]? != some program))
    (version : middle.pat.version = loop.pat.version) (crc32 : middle.pat.crc32 = loop.pat.crc32)
    (stored : Stored middle next programs) : Stored loop next (program :: programs) := by
  have inside : loop.programCount < loop.pat.slots.length := by
    rw [PatData.slots_length]
    exact within
  constructor
  · rw [stored.count, count, List.length_cons, Nat.add_assoc, Nat.add_comm 1]
  · have front : (loop.pat.slots.set loop.programCount program).take (loop.programCount + 1) =
        loop.pat.slots.take loop.programCount ++ [program] := by
      rw [List.take_succ_eq_append_getElem (by rw [List.length_set]; exact inside),
        List.take_set_of_le (Nat.le_refl _), List.getElem_set_self]
    rw [stored.slots, slots, count, front, List.drop_set_of_lt (by omega), List.length_cons]
    simp [Nat.add_assoc, Nat.add_comm 1]
  · have behind : (loop.pat.slots.drop loop.programCount).take (programs.length + 1) =
        loop.pat.slots[loop.programCount] ::
          (loop.pat.slots.drop (loop.programCount + 1)).take programs.length := by
      rw [List.drop_eq_getElem_cons inside, List.take_succ_cons]
    rw [stored.changed, changed, slots, count, List.drop_set_of_lt (by omega), List.length_cons,
      behind, List.getElem?_eq_getElem inside, Bool.or_assoc]
    simp [bne, Bool.not_and]
  · rw [stored.version, version]
  · rw [stored.crc32, crc32]

def listed (entries : List (Nat × Nat)) : List (Nat × Nat) :=
  entries.filter fun program => program.1 != 0

theorem visits_run (entries : List (Nat × Nat)) (loop : PatLoop)
    (fits : loop.programCount + (listed entries).length ≤ tsMaxPrograms) :
    ∃ next, entries.foldlM visit loop = some next ∧ Stored loop next (listed entries) := by
  induction entries generalizing loop with
  | nil => exact ⟨loop, rfl, .nothing loop⟩
  | cons program entries ih =>
      by_cases network : program.1 = 0
      · have skipped : listed (program :: entries) = listed entries := by
          simp [listed, network]
        rw [skipped] at fits ⊢
        rw [List.foldlM_cons, visit, if_pos network]
        exact ih loop fits
      · have kept : listed (program :: entries) = program :: listed entries := by
          simp [listed, network]
        rw [kept, List.length_cons] at fits
        have within : loop.programCount < tsMaxPrograms := by omega
        obtain ⟨middle, visited, count, slots, changed, version, crc32⟩ :=
          visit_run network within
        obtain ⟨next, ran, stored⟩ := ih middle (by omega)
        refine ⟨next, ?_, kept ▸ stored.cons within count slots changed version crc32⟩
        rw [List.foldlM_cons, visited]
        exact ran

end PatLoop

/-- The entries of a section, from its program loop on. -/
def programEntries : List UInt8 → List (Nat × Nat)
  | first :: second :: third :: fourth :: rest =>
      programEntry first second third fourth :: programEntries rest
  | _ => []

/-- The rounds that the program loop makes, the last one perhaps over the end. -/
def patRounds (stop program : Nat) : Nat := (stop - program + 3) / 4

theorem read_four (pkt : TsPacket) {program : Nat} (inside : program + 3 < tsSize) :
    ∃ first second third fourth, pkt.read program = some first ∧
      pkt.read (program + 1) = some second ∧ pkt.read (program + 2) = some third ∧
      pkt.read (program + 3) = some fourth ∧
      pkt.cells.drop program = first :: second :: third :: fourth :: pkt.cells.drop (program + 4) := by
  have sized := pkt.sized
  refine ⟨_, _, _, _, List.getElem?_eq_getElem (by omega), List.getElem?_eq_getElem (by omega),
    List.getElem?_eq_getElem (by omega), List.getElem?_eq_getElem (by omega), ?_⟩
  rw [List.drop_eq_getElem_cons (by omega), List.drop_eq_getElem_cons (i := program + 1) (by omega),
    List.drop_eq_getElem_cons (i := program + 2) (by omega),
    List.drop_eq_getElem_cons (i := program + 3) (by omega)]

theorem pat_programs_run {pkt : TsPacket} {stop : Nat} (inside : stop + 3 ≤ tsSize)
    (rounds program : Nat) (enough : stop ≤ program + 4 * rounds) (loop : PatLoop) :
    patPrograms pkt stop rounds program loop =
      ((programEntries (pkt.cells.drop program)).take (patRounds stop program)).foldlM
        PatLoop.visit loop := by
  induction rounds generalizing program loop with
  | zero =>
      have none : patRounds stop program = 0 := by
        unfold patRounds
        omega
      rw [none]
      rfl
  | succ rounds ih =>
      rw [patPrograms]
      by_cases before : program < stop
      · obtain ⟨first, second, third, fourth, one, two, three, four, cells⟩ :=
          read_four pkt (Nat.lt_of_lt_of_le (Nat.add_lt_add_right before 3) inside)
        have more : patRounds stop program = patRounds stop (program + 4) + 1 := by
          unfold patRounds
          omega
        rw [if_pos before, one, two, three, four, cells, programEntries, more, List.take_succ_cons,
          List.foldlM_cons]
        simp only [Option.bind_eq_bind, Option.bind_some]
        apply congrArg
        funext next
        exact ih (program + 4) (by omega) next
      · have none : patRounds stop program = 0 := by
          unfold patRounds
          omega
        rw [if_neg before, none]
        rfl

end Xineliboutput.Ts
