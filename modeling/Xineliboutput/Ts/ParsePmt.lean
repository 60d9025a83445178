import Mathlib.Tactic.SplitIfs
import Xineliboutput.Foundation.ByteOrder
import Xineliboutput.Foundation.Machine
import Xineliboutput.Ts.TsPacket

/-!
# Collecting the program map section

The first half of `ts_parse_pmt` of `ts.c`. `none` is a call that copies from
outside the packet, copies to outside `raw_pmt` or looks at a byte outside
`raw_pmt`. The header of a packet is read behind its pointer field; how far that
may reach is not limited, so the bytes `behind` the packet are an argument.
-/

namespace Xineliboutput.Ts

open Xineliboutput.Foundation

set_option autoImplicit false

abbrev rawPmtSize : Nat := 4096

instance rawPmtSize_pos : NeZero rawPmtSize := ⟨Nat.succ_ne_zero 4095⟩

/-- `pmt` points to `raw_pmt` or is NULL; `pmt_write_ptr` is an offset into `raw_pmt`. -/
structure PmtData where
  pmt : Bool
  pmtWritePtr : Option Nat
  crc32 : UInt32
  versionNumber : Nat
  tables : PmtTables
  rawPmt : Block UInt8 rawPmtSize
deriving DecidableEq

/-- A `pmt_data_t` filled with zeros. -/
def zeroedPmtData : PmtData where
  pmt := false
  pmtWritePtr := none
  crc32 := 0
  versionNumber := 0
  tables := ⟨0, 0, 0, .none, .none⟩
  rawPmt := .filled 0

/-- The fields of a section header that outlive the check. -/
structure SectionHead where
  sectionLength : Nat
  versionNumber : Nat
deriving DecidableEq

def versionField (byte : UInt8) : Nat := byte.toNat / 2 % 32

/-- `pkt[i]` after `pkt += pkt[4]`. -/
def headerByte (pkt : TsPacket) (behind : Nat → UInt8) (i : Nat) : UInt8 :=
  (pkt.read ((pkt.cell 4).toNat + i)).getD (behind ((pkt.cell 4).toNat + i))

/-- The checks on a section header, `none` where the call returns. -/
def checkHeader (programNo : Nat) (header : Nat → UInt8) : Option SectionHead :=
  if header 6 &&& 0x80 = 0 ∨ header 10 &&& 0x01 = 0 then none
  else if word (header 8) (header 9) ≠ programNo then none
  else if header 11 ≠ 0 ∨ header 12 ≠ 0 then none
  else some ⟨word (header 6) (header 7) % 0x400, versionField (header 10)⟩

namespace PmtData

def restart (pmt : PmtData) (pkt : TsPacket) : PmtData :=
  if pkt.payloadStart then { pmt with pmt := true, pmtWritePtr := some 0 } else pmt

/-- Whether the payload is stored, and what is known of its section then. -/
def head (pmt : PmtData) (programNo : Nat) (pkt : TsPacket) (behind : Nat → UInt8) :
    Option SectionHead :=
  if pkt.payloadStart then checkHeader programNo (headerByte pkt behind)
  else if pmt.pmt then
    some ⟨word (pmt.rawPmt.cell 1) (pmt.rawPmt.cell 2) % 0x400, versionField (pkt.cell 10)⟩
  else none

end PmtData

/-- `offset`: the pointer field is not stored. -/
def pointerSize (pkt : TsPacket) : Nat := if pkt.payloadStart then 1 else 0

/-- `len = count - offset` in eight bits. -/
def storedLength (pkt : TsPacket) : Nat := ((pkt.payloadSize - pointerSize pkt) % 256).toNat

namespace PmtData

def storePayload (pmt : PmtData) (pkt : TsPacket) : Option PmtData := do
  let data ← pkt.slice (pkt.payloadOffset + pointerSize pkt) (storedLength pkt)
  let write ← pmt.pmtWritePtr
  let rawPmt ← pmt.rawPmt.overwrite write data
  some { pmt with pmtWritePtr := some (write + storedLength pkt), rawPmt }

def finishSection (pmt : PmtData) (head : SectionHead) : Option (PmtData × Bool) :=
  if pmt.pmtWritePtr.getD 0 < head.sectionLength then some (pmt, false)
  else if head.sectionLength = 0 then some ({ pmt with pmt := false }, false)
  else do
    let crc32 ← pmt.rawPmt.slice (head.sectionLength + 3 - 4) 4
    let data ← pmt.rawPmt.slice 0 (head.sectionLength + 3 - 4)
    if UInt32.ofNat (bigEndianValue crc32) ≠ tsComputeCrc32 data 0xffffffff then
      some (pmt, false)
    else if UInt32.ofNat (bigEndianValue crc32) = pmt.crc32 ∧
        head.versionNumber = pmt.versionNumber then
      some (pmt, false)
    else do
      let parsed ← (parseSection head.sectionLength pmt.tables).run pmt.rawPmt.read
      some ({ pmt with
        crc32 := UInt32.ofNat (bigEndianValue crc32)
        versionNumber := head.versionNumber
        tables := parsed.1 }, parsed.2)

end PmtData

/-- `true` is a return value of one. -/
def tsParsePmt (pmt : PmtData) (programNo : Nat) (pkt : TsPacket) (behind : Nat → UInt8) :
    Option (PmtData × Bool) :=
  match pmt.head programNo pkt behind with
  | none => some (pmt.restart pkt, false)
  | some head => ((pmt.restart pkt).storePayload pkt).bind fun stored => stored.finishSection head

/-- One call with its packet and the memory behind the packet. -/
structure PmtCall where
  programNo : Nat
  pkt : TsPacket
  behind : Nat → UInt8

def PmtData.call (pmt : PmtData) (call : PmtCall) : Option PmtData :=
  (tsParsePmt pmt call.programNo call.pkt call.behind).map Prod.fst

end Xineliboutput.Ts

/-!
# What the section parser touches

Past the program info every position the parser looks at is bounded by the length
of the section, which has ten bits. The program info is walked before its length
is compared with anything; a walk over descriptors says how far that goes.
-/

namespace Xineliboutput.Ts

open Xineliboutput.Foundation

set_option autoImplicit false

/-! ## Scans bounded by the section -/

section Bounded

variable {bound : Nat}

theorem fetch_word_ends {position : Nat} (inside : position + 1 < bound) :
    Scan.EndsWithin bound (fetchWord position) := by
  apply Scan.EndsWithin.bind (.fetch (by omega))
  intro high
  apply Scan.EndsWithin.bind (.fetch inside)
  intro low
  exact .pure _

theorem list_word (bytes : List UInt8) (position : Nat) (inside : position + 1 < bytes.length) :
    (fetchWord position).run (Memory.ofList bytes) =
      some (word (bytes.getD position 0) (bytes.getD (position + 1) 0)) := by
  have high : bytes[position]? = some (bytes.getD position 0) := by
    rw [List.getD_eq_getElem?_getD, List.getElem?_eq_getElem (by omega)]
    rfl
  have low : bytes[position + 1]? = some (bytes.getD (position + 1) 0) := by
    rw [List.getD_eq_getElem?_getD, List.getElem?_eq_getElem inside]
    rfl
  simp only [fetchWord, Memory.ofList, Scan.run_bind, Scan.run_fetch, Scan.run_pure, high, low,
    Option.bind_some]

theorem fetch_word32_ends {position : Nat} (inside : position + 3 < bound) :
    Scan.EndsWithin bound (fetchWord32 position) := by
  apply Scan.EndsWithin.bind (fetch_word_ends (by omega))
  intro high
  apply Scan.EndsWithin.bind (fetch_word_ends (by omega))
  intro low
  exact .pure _

theorem reg_desc_ends {stop : Nat} (inside : stop + 5 ≤ bound) (rounds d : Nat) :
    Scan.EndsWithin bound (regDescFrom stop rounds d) := by
  induction rounds generalizing d with
  | zero => exact .pure _
  | succ rounds ih =>
      apply Scan.EndsWithin.ite
      · intro before
        apply Scan.EndsWithin.bind (.fetch (by omega))
        intro tag
        apply Scan.EndsWithin.bind (.fetch (by omega))
        intro length
        apply Scan.EndsWithin.ite
        · intro registration
          exact fetch_word32_ends (by omega)
        · intro passed
          exact ih _
      · intro behind
        exact .pure _

theorem dvb_sub_ends {stream stop : Nat} (inside : stream + stop ≤ bound) (pid rounds pos : Nat)
    (tables : PmtTables) :
    Scan.EndsWithin bound (parseDvbSub stream pid stop rounds pos tables) := by
  induction rounds generalizing pos tables with
  | zero => exact .pure _
  | succ rounds ih =>
      apply Scan.EndsWithin.ite
      · intro entry
        have before : pos + 8 ≤ stop := entry.1
        apply Scan.EndsWithin.bind (.fetch (by omega))
        intro first
        apply Scan.EndsWithin.bind (.fetch (by omega))
        intro second
        apply Scan.EndsWithin.bind (.fetch (by omega))
        intro third
        apply Scan.EndsWithin.bind (fetch_word_ends (by omega))
        intro compPageId
        apply Scan.EndsWithin.bind (fetch_word_ends (by omega))
        intro auxPageId
        exact ih _ _
      · intro finished
        exact .pure _

theorem pes_private_ends {stream codedLength : Nat} (inside : stream + codedLength + 256 ≤ bound)
    (pid rounds i : Nat) (tables : PmtTables) :
    Scan.EndsWithin bound (parsePesPrivate stream pid codedLength rounds i tables) := by
  induction rounds generalizing i tables with
  | zero => exact .pure _
  | succ rounds ih =>
      apply Scan.EndsWithin.ite
      · intro before
        apply Scan.EndsWithin.bind (.fetch (by omega))
        intro tag
        generalize (if isAudioDescriptor tag then
          tables.addAudioTrack pid (descriptorToStreamType tag) else none) = added
        cases added with
        | some tables => exact .pure _
        | none =>
            apply Scan.EndsWithin.bind (.fetch (by omega))
            intro length
            have short := length.toNat_lt
            dsimp only
            apply Scan.EndsWithin.ite
            · intro subtitles
              apply Scan.EndsWithin.bind (dvb_sub_ends (by omega) _ _ _ _)
              intro tables
              exact ih _ _
            · intro unknown
              exact ih _ _
      · intro behind
        exact .pure _

theorem other_ends {stream streamInfoLength : Nat}
    (inside : stream + streamInfoLength + 10 ≤ bound) (pid : Nat) (streamType : UInt8)
    (tables : PmtTables) :
    Scan.EndsWithin bound (parseOther stream streamInfoLength pid streamType tables) := by
  apply Scan.EndsWithin.ite
  · intro candidate
    apply Scan.EndsWithin.ite
    · intro known
      exact .pure _
    · intro unknown
      apply Scan.EndsWithin.bind (reg_desc_ends (by omega) _ _)
      intro formatIdentifier
      exact .ite (fun _ => .pure _) fun _ => .pure _
  · intro rejected
    exact .pure _

theorem stream_ends {stream streamInfoLength : Nat}
    (inside : stream + streamInfoLength + 261 ≤ bound) (hdmvPmt : Bool) (pid : Nat)
    (tables : PmtTables) :
    Scan.EndsWithin bound (parseStream hdmvPmt stream streamInfoLength pid tables) := by
  apply Scan.EndsWithin.bind (.fetch (by omega))
  intro streamType
  apply Scan.EndsWithin.ite (fun _ => .pure _)
  intro notVideo
  apply Scan.EndsWithin.ite (fun _ => .pure _)
  intro notAudio
  apply Scan.EndsWithin.ite (fun _ => .pure _)
  intro notPrivateSection
  apply Scan.EndsWithin.ite (fun _ => pes_private_ends (by omega) _ _ _ _)
  intro notPesPrivate
  apply Scan.EndsWithin.ite (fun _ => .pure _)
  intro notHdmvSpu
  apply Scan.EndsWithin.ite (fun _ => .pure _)
  intro notHdmvAudio
  exact other_ends (by omega) _ _ _

theorem streams_end (hdmvPmt : Bool) (rounds : Nat) {stream sectionLength : Nat}
    (inside : stream + sectionLength + 256 ≤ bound) (tables : PmtTables) :
    Scan.EndsWithin bound (parseStreams hdmvPmt rounds stream sectionLength tables) := by
  induction rounds generalizing stream sectionLength tables with
  | zero => exact .pure _
  | succ rounds ih =>
      apply Scan.EndsWithin.ite
      · intro more
        apply Scan.EndsWithin.bind (fetch_word_ends (by omega))
        intro pidWord
        apply Scan.EndsWithin.bind (fetch_word_ends (by omega))
        intro infoWord
        apply Scan.EndsWithin.ite (fun _ => .pure _)
        intro consistent
        apply Scan.EndsWithin.bind (stream_ends (by omega) _ _ _)
        intro tables
        exact ih (by omega) _
      · intro finished
        exact .pure _

end Bounded

/-! ## The program info -/

/-- A descriptor at `e`, for a walk that starts at `d` and has found no
registration descriptor before. -/
inductive DescriptorAt (memory : Memory UInt8) (stop : Nat) : Nat → Nat → Prop where
  | here {d : Nat} (before : d < stop) : DescriptorAt memory stop d d
  | later {d e : Nat} {tag length : UInt8} (before : d < stop) (tagged : memory d = some tag)
      (sized : memory (d + 1) = some length) (passed : ¬(tag = 5 ∧ 4 ≤ length))
      (onward : DescriptorAt memory stop (d + 2 + length.toNat) e) : DescriptorAt memory stop d e

/-- Tag and length of a descriptor lie below `bound`, and the four bytes of a
registration descriptor too. -/
def DescriptorInside (memory : Memory UInt8) (bound e : Nat) : Prop :=
  e + 1 < bound ∧
    (memory e = some 5 → ∀ length, memory (e + 1) = some length → 4 ≤ length → e + 5 < bound)

theorem reg_desc_ends_iff {memory : Memory UInt8} {bound : Nat}
    (extent : ∀ position, (memory position).isSome = true ↔ position < bound) {stop : Nat}
    (rounds : Nat) {d : Nat} (enough : stop ≤ d + 2 * rounds) :
    ((regDescFrom stop rounds d).run memory).isSome = true ↔
      ∀ e, DescriptorAt memory stop d e → DescriptorInside memory bound e := by
  have reaches : ∀ position < bound, (memory position).isSome = true :=
    fun position => (extent position).mpr
  induction rounds generalizing d with
  | zero =>
      constructor
      · intro ends e descriptor
        cases descriptor <;> omega
      · intro inside
        rfl
  | succ rounds ih =>
      rw [regDescFrom, Scan.run_ite]
      by_cases before : d < stop
      · rw [if_pos before]
        constructor
        · intro ends e descriptor
          obtain ⟨result, ran⟩ := Option.isSome_iff_exists.mp ends
          simp only [Scan.run_bind, Scan.run_fetch, Option.bind_eq_some_iff] at ran
          obtain ⟨tag, tagged, length, sized, ran⟩ := ran
          have lengthInside : d + 1 < bound := (extent _).mp (by rw [sized]; rfl)
          cases descriptor with
          | here before =>
              refine ⟨lengthInside, ?_⟩
              intro registration length' sized' long
              rw [tagged] at registration
              rw [sized] at sized'
              cases registration
              cases sized'
              rw [if_pos ⟨rfl, long⟩] at ran
              simp only [fetchWord32, fetchWord, Scan.run_bind, Scan.run_fetch,
                Option.bind_eq_some_iff] at ran
              obtain ⟨_, _, _, ⟨_, _, _, last, _⟩, _⟩ := ran
              exact (extent _).mp (by rw [show d + 5 = d + 2 + 2 + 1 by omega, last]; rfl)
          | later before tagged' sized' passed onward =>
              rw [tagged] at tagged'
              rw [sized] at sized'
              cases tagged'
              cases sized'
              rw [if_neg passed] at ran
              exact (ih (by omega)).mp (by rw [ran]; rfl) e onward
        · intro inside
          obtain ⟨lengthInside, registrationInside⟩ := inside d (.here before)
          obtain ⟨tag, tagged⟩ := Option.isSome_iff_exists.mp (reaches d (by omega))
          obtain ⟨length, sized⟩ := Option.isSome_iff_exists.mp (reaches (d + 1) lengthInside)
          simp only [Scan.run_bind, Scan.run_fetch, tagged, sized, Option.bind_some, Scan.run_ite]
          by_cases registration : tag = 5 ∧ 4 ≤ length
          · rw [if_pos registration]
            have last := registrationInside (by rw [tagged, registration.1]) length sized
              registration.2
            exact fetch_word32_ends (by omega) memory reaches
          · rw [if_neg registration]
            exact (ih (by omega)).mpr fun e onward =>
              inside e (.later before tagged sized registration onward)
      · rw [if_neg before]
        constructor
        · intro ends e descriptor
          cases descriptor <;> omega
        · intro inside
          rfl

end Xineliboutput.Ts
