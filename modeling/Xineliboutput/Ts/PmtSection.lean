import Xineliboutput.Foundation.Scan

/-!
# The program map section

The second half of `ts_parse_pmt` of `ts.c`: the checksum, and the parser that
fills the tables once a section is complete. The parser is a scan of the section
buffer; positions are offsets into it.
-/

namespace Xineliboutput.Ts

open Xineliboutput.Foundation

set_option autoImplicit false

abbrev invalidPid : Nat := 0xffff
abbrev tsMaxTracks : Nat := 32

/-! ## The checksum -/

/-- One entry of `crc32_table`; the marker bit reaches the top after eight rounds. -/
def crc32Round : Nat → UInt32 → UInt32 → UInt32
  | 0, _, k => k
  | rounds + 1, j, k =>
      if j ≠ 0x80000000 then
        crc32Round rounds (j <<< 1)
          ((k <<< 1) ^^^ (if (k ^^^ j) &&& 0x80000000 ≠ 0 then 0x04c11db7 else 0))
      else k

def crc32Table (i : UInt32) : UInt32 := crc32Round 32 ((i <<< 24) ||| 0x800000) 0

def tsComputeCrc32 (data : List UInt8) (crc32 : UInt32) : UInt32 :=
  data.foldl (fun crc32 byte =>
    (crc32 <<< 8) ^^^ crc32Table ((crc32 >>> 24) ^^^ byte.toUInt32)) crc32

/-! ## The tables -/

structure TrackTable (Track : Type) where
  entries : List Track
  bounded : entries.length ≤ tsMaxTracks
deriving DecidableEq

namespace TrackTable

variable {Track : Type}

def none : TrackTable Track := ⟨[], Nat.zero_le _⟩

def hasRoom (table : TrackTable Track) : Bool := table.entries.length < tsMaxTracks

def add (table : TrackTable Track) (track : Track) : TrackTable Track :=
  if room : table.entries.length < tsMaxTracks then
    ⟨table.entries ++ [track], by simp only [List.length_append, List.length_singleton]; omega⟩
  else table

end TrackTable

structure AudioTrack where
  pid : Nat
  type : Nat
deriving DecidableEq

structure SpuTrack where
  pid : Nat
  lang : List UInt8
  compPageId : Nat
  auxPageId : Nat
deriving DecidableEq

/-- What the parser fills in `pmt_data_t`. -/
structure PmtTables where
  pcrPid : Nat
  videoPid : Nat
  videoType : Nat
  audioTracks : TrackTable AudioTrack
  spuTracks : TrackTable SpuTrack
deriving DecidableEq

namespace PmtTables

/-- `find_audio_track`, as the test its callers make of it. -/
def findAudioTrack (tables : PmtTables) (pid : Nat) : Bool :=
  tables.audioTracks.entries.any fun track => track.pid == pid

/-- `none` when the array is full or knows the PID. -/
def addAudioTrack (tables : PmtTables) (pid type : Nat) : Option PmtTables :=
  if tables.audioTracks.hasRoom && !tables.findAudioTrack pid then
    some { tables with audioTracks := tables.audioTracks.add ⟨pid, type⟩ }
  else none

def addSpuTrack (tables : PmtTables) (track : SpuTrack) : PmtTables :=
  { tables with spuTracks := tables.spuTracks.add track }

/-- The PIDs are reset before the section is parsed; the video type is not. -/
def resetPids (tables : PmtTables) : PmtTables :=
  { tables with audioTracks := .none, spuTracks := .none, videoPid := invalidPid }

end PmtTables

/-! ## Scanning the section -/

def word (high low : UInt8) : Nat := high.toNat * 256 + low.toNat

def fetchWord (position : Nat) : Scan UInt8 Nat := do
  let high ← Scan.fetch position
  let low ← Scan.fetch (position + 1)
  pure (word high low)

def fetchWord32 (position : Nat) : Scan UInt8 Nat := do
  let high ← fetchWord position
  let low ← fetchWord (position + 2)
  pure (high * 65536 + low)

/-- `ts_get_reg_desc` from `d` on; every round passes two bytes at least. -/
def regDescFrom (stop : Nat) : Nat → Nat → Scan UInt8 Nat
  | 0, _ => pure 0
  | rounds + 1, d =>
      if d < stop then do
        let tag ← Scan.fetch d
        let length ← Scan.fetch (d + 1)
        if tag = 5 ∧ 4 ≤ length then fetchWord32 (d + 2)
        else regDescFrom stop rounds (d + 2 + length.toNat)
      else pure 0

def tsGetRegDesc (data length : Nat) : Scan UInt8 Nat := regDescFrom (data + length) length data

def isAudioDescriptor (descriptorTag : UInt8) : Bool :=
  descriptorTag = 0x6a || descriptorTag = 0x7a || descriptorTag = 0x7b || descriptorTag = 0x7c

/-- Of an audio descriptor: AC3 has its own stream type, the others keep their
tag over `ISO_13818_PES_PRIVATE`. -/
def descriptorToStreamType (descriptorTag : UInt8) : Nat :=
  if descriptorTag = 0x6a then 0x81 else descriptorTag.toNat * 256 + 0x06

/-- The subtitle entries of a DVB subtitling descriptor that ends at `stop`. -/
def parseDvbSub (stream pid stop : Nat) : Nat → Nat → PmtTables → Scan UInt8 PmtTables
  | 0, _, tables => pure tables
  | rounds + 1, pos, tables =>
      if pos + 8 ≤ stop ∧ tables.spuTracks.hasRoom then do
        let first ← Scan.fetch (stream + pos)
        let second ← Scan.fetch (stream + pos + 1)
        let third ← Scan.fetch (stream + pos + 2)
        let compPageId ← fetchWord (stream + pos + 4)
        let auxPageId ← fetchWord (stream + pos + 6)
        parseDvbSub stream pid stop rounds (pos + 8)
          (tables.addSpuTrack ⟨pid, [first, second, third, 0], compPageId, auxPageId⟩)
      else pure tables

/-- The descriptors of a private PES stream from `i` on, up to the first one
that makes the stream an audio track. -/
def parsePesPrivate (stream pid codedLength : Nat) :
    Nat → Nat → PmtTables → Scan UInt8 PmtTables
  | 0, _, tables => pure tables
  | rounds + 1, i, tables =>
      if i < codedLength then do
        let tag ← Scan.fetch (stream + i)
        match (if isAudioDescriptor tag then
            tables.addAudioTrack pid (descriptorToStreamType tag) else none) with
        | some tables => pure tables
        | none =>
            let length ← Scan.fetch (stream + i + 1)
            let tables ←
              if tag = 0x59 then
                parseDvbSub stream pid (i + 2 + length.toNat) length.toNat (i + 2) tables
              else pure tables
            parsePesPrivate stream pid codedLength rounds (i + (length.toNat + 2)) tables
      else pure tables

def parseOther (stream streamInfoLength pid : Nat) (streamType : UInt8) (tables : PmtTables) :
    Scan UInt8 PmtTables :=
  if tables.audioTracks.hasRoom ∧ 0x80 ≤ streamType then
    if tables.findAudioTrack pid then pure tables
    else do
      let formatIdentifier ← tsGetRegDesc (stream + 5) streamInfoLength
      if formatIdentifier = 0x41432d33 ∨ formatIdentifier = 0 then
        pure ((tables.addAudioTrack pid streamType.toNat).getD tables)
      else pure tables
  else pure tables

def parseStream (hdmvPmt : Bool) (stream streamInfoLength pid : Nat) (tables : PmtTables) :
    Scan UInt8 PmtTables := do
  let streamType ← Scan.fetch stream
  if streamType ∈ ([0x01, 0x02, 0x10, 0x1b, 0xea, 0x24] : List UInt8) then
    pure (if tables.videoPid = invalidPid then
      { tables with videoPid := pid, videoType := streamType.toNat } else tables)
  else if streamType ∈ ([0x03, 0x04, 0x0f, 0x11] : List UInt8) then
    pure ((tables.addAudioTrack pid streamType.toNat).getD tables)
  else if streamType ∈ ([0x05, 0x0c] : List UInt8) then
    pure tables
  else if streamType = 0x06 then
    parsePesPrivate stream pid (5 + streamInfoLength) streamInfoLength 5 tables
  else if streamType ∈ ([0x90, 0x91, 0x92] : List UInt8) ∧ hdmvPmt then
    pure tables
  else if streamType ∈ ([0x80, 0x82, 0x83, 0x84, 0x85, 0x86] : List UInt8) ∧ hdmvPmt then
    pure ((tables.addAudioTrack pid (0xff00 + streamType.toNat)).getD tables)
  else
    parseOther stream streamInfoLength pid streamType tables

/-- The elementary stream loop; `false` is an inconsistent stream info length. -/
def parseStreams (hdmvPmt : Bool) : Nat → Nat → Nat → PmtTables → Scan UInt8 (PmtTables × Bool)
  | 0, _, _, tables => pure (tables, true)
  | rounds + 1, stream, sectionLength, tables =>
      if 0 < sectionLength then do
        let pidWord ← fetchWord (stream + 1)
        let infoWord ← fetchWord (stream + 3)
        let codedLength := 5 + infoWord % 0x1000
        if sectionLength < codedLength then pure (tables, false)
        else do
          let tables ← parseStream hdmvPmt stream (infoWord % 0x1000) (pidWord % 0x2000) tables
          parseStreams hdmvPmt rounds (stream + codedLength) (sectionLength - codedLength) tables
      else pure (tables, true)

def parseSection (sectionLength : Nat) (tables : PmtTables) : Scan UInt8 (PmtTables × Bool) := do
  let infoWord ← fetchWord 10
  let programInfoLength := infoWord % 0x1000
  let programInfoFormatIdentifier ← tsGetRegDesc 12 programInfoLength
  let hdmvPmt := programInfoFormatIdentifier = 0x48444d56
  let codedLength := 13 + programInfoLength
  if sectionLength < codedLength then pure (tables.resetPids, false)
  else do
    let parsed ← parseStreams hdmvPmt (sectionLength - codedLength) (12 + programInfoLength)
      (sectionLength - codedLength) tables.resetPids
    if parsed.2 then do
      let pcrWord ← fetchWord 8
      pure ({ parsed.1 with pcrPid := pcrWord % 0x2000 }, true)
    else pure parsed

end Xineliboutput.Ts
