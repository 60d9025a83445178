import Xineliboutput.Foundation.FirstSeen
import Xineliboutput.Ts.PmtRejection

/-!
# Audio tracks of a program map

Which elementary streams of a section are audio is a matter of each stream alone. The table
holds the first of them for every PID, as far as it has room.
-/

namespace Xineliboutput.Ts

open Xineliboutput.Foundation

set_option autoImplicit false

/-! ## The streams of a section -/

structure EsDescriptor where
  tag : UInt8
  length : Nat
  /-- The first byte behind tag and length. -/
  start : Nat
deriving DecidableEq

structure EsStream where
  streamType : UInt8
  pid : Nat
  descriptors : List EsDescriptor

section Decoding

variable (bytes : Nat → UInt8)

/-- The descriptors from a position on, as many as begin before `stop`. -/
def descriptorsFrom (stop : Nat) : Nat → Nat → List EsDescriptor
  | 0, _ => []
  | rounds + 1, d =>
      if d < stop then
        ⟨bytes d, (bytes (d + 1)).toNat, d + 2⟩ ::
          descriptorsFrom stop rounds (d + 2 + (bytes (d + 1)).toNat)
      else []

/-- The streams from a position on, up to one that is longer than the section. -/
def esStreamsFrom : Nat → Nat → Nat → List EsStream
  | 0, _, _ => []
  | rounds + 1, stream, sectionLength =>
      let infoLength := word (bytes (stream + 3)) (bytes (stream + 4)) % 0x1000
      if sectionLength < 5 + infoLength ∨ sectionLength = 0 then []
      else
        { streamType := bytes stream
          pid := word (bytes (stream + 1)) (bytes (stream + 2)) % 0x2000
          descriptors := descriptorsFrom bytes (stream + 5 + infoLength) infoLength (stream + 5) } ::
        esStreamsFrom rounds (stream + (5 + infoLength)) (sectionLength - (5 + infoLength))

/-- The format identifier of the first registration descriptor. -/
def registration (descriptors : List EsDescriptor) : Nat :=
  match descriptors.find? fun descriptor => descriptor.tag = 5 ∧ 4 ≤ descriptor.length with
  | none => 0
  | some descriptor =>
      word (bytes descriptor.start) (bytes (descriptor.start + 1)) * 65536 +
        word (bytes (descriptor.start + 2)) (bytes (descriptor.start + 3))

def EsStream.audioType (stream : EsStream) (hdmv : Bool) : Option Nat :=
  if stream.streamType ∈ ([0x03, 0x04, 0x0f, 0x11] : List UInt8) then
    some stream.streamType.toNat
  else if stream.streamType = 0x06 then
    (stream.descriptors.find? fun descriptor => isAudioDescriptor descriptor.tag).map
      fun descriptor => descriptorToStreamType descriptor.tag
  else if stream.streamType ∈ ([0x80, 0x82, 0x83, 0x84, 0x85, 0x86] : List UInt8) ∧ hdmv then
    some (0xff00 + stream.streamType.toNat)
  else if stream.streamType = 0xea ∨
      stream.streamType ∈ ([0x90, 0x91, 0x92] : List UInt8) ∧ hdmv then none
  else if 0x80 ≤ stream.streamType ∧
      (registration bytes stream.descriptors = 0x41432d33 ∨
        registration bytes stream.descriptors = 0) then
    some stream.streamType.toNat
  else none

def EsStream.audioTrack (stream : EsStream) (hdmv : Bool) : Option AudioTrack :=
  (stream.audioType bytes hdmv).map fun type => ⟨stream.pid, type⟩

def audioStreams (sectionLength : Nat) : List AudioTrack :=
  let infoLength := word (bytes 10) (bytes 11) % 0x1000
  let hdmv := registration bytes (descriptorsFrom bytes (12 + infoLength) infoLength 12) = 0x48444d56
  (esStreamsFrom bytes (sectionLength - (13 + infoLength)) (12 + infoLength)
    (sectionLength - (13 + infoLength))).filterMap fun stream => stream.audioTrack bytes hdmv

end Decoding

/-! ## What a scan has read -/

section Reading

variable {memory : Memory UInt8} {bytes : Nat → UInt8}

theorem fetch_word_value (agrees : ∀ position byte, memory position = some byte →
      bytes position = byte) {position value : Nat}
    (ran : (fetchWord position).run memory = some value) :
    value = word (bytes position) (bytes (position + 1)) := by
  obtain ⟨high, first, ran⟩ := Option.bind_eq_some_iff.mp ran
  obtain ⟨low, second, ran⟩ := Option.bind_eq_some_iff.mp ran
  cases ran
  rw [agrees _ _ first, agrees _ _ second]

theorem reg_desc_value (agrees : ∀ position byte, memory position = some byte →
      bytes position = byte) {stop : Nat} (rounds : Nat) {d value : Nat}
    (ran : (regDescFrom stop rounds d).run memory = some value) :
    value = registration bytes (descriptorsFrom bytes stop rounds d) := by
  induction rounds generalizing d with
  | zero =>
      cases ran
      rfl
  | succ rounds ih =>
      rw [regDescFrom, Scan.run_ite] at ran
      rw [descriptorsFrom]
      by_cases before : d < stop
      · rw [if_pos before] at ran ⊢
        obtain ⟨tag, first, ran⟩ := Option.bind_eq_some_iff.mp ran
        obtain ⟨length, second, ran⟩ := Option.bind_eq_some_iff.mp ran
        rw [← agrees _ _ first, ← agrees _ _ second, Scan.run_ite] at ran
        by_cases found : bytes d = 5 ∧ 4 ≤ (bytes (d + 1)).toNat
        · have same : bytes d = 5 ∧ 4 ≤ bytes (d + 1) := ⟨found.1, UInt8.le_iff_toNat_le.mpr found.2⟩
          rw [if_pos same] at ran
          obtain ⟨high, upper, ran⟩ := Option.bind_eq_some_iff.mp ran
          obtain ⟨low, lower, ran⟩ := Option.bind_eq_some_iff.mp ran
          cases ran
          rw [fetch_word_value agrees upper, fetch_word_value agrees lower, registration,
            List.find?_cons_of_pos (by simpa using found)]
        · have other : ¬(bytes d = 5 ∧ 4 ≤ bytes (d + 1)) :=
            fun same => found ⟨same.1, UInt8.le_iff_toNat_le.mp same.2⟩
          rw [if_neg other] at ran
          rw [ih ran, registration, registration, List.find?_cons_of_neg (by simpa using found)]
      · rw [if_neg before] at ran ⊢
        cases ran
        rfl

end Reading

/-! ## The table -/

theorem room_and_new_iff {tables : PmtTables} (pid type : Nat) :
    (tables.audioTracks.hasRoom && !tables.findAudioTrack pid) = true ↔
      tables.audioTracks.entries.length < tsMaxTracks ∧
        ∀ other ∈ tables.audioTracks.entries, other.pid ≠ (⟨pid, type⟩ : AudioTrack).pid := by
  simp [TrackTable.hasRoom, PmtTables.findAudioTrack]

def PmtTables.withAudio (tables : PmtTables) (track : AudioTrack) : List AudioTrack :=
  collect AudioTrack.pid tsMaxTracks tables.audioTracks.entries track

theorem add_audio_some {tables grown : PmtTables} {pid type : Nat}
    (added : tables.addAudioTrack pid type = some grown) :
    grown.audioTracks.entries = tables.withAudio ⟨pid, type⟩ := by
  unfold PmtTables.addAudioTrack at added
  split at added
  · next fresh =>
      cases added
      have room := (room_and_new_iff pid type).mp fresh
      rw [PmtTables.withAudio, collect, if_pos room]
      change (tables.audioTracks.add ⟨pid, type⟩).entries = _
      rw [TrackTable.add, dif_pos room.1]
  · cases added

theorem add_audio_none {tables : PmtTables} {pid type : Nat}
    (refused : tables.addAudioTrack pid type = none) :
    tables.withAudio ⟨pid, type⟩ = tables.audioTracks.entries := by
  unfold PmtTables.addAudioTrack at refused
  split at refused
  · cases refused
  · next known =>
      rw [PmtTables.withAudio, collect, if_neg fun room => known ((room_and_new_iff pid type).mpr room)]

theorem with_audio_full {tables : PmtTables} (full : ¬tables.audioTracks.hasRoom = true)
    (track : AudioTrack) : tables.withAudio track = tables.audioTracks.entries := by
  rw [PmtTables.withAudio, collect, if_neg]
  intro room
  apply full
  simpa [TrackTable.hasRoom] using room.1

theorem with_audio_known {tables : PmtTables} {pid : Nat}
    (known : tables.findAudioTrack pid = true) (type : Nat) :
    tables.withAudio ⟨pid, type⟩ = tables.audioTracks.entries := by
  apply add_audio_none
  rw [PmtTables.addAudioTrack, known, if_neg]
  simp

theorem add_audio_or (tables : PmtTables) (pid type : Nat) :
    ((tables.addAudioTrack pid type).getD tables).audioTracks.entries =
      tables.withAudio ⟨pid, type⟩ := by
  cases added : tables.addAudioTrack pid type with
  | none => exact (add_audio_none added).symm
  | some grown => exact add_audio_some added

def PmtTables.withStream (tables : PmtTables) : Option AudioTrack → List AudioTrack
  | none => tables.audioTracks.entries
  | some track => tables.withAudio track

/-! ## One stream -/

section Streams

variable {memory : Memory UInt8} {bytes : Nat → UInt8}

theorem dvb_sub_audio {stream pid stop : Nat} (rounds : Nat) {pos : Nat}
    {tables parsed : PmtTables}
    (ran : (parseDvbSub stream pid stop rounds pos tables).run memory = some parsed) :
    parsed.audioTracks = tables.audioTracks := by
  induction rounds generalizing pos tables with
  | zero =>
      cases ran
      rfl
  | succ rounds ih =>
      rw [parseDvbSub, Scan.run_ite] at ran
      split at ran
      · simp only [Scan.run_bind, Option.bind_eq_some_iff] at ran
        obtain ⟨_, _, _, _, _, _, _, _, _, _, ran⟩ := ran
        have onward := ih ran
        exact onward
      · cases ran
        rfl

theorem with_stream_congr {tables grown : PmtTables} (same : grown.audioTracks = tables.audioTracks)
    (track : Option AudioTrack) : grown.withStream track = tables.withStream track := by
  cases track with
  | none => exact congrArg TrackTable.entries same
  | some track => rw [PmtTables.withStream, PmtTables.withStream, PmtTables.withAudio, same]; rfl

/-- The rest of a round goes on with the next descriptor and the same tracks. -/
theorem private_rest (agrees : ∀ position byte, memory position = some byte →
      bytes position = byte) {stream pid codedLength rounds i : Nat} {tag : UInt8}
    {tables parsed : PmtTables}
    (ran : (do
      let length ← Scan.fetch (stream + i + 1)
      let tables ←
        if tag = 0x59 then
          parseDvbSub stream pid (i + 2 + length.toNat) length.toNat (i + 2) tables
        else pure tables
      parsePesPrivate stream pid codedLength rounds (i + (length.toNat + 2)) tables
      : Scan UInt8 PmtTables).run memory = some parsed) :
    ∃ grown, grown.audioTracks = tables.audioTracks ∧
      (parsePesPrivate stream pid codedLength rounds (i + ((bytes (stream + i + 1)).toNat + 2))
        grown).run memory = some parsed := by
  obtain ⟨length, second, ran⟩ := Option.bind_eq_some_iff.mp ran
  cases agrees _ _ second
  dsimp only at ran
  rw [Scan.run_ite] at ran
  split at ran
  · obtain ⟨grown, subtitles, ran⟩ := Option.bind_eq_some_iff.mp ran
    exact ⟨grown, dvb_sub_audio _ subtitles, ran⟩
  · exact ⟨tables, rfl, ran⟩

/-- The first audio descriptor of a private stream makes it a track; where that is refused, all
others are too. -/
theorem pes_private_audio (agrees : ∀ position byte, memory position = some byte →
      bytes position = byte) {stream pid codedLength : Nat} (rounds : Nat) {i : Nat}
    {tables parsed : PmtTables}
    (ran : (parsePesPrivate stream pid codedLength rounds i tables).run memory = some parsed) :
    parsed.audioTracks.entries =
      tables.withStream (((descriptorsFrom bytes (stream + codedLength) rounds (stream + i)).find?
        fun descriptor => isAudioDescriptor descriptor.tag).map
          fun descriptor => ⟨pid, descriptorToStreamType descriptor.tag⟩) := by
  induction rounds generalizing i tables with
  | zero =>
      cases ran
      rfl
  | succ rounds ih =>
      rw [parsePesPrivate, Scan.run_ite] at ran
      rw [descriptorsFrom]
      have step : stream + i + 2 + (bytes (stream + i + 1)).toNat =
          stream + (i + ((bytes (stream + i + 1)).toNat + 2)) := by
        omega
      by_cases before : i < codedLength
      · rw [if_pos before] at ran
        rw [if_pos (Nat.add_lt_add_left before stream), step]
        obtain ⟨tag, first, ran⟩ := Option.bind_eq_some_iff.mp ran
        cases agrees _ _ first
        cases audio : isAudioDescriptor (bytes (stream + i)) with
        | true =>
            simp only [List.find?_cons, audio]
            simp only [audio, if_true] at ran
            cases added : tables.addAudioTrack pid (descriptorToStreamType (bytes (stream + i))) with
            | some grown =>
                rw [added] at ran
                cases ran
                exact add_audio_some added
            | none =>
                rw [added] at ran
                obtain ⟨grown, same, ran⟩ := private_rest agrees ran
                have refused := add_audio_none added
                rw [ih ran, with_stream_congr same]
                change _ = tables.withAudio _
                rw [refused]
                generalize List.find? _ _ = later
                cases later with
                | none => rfl
                | some other => exact collect_refused AudioTrack.pid refused rfl
        | false =>
            simp only [List.find?_cons, audio]
            simp only [audio, Bool.false_eq_true, if_false] at ran
            obtain ⟨grown, same, ran⟩ := private_rest agrees ran
            rw [ih ran, with_stream_congr same]
      · rw [if_neg before] at ran
        rw [if_neg (by omega)]
        cases ran
        rfl

theorem other_audio (agrees : ∀ position byte, memory position = some byte →
      bytes position = byte) {stream streamInfoLength pid : Nat} {streamType : UInt8}
    {tables parsed : PmtTables}
    (ran : (parseOther stream streamInfoLength pid streamType tables).run memory = some parsed) :
    parsed.audioTracks.entries =
      tables.withStream (if 0x80 ≤ streamType ∧
          (registration bytes (descriptorsFrom bytes (stream + 5 + streamInfoLength)
              streamInfoLength (stream + 5)) = 0x41432d33 ∨
            registration bytes (descriptorsFrom bytes (stream + 5 + streamInfoLength)
              streamInfoLength (stream + 5)) = 0)
        then some ⟨pid, streamType.toNat⟩ else none) := by
  unfold parseOther at ran
  rw [Scan.run_ite] at ran
  by_cases room : tables.audioTracks.hasRoom = true
  · by_cases high : 0x80 ≤ streamType
    · rw [if_pos ⟨room, high⟩, Scan.run_ite] at ran
      split at ran
      · next known =>
          cases ran
          split
          · exact (with_audio_known known _).symm
          · rfl
      · obtain ⟨identifier, found, ran⟩ := Option.bind_eq_some_iff.mp ran
        have same : identifier = registration bytes (descriptorsFrom bytes
            (stream + 5 + streamInfoLength) streamInfoLength (stream + 5)) :=
          reg_desc_value agrees _ found
        rw [Scan.run_ite, same] at ran
        split at ran
        · next audio =>
            cases ran
            rw [if_pos ⟨high, audio⟩]
            exact add_audio_or tables pid streamType.toNat
        · next silent =>
            cases ran
            rw [if_neg fun both => silent both.2]
            rfl
    · rw [if_neg fun both => high both.2] at ran
      cases ran
      rw [if_neg fun both => high both.1]
      rfl
  · rw [if_neg fun both => room both.1] at ran
    cases ran
    split
    · exact (with_audio_full room _).symm
    · rfl

theorem audio_type_silent {stream : EsStream} (hdmv : Bool)
    (silent : stream.streamType ∈
      ([0x01, 0x02, 0x10, 0x1b, 0xea, 0x24, 0x05, 0x0c] : List UInt8)) :
    stream.audioType bytes hdmv = none := by
  obtain ⟨streamType, pid, descriptors⟩ := stream
  simp only [List.mem_cons, List.not_mem_nil, or_false] at silent
  rcases silent with rfl | rfl | rfl | rfl | rfl | rfl | rfl | rfl <;>
    simp [EsStream.audioType]

theorem stream_audio (agrees : ∀ position byte, memory position = some byte →
      bytes position = byte) {hdmvPmt : Bool} {stream streamInfoLength pid : Nat}
    {tables parsed : PmtTables}
    (ran : (parseStream hdmvPmt stream streamInfoLength pid tables).run memory = some parsed) :
    parsed.audioTracks.entries =
      tables.withStream (EsStream.audioTrack bytes
        ⟨bytes stream, pid,
          descriptorsFrom bytes (stream + 5 + streamInfoLength) streamInfoLength (stream + 5)⟩
        hdmvPmt) := by
  obtain ⟨streamType, first, ran⟩ := Option.bind_eq_some_iff.mp ran
  cases agrees _ _ first
  dsimp only at ran
  rw [EsStream.audioTrack]
  rw [Scan.run_ite] at ran
  by_cases video : bytes stream ∈ ([0x01, 0x02, 0x10, 0x1b, 0xea, 0x24] : List UInt8)
  · rw [if_pos video] at ran
    rw [audio_type_silent hdmvPmt (List.mem_append_left [0x05, 0x0c] video)]
    cases ran
    split <;> rfl
  rw [if_neg video, Scan.run_ite] at ran
  by_cases audio : bytes stream ∈ ([0x03, 0x04, 0x0f, 0x11] : List UInt8)
  · rw [if_pos audio] at ran
    cases ran
    rw [add_audio_or, EsStream.audioType, if_pos audio]
    rfl
  rw [if_neg audio, Scan.run_ite] at ran
  by_cases other : bytes stream ∈ ([0x05, 0x0c] : List UInt8)
  · rw [if_pos other] at ran
    rw [audio_type_silent hdmvPmt
      (List.mem_append_right [0x01, 0x02, 0x10, 0x1b, 0xea, 0x24] other)]
    cases ran
    rfl
  rw [if_neg other, Scan.run_ite] at ran
  rw [EsStream.audioType, if_neg audio]
  by_cases private' : bytes stream = 0x06
  · rw [if_pos private'] at ran
    have found := pes_private_audio agrees _ ran
    rw [← Nat.add_assoc] at found
    rw [found, if_pos private', Option.map_map]
    rfl
  rw [if_neg private', Scan.run_ite] at ran
  rw [if_neg private']
  by_cases subtitles : bytes stream ∈ ([0x90, 0x91, 0x92] : List UInt8) ∧ hdmvPmt = true
  · rw [if_pos subtitles] at ran
    have apart : ∀ byte ∈ ([0x90, 0x91, 0x92] : List UInt8),
        byte ∉ ([0x80, 0x82, 0x83, 0x84, 0x85, 0x86] : List UInt8) := by
      simp
    cases ran
    rw [if_neg fun both => apart _ subtitles.1 both.1, if_pos (.inr subtitles)]
    rfl
  rw [if_neg subtitles, Scan.run_ite] at ran
  by_cases hdmv : bytes stream ∈ ([0x80, 0x82, 0x83, 0x84, 0x85, 0x86] : List UInt8) ∧
      hdmvPmt = true
  · rw [if_pos hdmv] at ran
    cases ran
    rw [add_audio_or, if_pos hdmv]
    rfl
  rw [if_neg hdmv] at ran
  have noVideo : bytes stream ≠ 0xea := by
    intro same
    apply video
    rw [same]
    decide
  rw [if_neg hdmv, if_neg fun either => either.elim noVideo subtitles, other_audio agrees ran]
  split <;> rfl

theorem streams_audio (agrees : ∀ position byte, memory position = some byte →
      bytes position = byte) {hdmvPmt : Bool} (rounds : Nat) {stream sectionLength : Nat}
    {tables parsed : PmtTables} {consistent : Bool}
    (ran : (parseStreams hdmvPmt rounds stream sectionLength tables).run memory =
      some (parsed, consistent)) :
    parsed.audioTracks.entries =
      ((esStreamsFrom bytes rounds stream sectionLength).filterMap fun stream =>
        stream.audioTrack bytes hdmvPmt).foldl (collect AudioTrack.pid tsMaxTracks)
          tables.audioTracks.entries := by
  induction rounds generalizing stream sectionLength tables with
  | zero =>
      cases ran
      rfl
  | succ rounds ih =>
      rw [parseStreams, Scan.run_ite] at ran
      rw [esStreamsFrom]
      by_cases more : 0 < sectionLength
      · rw [if_pos more] at ran
        obtain ⟨pidWord, pid, ran⟩ := Option.bind_eq_some_iff.mp ran
        obtain ⟨infoWord, info, ran⟩ := Option.bind_eq_some_iff.mp ran
        have pidSame : pidWord = word (bytes (stream + 1)) (bytes (stream + 2)) :=
          fetch_word_value agrees pid
        have infoSame : infoWord = word (bytes (stream + 3)) (bytes (stream + 4)) :=
          fetch_word_value agrees info
        subst pidSame infoSame
        dsimp only at ran
        rw [Scan.run_ite] at ran
        split at ran
        · next long =>
            cases ran
            rw [if_pos (.inl long)]
            rfl
        · next inside =>
            obtain ⟨grown, parsedStream, ran⟩ := Option.bind_eq_some_iff.mp ran
            have one := stream_audio agrees parsedStream
            rw [if_neg (by omega), List.filterMap_cons, ih ran, one]
            cases EsStream.audioTrack bytes _ hdmvPmt with
            | none => rfl
            | some track => rfl
      · rw [if_neg more] at ran
        cases ran
        rw [if_pos (.inr (by omega))]
        rfl

end Streams

/-! ## Calls -/

/-- What is read of `raw_pmt`. -/
def sectionBytes (rawPmt : Block UInt8 rawPmtSize) (position : Nat) : UInt8 :=
  (rawPmt.read position).getD 0

theorem section_bytes_agree {rawPmt : Block UInt8 rawPmtSize} (position : Nat) (byte : UInt8)
    (read : rawPmt.read position = some byte) : sectionBytes rawPmt position = byte := by
  rw [sectionBytes, read]
  rfl

def expectedTracks (rawPmt : Block UInt8 rawPmtSize) (sectionLength : Nat) : List AudioTrack :=
  (firstSeen AudioTrack.pid (audioStreams (sectionBytes rawPmt) sectionLength)).take tsMaxTracks

theorem section_audio {rawPmt : Block UInt8 rawPmtSize} {sectionLength : Nat}
    {tables parsed : PmtTables} {result : Bool}
    (ran : (parseSection sectionLength tables).run rawPmt.read = some (parsed, result)) :
    (result = false ∧ parsed.audioTracks.entries = []) ∨
      parsed.audioTracks.entries = expectedTracks rawPmt sectionLength := by
  obtain ⟨infoWord, info, ran⟩ := Option.bind_eq_some_iff.mp ran
  have infoSame := fetch_word_value section_bytes_agree info
  obtain ⟨identifier, found, ran⟩ := Option.bind_eq_some_iff.mp ran
  have program := reg_desc_value section_bytes_agree _ found
  dsimp only at ran
  rw [Scan.run_ite] at ran
  split at ran
  · cases ran
    exact .inl ⟨rfl, rfl⟩
  · obtain ⟨⟨grown, whole⟩, streams, ran⟩ := Option.bind_eq_some_iff.mp ran
    have tracks := streams_audio section_bytes_agree _ streams
    have same : parsed.audioTracks = grown.audioTracks := by
      rw [Scan.run_ite] at ran
      cases whole with
      | false =>
          cases ran
          rfl
      | true =>
          obtain ⟨pcrWord, _, ran⟩ := Option.bind_eq_some_iff.mp ran
          cases ran
          rfl
    right
    rw [same, tracks]
    change List.foldl _ [] _ = _
    rw [foldl_collect_nil, expectedTracks, audioStreams, ← infoSame, program]

theorem finish_section_audio {stored next : PmtData} {head : SectionHead} {result : Bool}
    (finishes : stored.finishSection head = some (next, result)) :
    (result = false ∧ next.tables = stored.tables) ∨
      (result = false ∧ next.tables.audioTracks.entries = []) ∨
        next.tables.audioTracks.entries = expectedTracks next.rawPmt head.sectionLength := by
  unfold PmtData.finishSection at finishes
  split at finishes
  · cases finishes
    exact .inl ⟨rfl, rfl⟩
  · split at finishes
    · cases finishes
      exact .inl ⟨rfl, rfl⟩
    · obtain ⟨crc32, _, finishes⟩ := Option.bind_eq_some_iff.mp finishes
      obtain ⟨data, _, finishes⟩ := Option.bind_eq_some_iff.mp finishes
      split at finishes
      · cases finishes
        exact .inl ⟨rfl, rfl⟩
      · split at finishes
        · cases finishes
          exact .inl ⟨rfl, rfl⟩
        · obtain ⟨parsed, ran, same⟩ := Option.bind_eq_some_iff.mp finishes
          cases same
          exact .inr (section_audio ran)

/-- A call leaves the tables, or those of the section in `raw_pmt`. -/
theorem call_audio {pmt next : PmtData} {call : PmtCall} {result : Bool}
    (ran : tsParsePmt pmt call.programNo call.pkt call.behind = some (next, result)) :
    (result = false ∧ next.tables = pmt.tables) ∨
      (result = false ∧ next.tables.audioTracks.entries = []) ∨
        ∃ head, pmt.head call.programNo call.pkt call.behind = some head ∧
          next.tables.audioTracks.entries = expectedTracks next.rawPmt head.sectionLength := by
  unfold tsParsePmt at ran
  cases known : pmt.head call.programNo call.pkt call.behind with
  | none =>
      rw [known] at ran
      cases ran
      exact .inl ⟨rfl, (restart_same_map pmt call.pkt).tables⟩
  | some head =>
      rw [known] at ran
      obtain ⟨stored, stores, finishes⟩ := Option.bind_eq_some_iff.mp ran
      have kept := (store_payload_same_map stores).tables.trans
        (restart_same_map pmt call.pkt).tables
      rcases finish_section_audio finishes with ⟨zero, same⟩ | ⟨zero, empty⟩ | tracks
      · exact .inl ⟨zero, same.trans kept⟩
      · exact .inr (.inl ⟨zero, empty⟩)
      · exact .inr (.inr ⟨head, rfl, tracks⟩)

def PmtTables.audioPids (tables : PmtTables) : List Nat :=
  tables.audioTracks.entries.map AudioTrack.pid

theorem expected_tracks_nodup (rawPmt : Block UInt8 rawPmtSize) (sectionLength : Nat) :
    ((expectedTracks rawPmt sectionLength).map AudioTrack.pid).Nodup :=
  (first_seen_nodup AudioTrack.pid _).sublist
    (List.Sublist.map AudioTrack.pid (List.take_sublist tsMaxTracks _))

theorem call_pids_nodup {pmt next : PmtData} {call : PmtCall} (called : pmt.call call = some next)
    (distinct : pmt.tables.audioPids.Nodup) : next.tables.audioPids.Nodup := by
  obtain ⟨⟨after, result⟩, ran, rfl⟩ := Option.map_eq_some_iff.mp called
  rcases call_audio ran with ⟨_, same⟩ | ⟨_, empty⟩ | ⟨head, _, tracks⟩
  · rw [same]
    exact distinct
  · rw [PmtTables.audioPids, empty]
    exact .nil
  · rw [PmtTables.audioPids, tracks]
    exact expected_tracks_nodup _ _

/-- The tables of a `pmt_data_t` that has gone through the calls. -/
structure TracksSound (pmt : PmtData) : Prop where
  audioCount : pmt.tables.audioTracks.entries.length ≤ tsMaxTracks
  spuCount : pmt.tables.spuTracks.entries.length ≤ tsMaxTracks
  distinct : pmt.tables.audioPids.Nodup

theorem calls_tracks_sound (calls : List PmtCall) {pmt : PmtData}
    (called : parseCalls calls = some pmt) : TracksSound pmt := by
  refine ⟨pmt.tables.audioTracks.bounded, pmt.tables.spuTracks.bounded, ?_⟩
  have kept := @Machine.follow_invariant PmtData PmtCall PmtData.call
    (fun pmt => pmt.tables.audioPids.Nodup) (fun _ _ => True) zeroedPmtData .nil
    (fun _ _ _ distinct _ called => call_pids_nodup called distinct) calls
    (fun _ _ _ _ _ _ => trivial) calls.length (Nat.le_refl _) pmt
  apply kept
  rw [List.take_length]
  exact called

/-- Every successful parse leaves the audio streams of its section in order of appearance. -/
theorem audio_tracks_first_seen (calls : List PmtCall) (pmt : PmtData)
    (called : parseCalls calls = some pmt) :
    TracksSound pmt ∧ ∀ (call : PmtCall) (next : PmtData),
      tsParsePmt pmt call.programNo call.pkt call.behind = some (next, true) →
      TracksSound next ∧ ∃ head, pmt.head call.programNo call.pkt call.behind = some head ∧
        next.tables.audioTracks.entries =
          (firstSeen AudioTrack.pid (audioStreams (sectionBytes next.rawPmt) head.sectionLength)).take
            tsMaxTracks := by
  refine ⟨calls_tracks_sound calls called, ?_⟩
  intro call next ran
  have onward : parseCalls (calls ++ [call]) = some next := by
    rw [parseCalls, Machine.follow_append, ← parseCalls, called, Option.bind_some, Machine.follow,
      PmtData.call, ran]
    rfl
  refine ⟨calls_tracks_sound _ onward, ?_⟩
  rcases call_audio ran with ⟨failed, _⟩ | ⟨failed, _⟩ | tracks
  · cases failed
  · cases failed
  · exact tracks

/-- A section with MPEG audio, AC3 and once more the PID of the first. -/
def threeStreamsCall : PmtCall where
  programNo := 1
  pkt := .startingWith [0x47, 0x40, 0x64, 0x10, 0, 0x02, 0xb0, 0x1e, 0x00, 0x01, 0xc1, 0x00, 0x00,
    0xe1, 0x00, 0xf0, 0x00, 0x04, 0xe1, 0x01, 0xf0, 0x00, 0x06, 0xe1, 0x02, 0xf0, 0x02, 0x6a, 0x00,
    0x03, 0xe1, 0x01, 0xf0, 0x00, 0x70, 0xb8, 0x3d, 0x39] 0xff
  behind _ := 0

theorem three_streams_two_tracks :
    ∃ next, tsParsePmt zeroedPmtData 1 threeStreamsCall.pkt (fun _ => 0) = some (next, true) ∧
      TracksSound next ∧ next.tables.audioTracks.entries = [⟨0x101, 0x04⟩, ⟨0x102, 0x81⟩] := by
  have parsed : (tsParsePmt zeroedPmtData 1 threeStreamsCall.pkt (fun _ => 0)).map
      (fun parsed => (parsed.1.tables.audioTracks.entries, parsed.2)) =
        some ([⟨0x101, 0x04⟩, ⟨0x102, 0x81⟩], true) := by
    decide +kernel
  obtain ⟨⟨next, result⟩, ran, same⟩ := Option.map_eq_some_iff.mp parsed
  obtain ⟨tracks, rfl⟩ := Prod.mk.inj same
  have onward := (audio_tracks_first_seen [] zeroedPmtData rfl).2 threeStreamsCall next ran
  exact ⟨next, ran, onward.1, tracks⟩

end Xineliboutput.Ts
