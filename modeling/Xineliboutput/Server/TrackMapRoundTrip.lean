import Xineliboutput.Client.TrackMaps
import Xineliboutput.Server.InfoTermination

/-!
# Round trip of track maps

The client's lines, read by the handler of the server, register the listed tracks with
their languages and select the current one. Only from the line without audio tracks the
handler reads a track that was not listed.
-/

namespace Xineliboutput.Server

open Xineliboutput.Foundation Xineliboutput.Client

set_option autoImplicit false

abbrev Track := Nat × List UInt8

def CleanLanguage (lang : List UInt8) : Prop :=
  ∀ byte ∈ lang, byte ≠ 32 ∧ byte ≠ 13 ∧ byte ≠ 10 ∧ byte ≠ 58

instance decidableCleanLanguage (lang : List UInt8) : Decidable (CleanLanguage lang) :=
  List.decidableBAll (fun byte => byte ≠ 32 ∧ byte ≠ 13 ∧ byte ≠ 10 ∧ byte ≠ 58) lang

/-- The tracks of the stream; one without a language gets its number for one. -/
def listedTracks (stream : StreamTracks) : List Track :=
  (List.range 32).filterMap fun i =>
    match stream.lang i with
    | some lang => some (i, lang)
    | none => if (i : Int) < stream.numTracks then some (i, decimal i) else none

def tracksText (current : Int) (tracks : List Track) : List UInt8 :=
  tracks.flatMap fun track => trackText (decide ((track.1 : Int) = current)) track.1 track.2

/-! ## Registering -/

def audioCalls (current : Int) (tracks : List Track) : List DeviceCall :=
  tracks.flatMap fun track =>
    .setAvailableTrack ttDolby track.1 (ttDolby + track.1) (trackLanguage track.1 track.2) ::
      if (track.1 : Int) = current then [.setCurrentAudioTrack (ttDolby + track.1)] else []

def spuCalls (tracks : List Track) : List DeviceCall :=
  tracks.map fun track =>
    .setAvailableTrack ttSubtitle track.1 (track.1 + 1) (trackLanguage track.1 track.2)

/-- The subtitle track to select: the current one if it is listed, else none or automatic. -/
def spuSelection (stream : StreamTracks) (spuChannelChosen : Int) : Int :=
  if ∃ track ∈ listedTracks stream, (track.1 : Int) = spuCurrent stream spuChannelChosen then
    spuCurrent stream spuChannelChosen
  else if stream.current = spuChannelNone then ttXSubtitleNone
  else ttXSubtitleAuto

/-- The line registers exactly the listed audio tracks and selects exactly the current one. -/
def AudioRoundTrip (stream : StreamTracks) : Prop :=
  ∃ line limit, audioLine stream = some line ∧ infoHandler limit (line.drop 5) =
    some (.clrAvailableTracks :: audioCalls stream.current (listedTracks stream))

def SpuRoundTrip (stream : StreamTracks) (spuChannelChosen : Int) : Prop :=
  ∃ line limit, spuLine stream spuChannelChosen = some line ∧ infoHandler limit (line.drop 5) =
    some (spuCalls (listedTracks stream) ++ [selectSubtitle (spuSelection stream spuChannelChosen)])

/-! ## Printing -/

/-- The languages are clean, and the text has room in the message. -/
structure Printable (stream : StreamTracks) (current : Int) (before : Nat) : Prop where
  clean : ∀ i lang, stream.lang i = some lang → CleanLanguage lang
  room : before + (tracksText current (listedTracks stream)).length < tracksSize - 32

theorem trim_clean {lang : List UInt8} (clean : CleanLanguage lang) : trimStr lang = lang := by
  unfold trimStr
  cases lang with
  | nil => rfl
  | cons byte lang =>
      obtain ⟨blank, cr, lf, -⟩ := clean byte List.mem_cons_self
      exact List.dropWhile_cons_of_neg (by simp [blank, cr, lf])

theorem language_clean {stream : StreamTracks}
    (clean : ∀ i lang, stream.lang i = some lang → CleanLanguage lang) (i : Nat) :
    (stream.language i).map (fun lang => (i, lang)) =
      match stream.lang i with
      | some lang => some (i, lang)
      | none => if (i : Int) < stream.numTracks then some (i, decimal i) else none := by
  unfold StreamTracks.language
  cases known : stream.lang i with
  | some lang => simp [trim_clean (clean i lang known)]
  | none =>
      dsimp only
      split <;> rfl

theorem print_tracks_all {stream : StreamTracks} {current : Int} (indices : List Nat)
    (tracks : TracksText) (whole : tracks.text.length = tracks.cnt)
    (room : tracks.cnt + (tracksText current (indices.filterMap fun i =>
      (stream.language i).map fun lang => (i, lang))).length < tracksSize - 32) :
    printTracks stream current indices tracks =
      ⟨tracks.text ++ tracksText current (indices.filterMap fun i =>
          (stream.language i).map fun lang => (i, lang)),
        tracks.cnt + (tracksText current (indices.filterMap fun i =>
          (stream.language i).map fun lang => (i, lang))).length⟩ := by
  induction indices generalizing tracks with
  | nil => simp [printTracks, tracksText]
  | cons i indices ih =>
      have going : tracks.cnt < tracksSize - 32 := by omega
      rw [printTracks, if_pos going]
      cases known : stream.language i with
      | none =>
          have skip : (i :: indices).filterMap (fun i => (stream.language i).map fun lang => (i, lang)) =
              indices.filterMap fun i => (stream.language i).map fun lang => (i, lang) := by
            simp [known]
          rw [skip] at room ⊢
          exact ih tracks whole room
      | some lang =>
          have next : tracksText current ((i :: indices).filterMap fun i =>
                (stream.language i).map fun lang => (i, lang)) =
              trackText (decide ((i : Int) = current)) i lang ++
                tracksText current (indices.filterMap fun i =>
                  (stream.language i).map fun lang => (i, lang)) := by
            simp [known, tracksText]
          rw [next, List.length_append] at room
          have fits : (trackText (decide ((i : Int) = current)) i lang).length ≤
              tracksSize - tracks.cnt - 32 - 1 := by omega
          have printed : tracks.print (trackText (decide ((i : Int) = current)) i lang) =
              ⟨tracks.text ++ trackText (decide ((i : Int) = current)) i lang,
                tracks.cnt + (trackText (decide ((i : Int) = current)) i lang).length⟩ := by
            rw [TracksText.print, List.take_of_length_le fits]
          rw [next]
          dsimp only
          rw [printed, ih _ (by rw [List.length_append, whole]) (by dsimp only; omega)]
          simp [Nat.add_assoc]

theorem listed_language {stream : StreamTracks}
    (clean : ∀ i lang, stream.lang i = some lang → CleanLanguage lang) :
    ((List.range 32).filterMap fun i => (stream.language i).map fun lang => (i, lang)) =
      listedTracks stream := by
  unfold listedTracks
  congr 1
  funext i
  exact language_clean clean i

theorem printed_line {stream : StreamTracks} {current : Int} {tracks : TracksText}
    (whole : tracks.text.length = tracks.cnt) (printable : Printable stream current tracks.cnt) :
    (printTracks stream current (List.range 32) tracks).finish =
      some (tracks.text ++ tracksText current (listedTracks stream) ++ [13, 10]) := by
  obtain ⟨clean, room⟩ := printable
  have listed := listed_language clean
  rw [← listed] at room ⊢
  rw [print_tracks_all _ tracks whole room]
  unfold TracksText.finish
  dsimp only
  rw [if_neg (by omega), if_pos (by rw [List.length_append, whole])]

/-! ## Reading -/

theorem decimal_plain (value : Nat) {byte : UInt8} (digital : isDigit byte = false) :
    ∀ other ∈ decimal value, notByte byte other = true := by
  intro other member
  apply not_byte_iff.mpr
  rintro rfl
  rw [decimal_digits value other member] at digital
  cases digital

theorem atoi_decimal {value : Nat} (small : value < 2 ^ 31) {byte : UInt8} (rest : List UInt8)
    (digital : isDigit byte = false) : atoi (decimal value ++ byte :: rest) = value := by
  unfold atoi
  rw [scan_integer_decimal value _ (scan_digits_stop value rest digital)]
  exact store_int_of_small value small

theorem keep_unbroken {byte : UInt8} {word rest : List UInt8}
    (unbroken : ∀ other ∈ word, notByte byte other = true) :
    (word ++ byte :: rest).takeWhile (notByte byte) = word := by
  rw [List.takeWhile_append_of_pos unbroken, List.takeWhile_cons_of_neg, List.append_nil]
  simp [notByte]

theorem take_entry_printed {i : Nat} (small : i < 2 ^ 31) {lang : List UInt8}
    (unbroken : ∀ byte ∈ lang, notByte 32 byte = true) (rest : List UInt8) :
    takeEntry (decimal i ++ 58 :: (lang ++ 32 :: rest)) = ⟨i, lang, rest⟩ := by
  unfold takeEntry
  dsimp only
  rw [drop_unbroken (decimal_plain i (by decide)), List.drop_succ_cons, List.drop_zero,
    keep_unbroken unbroken, drop_unbroken unbroken, List.drop_succ_cons, List.drop_zero,
    atoi_decimal small _ (by decide)]

/-- What a round finds at a printed entry: its star, and a digit behind it. -/
theorem entry_begins (starred : Bool) (i : Nat) (lang rest : List UInt8) :
    takeStar (skipBlanks (trackText starred i lang ++ rest)) =
        (starred, decimal i ++ 58 :: (lang ++ 32 :: rest)) ∧
      ∃ digit more, decimal i ++ 58 :: (lang ++ 32 :: rest) = digit :: more ∧
        isDigit digit = true := by
  obtain ⟨digit, more, shape, digital⟩ := decimal_head i
  have plain := digit_is digital
  have text : trackText starred i lang ++ rest =
      (if starred then [42] else []) ++ (decimal i ++ 58 :: (lang ++ 32 :: rest)) := by
    simp [trackText]
  refine ⟨?_, digit, more ++ 58 :: (lang ++ 32 :: rest), by rw [shape]; rfl, digital⟩
  rw [text, shape]
  cases starred with
  | true => rfl
  | false =>
      have blanks : skipBlanks (digit :: (more ++ 58 :: (lang ++ 32 :: rest))) =
          digit :: (more ++ 58 :: (lang ++ 32 :: rest)) :=
        List.dropWhile_cons_of_neg (by simpa using plain.1)
      have star : takeStar (digit :: (more ++ 58 :: (lang ++ 32 :: rest))) =
          (false, digit :: (more ++ 58 :: (lang ++ 32 :: rest))) := if_neg plain.2.1
      rw [if_neg Bool.false_ne_true, List.nil_append, List.cons_append, blanks, star]

theorem audio_round_entry {i : Nat} (small : i < 2 ^ 31) {lang : List UInt8}
    (unbroken : ∀ byte ∈ lang, notByte 32 byte = true) (starred : Bool) (rest : List UInt8)
    (currentTrack : Int) (calls : List DeviceCall) :
    audioRound ⟨trackText starred i lang ++ rest, currentTrack, calls⟩ =
      ⟨rest, currentTrack, calls ++
        .setAvailableTrack ttDolby i (ttDolby + i) (trackLanguage i lang) ::
          if starred then [.setCurrentAudioTrack (ttDolby + i)] else []⟩ := by
  unfold audioRound
  dsimp only
  rw [(entry_begins starred i lang rest).1]
  dsimp only
  rw [take_entry_printed small unbroken]

theorem spu_round_entry {i : Nat} (small : i < 2 ^ 31) {lang : List UInt8}
    (unbroken : ∀ byte ∈ lang, notByte 32 byte = true) (starred : Bool) (rest : List UInt8)
    (currentTrack : Int) (calls : List DeviceCall) :
    spuRound ⟨trackText starred i lang ++ rest, currentTrack, calls⟩ =
      ⟨rest, if starred then i else currentTrack, calls ++
        [.setAvailableTrack ttSubtitle i (i + 1) (trackLanguage i lang)]⟩ := by
  obtain ⟨begins, digit, more, shape, digital⟩ := entry_begins starred i lang rest
  unfold spuRound
  dsimp only
  rw [begins]
  dsimp only
  have head : (decimal i ++ 58 :: (lang ++ 32 :: rest)).head? = some digit := by rw [shape]; rfl
  have dash : ¬(starred = true ∧ some digit = some 45) := by
    rintro ⟨-, same⟩
    exact (digit_is digital).2.2.1 (Option.some.inj same)
  rw [head, if_neg dash, Option.any_some, if_pos digital, take_entry_printed small unbroken]

theorem round_skips_blank (map : List UInt8) (currentTrack : Int) (calls : List DeviceCall) :
    audioRound ⟨32 :: map, currentTrack, calls⟩ = audioRound ⟨map, currentTrack, calls⟩ ∧
      spuRound ⟨32 :: map, currentTrack, calls⟩ = spuRound ⟨map, currentTrack, calls⟩ :=
  ⟨rfl, rfl⟩

/-! ## Loops over printed entries -/

def Readable (tracks : List Track) : Prop :=
  ∀ track ∈ tracks, track.1 < 2 ^ 31 ∧ ∀ byte ∈ track.2, notByte 32 byte = true

theorem track_text_ne_nil (starred : Bool) (i : Nat) (lang rest : List UInt8) :
    trackText starred i lang ++ rest ≠ [] := by
  simp [trackText]

theorem tracks_text_cons (current : Int) (track : Track) (tracks : List Track) :
    tracksText current (track :: tracks) =
      trackText (decide ((track.1 : Int) = current)) track.1 track.2 ++ tracksText current tracks :=
  List.flatMap_cons

theorem audio_loop_reads {current currentTrack : Int} {tracks : List Track}
    (readable : Readable tracks) {limit : Nat} (enough : tracks.length ≤ limit)
    (calls : List DeviceCall) :
    whileWithin TrackLoop.goesOn audioRound limit ⟨tracksText current tracks, currentTrack, calls⟩ =
      some ⟨[], currentTrack, calls ++ audioCalls current tracks⟩ := by
  induction tracks generalizing limit calls with
  | nil =>
      rw [audioCalls, List.flatMap_nil, List.append_nil]
      exact while_within_done _ _ rfl
  | cons track tracks ih =>
      obtain ⟨small, unbroken⟩ := readable track List.mem_cons_self
      cases limit with
      | zero => cases enough
      | succ limit =>
          have goes : TrackLoop.goesOn
              ⟨trackText (decide ((track.1 : Int) = current)) track.1 track.2 ++
                tracksText current tracks, currentTrack, calls⟩ = true :=
            (goes_on_iff _).mpr (track_text_ne_nil _ _ _ _)
          rw [tracks_text_cons, whileWithin, if_pos goes, audio_round_entry small unbroken,
            ih (fun other member => readable other (List.mem_cons_of_mem _ member))
              (Nat.le_of_succ_le_succ enough)]
          simp [audioCalls]

/-- The track the loop of `TRACKMAP SPU` ends with. -/
def chosenTrack (current : Int) (tracks : List Track) (before : Int) : Int :=
  tracks.foldl (fun chosen track => if (track.1 : Int) = current then (track.1 : Int) else chosen) before

theorem chosen_track_eq (current : Int) (tracks : List Track) (before : Int) :
    chosenTrack current tracks before =
      if ∃ track ∈ tracks, (track.1 : Int) = current then current else before := by
  unfold chosenTrack
  induction tracks generalizing before with
  | nil => simp
  | cons track tracks ih =>
      rw [List.foldl_cons, ih]
      simp only [List.exists_mem_cons_iff]
      by_cases same : (track.1 : Int) = current
      · simp [same]
      · simp only [same, if_false, false_or]

theorem spu_loop_reads {current currentTrack : Int} {tracks : List Track}
    (readable : Readable tracks) {limit : Nat} (enough : tracks.length ≤ limit)
    (calls : List DeviceCall) :
    whileWithin TrackLoop.goesOn spuRound limit ⟨tracksText current tracks, currentTrack, calls⟩ =
      some ⟨[], chosenTrack current tracks currentTrack, calls ++ spuCalls tracks⟩ := by
  induction tracks generalizing limit currentTrack calls with
  | nil =>
      rw [spuCalls, List.map_nil, List.append_nil]
      exact while_within_done _ _ rfl
  | cons track tracks ih =>
      obtain ⟨small, unbroken⟩ := readable track List.mem_cons_self
      cases limit with
      | zero => cases enough
      | succ limit =>
          have goes : TrackLoop.goesOn
              ⟨trackText (decide ((track.1 : Int) = current)) track.1 track.2 ++
                tracksText current tracks, currentTrack, calls⟩ = true :=
            (goes_on_iff _).mpr (track_text_ne_nil _ _ _ _)
          rw [tracks_text_cons, whileWithin, if_pos goes, spu_round_entry small unbroken,
            ih (fun other member => readable other (List.mem_cons_of_mem _ member))
              (Nat.le_of_succ_le_succ enough)]
          simp [spuCalls, chosenTrack]

theorem spu_loop_reads_blank {current currentTrack : Int} {tracks : List Track}
    (readable : Readable tracks) (calls : List DeviceCall) :
    whileWithin TrackLoop.goesOn spuRound (tracks.length + 1)
        ⟨32 :: tracksText current tracks, currentTrack, calls⟩ =
      some ⟨[], chosenTrack current tracks currentTrack, calls ++ spuCalls tracks⟩ := by
  have goes : TrackLoop.goesOn ⟨32 :: tracksText current tracks, currentTrack, calls⟩ = true := rfl
  rw [whileWithin, if_pos goes, (round_skips_blank _ _ _).2]
  cases tracks with
  | nil => exact spu_loop_reads readable (Nat.zero_le 0) calls
  | cons track tracks =>
      have whole := @spu_loop_reads current currentTrack _ readable _ (Nat.le_succ _) calls
      have onward : TrackLoop.goesOn ⟨tracksText current (track :: tracks), currentTrack, calls⟩ =
          true := by
        rw [goes_on_iff, tracks_text_cons]
        exact track_text_ne_nil _ _ _ _
      rw [whileWithin, if_pos onward] at whole
      exact whole

theorem audio_loop_reads_blank {current currentTrack : Int} {tracks : List Track}
    (readable : Readable tracks) (some_listed : tracks ≠ []) (calls : List DeviceCall) :
    whileWithin TrackLoop.goesOn audioRound (tracks.length + 1)
        ⟨32 :: tracksText current tracks, currentTrack, calls⟩ =
      some ⟨[], currentTrack, calls ++ audioCalls current tracks⟩ := by
  have goes : TrackLoop.goesOn ⟨32 :: tracksText current tracks, currentTrack, calls⟩ = true := rfl
  rw [whileWithin, if_pos goes, (round_skips_blank _ _ _).1]
  cases tracks with
  | nil => exact absurd rfl some_listed
  | cons track tracks =>
      have whole := @audio_loop_reads current currentTrack _ readable _ (Nat.le_succ _) calls
      have onward : TrackLoop.goesOn ⟨tracksText current (track :: tracks), currentTrack, calls⟩ =
          true := by
        rw [goes_on_iff, tracks_text_cons]
        exact track_text_ne_nil _ _ _ _
      rw [whileWithin, if_pos onward] at whole
      exact whole

/-- Without an entry the loop of `TRACKMAP AUDIO` registers track 0. -/
theorem audio_loop_invents {limit : Nat} {currentTrack : Int} {calls : List DeviceCall}
    {final : TrackLoop}
    (ends : whileWithin TrackLoop.goesOn audioRound limit ⟨[32], currentTrack, calls⟩ = some final) :
    final.calls = calls ++ [.setAvailableTrack ttDolby 0 ttDolby (trackLanguage 0 [])] := by
  cases limit with
  | zero => cases ends
  | succ limit =>
      have done : whileWithin TrackLoop.goesOn audioRound (limit + 1) ⟨[32], currentTrack, calls⟩ =
          some (audioRound ⟨[32], currentTrack, calls⟩) := while_within_done _ limit rfl
      rw [done] at ends
      cases ends
      rfl

/-! ## Messages -/

theorem track_text_plain {starred : Bool} {i : Nat} {lang : List UInt8}
    (plain : ∀ byte ∈ lang, notByte 13 byte = true) :
    ∀ byte ∈ trackText starred i lang, notByte 13 byte = true := by
  intro byte member
  simp only [trackText, List.mem_append, List.mem_cons, List.not_mem_nil, or_false] at member
  rcases member with star | digits | rfl | inside | rfl
  · cases starred with
    | true =>
        rw [if_pos rfl, List.mem_singleton] at star
        rw [star]
        rfl
    | false => cases star
  · exact decimal_plain i (by decide) byte digits
  · rfl
  · exact plain byte inside
  · rfl

theorem listed_spec {stream : StreamTracks}
    (clean : ∀ i lang, stream.lang i = some lang → CleanLanguage lang) :
    ∀ track ∈ listedTracks stream, track.1 < 32 ∧
      (∀ byte ∈ track.2, notByte 32 byte = true) ∧ ∀ byte ∈ track.2, notByte 13 byte = true := by
  rintro ⟨i, lang⟩ member
  obtain ⟨index, inside, found⟩ := List.mem_filterMap.mp member
  have below := List.mem_range.mp inside
  cases known : stream.lang index with
  | some own =>
      rw [known] at found
      cases found
      refine ⟨below, ?_, ?_⟩
      · intro byte within
        exact not_byte_iff.mpr (clean i lang known byte within).1
      · intro byte within
        exact not_byte_iff.mpr (clean i lang known byte within).2.1
  | none =>
      rw [known] at found
      dsimp only at found
      split at found
      · cases found
        exact ⟨below, decimal_plain i (by decide), decimal_plain i (by decide)⟩
      · cases found

theorem listed_readable {stream : StreamTracks}
    (clean : ∀ i lang, stream.lang i = some lang → CleanLanguage lang) :
    Readable (listedTracks stream) := by
  intro track member
  obtain ⟨below, unbroken, -⟩ := listed_spec clean track member
  exact ⟨Nat.lt_trans below (by decide), unbroken⟩

theorem tracks_text_plain {stream : StreamTracks} (current : Int)
    (clean : ∀ i lang, stream.lang i = some lang → CleanLanguage lang) :
    ∀ byte ∈ tracksText current (listedTracks stream), notByte 13 byte = true := by
  intro byte member
  obtain ⟨track, listed, inside⟩ := List.mem_flatMap.mp member
  exact track_text_plain (listed_spec clean track listed).2.2 byte inside

theorem info_handler_audio (limit : Nat) {text : List UInt8}
    (plain : ∀ byte ∈ text, notByte 13 byte = true) :
    infoHandler limit ((ascii "INFO TRACKMAP AUDIO ".toList ++ text ++ [13, 10]).drop 5) =
      (whileWithin TrackLoop.goesOn audioRound limit
        ⟨32 :: text, ttXSubtitleAuto, [.clrAvailableTracks]⟩).map TrackLoop.calls := by
  have info : (ascii "INFO TRACKMAP AUDIO ".toList ++ text ++ [13, 10]).drop 5 =
      (ascii "TRACKMAP AUDIO ".toList ++ text) ++ 13 :: [10] := rfl
  have word : ∀ byte ∈ ascii "TRACKMAP AUDIO ".toList, notByte 13 byte = true :=
    List.all_eq_true.mp (by decide)
  have whole : ∀ byte ∈ ascii "TRACKMAP AUDIO ".toList ++ text, notByte 13 byte = true :=
    List.forall_mem_append.mpr ⟨word, plain⟩
  unfold infoHandler
  rw [info, keep_unbroken whole]
  rfl

theorem info_handler_spu (limit : Nat) {text : List UInt8}
    (plain : ∀ byte ∈ text, notByte 13 byte = true) :
    infoHandler limit ((ascii "INFO TRACKMAP SPU ".toList ++ text ++ [13, 10]).drop 5) =
      (whileWithin TrackLoop.goesOn spuRound limit ⟨32 :: text, ttXSubtitleAuto, []⟩).map
        fun loop => loop.calls ++ [selectSubtitle loop.currentTrack] := by
  have info : (ascii "INFO TRACKMAP SPU ".toList ++ text ++ [13, 10]).drop 5 =
      (ascii "TRACKMAP SPU ".toList ++ text) ++ 13 :: [10] := rfl
  have word : ∀ byte ∈ ascii "TRACKMAP SPU ".toList, notByte 13 byte = true :=
    List.all_eq_true.mp (by decide)
  have whole : ∀ byte ∈ ascii "TRACKMAP SPU ".toList ++ text, notByte 13 byte = true :=
    List.forall_mem_append.mpr ⟨word, plain⟩
  unfold infoHandler
  rw [info, keep_unbroken whole]
  rfl

theorem audio_round_trip {stream : StreamTracks} (printable : Printable stream stream.current 20) :
    AudioRoundTrip stream ↔ listedTracks stream ≠ [] := by
  have line : audioLine stream = some (ascii "INFO TRACKMAP AUDIO ".toList ++
      tracksText stream.current (listedTracks stream) ++ [13, 10]) := printed_line rfl printable
  have plain := tracks_text_plain stream.current printable.clean
  constructor
  · rintro ⟨_, limit, same, handled⟩ nothing
    rw [line] at same
    cases same
    rw [info_handler_audio limit plain, nothing] at handled
    obtain ⟨final, ends, calls⟩ := Option.map_eq_some_iff.mp handled
    have invented := audio_loop_invents ends
    rw [calls] at invented
    cases invented
  · intro some_listed
    refine ⟨_, (listedTracks stream).length + 1, line, ?_⟩
    rw [info_handler_audio _ plain,
      audio_loop_reads_blank (listed_readable printable.clean) some_listed]
    rfl

theorem spu_round_choice (current : Int) (listed : current = -1 ∨ current = -2) (text : List UInt8)
    (currentTrack : Int) (calls : List DeviceCall) :
    spuRound ⟨32 :: (choiceText current ++ text), currentTrack, calls⟩ =
      ⟨32 :: text, current, calls⟩ := by
  rcases listed with rfl | rfl <;> rfl

theorem choice_text_plain (current : Int) (listed : current = -1 ∨ current = -2) :
    ∀ byte ∈ choiceText current, notByte 13 byte = true := by
  rcases listed with rfl | rfl <;> exact List.all_eq_true.mp (by decide)

theorem spu_loop_reads_choice {current chosen currentTrack : Int} {tracks : List Track}
    (readable : Readable tracks) (listed : chosen = -1 ∨ chosen = -2) (calls : List DeviceCall) :
    whileWithin TrackLoop.goesOn spuRound (tracks.length + 2)
        ⟨32 :: (choiceText chosen ++ tracksText current tracks), currentTrack, calls⟩ =
      some ⟨[], chosenTrack current tracks chosen, calls ++ spuCalls tracks⟩ := by
  have goes : TrackLoop.goesOn
      ⟨32 :: (choiceText chosen ++ tracksText current tracks), currentTrack, calls⟩ = true := rfl
  rw [whileWithin, if_pos goes, spu_round_choice chosen listed]
  exact spu_loop_reads_blank readable calls

def spuBefore (stream : StreamTracks) : Nat :=
  18 + if stream.current < 0 then (choiceText stream.current).length else 0

theorem spu_round_trip {stream : StreamTracks} {spuChannelChosen : Int}
    (known : -2 ≤ stream.current)
    (printable : Printable stream (spuCurrent stream spuChannelChosen) (spuBefore stream)) :
    SpuRoundTrip stream spuChannelChosen := by
  have readable := listed_readable printable.clean
  have plain := tracks_text_plain (spuCurrent stream spuChannelChosen) printable.clean
  unfold SpuRoundTrip spuLine spuSelection
  dsimp only
  by_cases choice : stream.current < 0
  · have listed : stream.current = -1 ∨ stream.current = -2 := by omega
    have short : (choiceText stream.current).length ≤ tracksSize - 18 - 32 - 1 := by
      rcases listed with same | same <;> rw [same] <;> decide
    have printed : (TracksText.new (ascii "INFO TRACKMAP SPU ".toList)).print
        (choiceText stream.current) =
          ⟨ascii "INFO TRACKMAP SPU ".toList ++ choiceText stream.current, spuBefore stream⟩ := by
      rw [TracksText.print, spuBefore, if_pos choice]
      congr 2
      exact List.take_of_length_le short
    have whole : (ascii "INFO TRACKMAP SPU ".toList ++ choiceText stream.current).length =
        spuBefore stream := by
      rw [List.length_append, spuBefore, if_pos choice]
      rfl
    rw [if_pos choice, printed, printed_line whole printable]
    refine ⟨_, (listedTracks stream).length + 2, rfl, ?_⟩
    have text : ∀ byte ∈ choiceText stream.current ++
        tracksText (spuCurrent stream spuChannelChosen) (listedTracks stream),
        notByte 13 byte = true :=
      List.forall_mem_append.mpr ⟨choice_text_plain _ listed, plain⟩
    dsimp only
    rw [List.append_assoc (ascii _), info_handler_spu _ text,
      spu_loop_reads_choice readable listed, chosen_track_eq]
    have selected : (if stream.current = spuChannelNone then ttXSubtitleNone else ttXSubtitleAuto) =
        stream.current := by
      rcases listed with same | same <;> rw [same] <;> rfl
    rw [selected]
    rfl
  · have whole : (ascii "INFO TRACKMAP SPU ".toList).length = spuBefore stream := by
      rw [spuBefore, if_neg choice]
      rfl
    have begun : TracksText.new (ascii "INFO TRACKMAP SPU ".toList) =
        ⟨ascii "INFO TRACKMAP SPU ".toList, spuBefore stream⟩ := by
      rw [← whole]
      rfl
    rw [if_neg choice, begun, printed_line whole printable]
    refine ⟨_, (listedTracks stream).length + 1, rfl, ?_⟩
    dsimp only
    rw [info_handler_spu _ plain, spu_loop_reads_blank readable, chosen_track_eq]
    have selected : (if stream.current = spuChannelNone then ttXSubtitleNone else ttXSubtitleAuto) =
        ttXSubtitleAuto := by
      apply if_neg
      intro same
      rw [same] at choice
      exact choice (by decide)
    rw [selected]
    rfl

/-- The two lines are read back exactly if there is an audio track. -/
theorem track_maps_round_trip_iff {audio spu : StreamTracks} {spuChannelChosen : Int}
    (audioPrintable : Printable audio audio.current 20) (known : -2 ≤ spu.current)
    (spuPrintable : Printable spu (spuCurrent spu spuChannelChosen) (spuBefore spu)) :
    AudioRoundTrip audio ∧ SpuRoundTrip spu spuChannelChosen ↔ listedTracks audio ≠ [] := by
  rw [audio_round_trip audioPrintable]
  constructor
  · exact And.left
  · intro some_listed
    exact ⟨some_listed, spu_round_trip known spuPrintable⟩

def twoLanguages : StreamTracks where
  numTracks := 0
  lang i := if i = 0 then some (ascii "en".toList) else if i = 3 then some (ascii "fin".toList) else none
  current := 3

def automaticSubtitle : StreamTracks where
  numTracks := 2
  lang _ := none
  current := -1

theorem two_languages_clean (i : Nat) (lang : List UInt8) (known : twoLanguages.lang i = some lang) :
    CleanLanguage lang := by
  simp only [twoLanguages] at known
  split at known
  · cases known
    decide
  · split at known
    · cases known
      decide
    · cases known

theorem track_maps_round_trip_iff_two_languages :
    AudioRoundTrip twoLanguages ∧ SpuRoundTrip automaticSubtitle 1 := by
  have audioPrintable : Printable twoLanguages twoLanguages.current 20 :=
    ⟨two_languages_clean, by decide⟩
  have spuPrintable : Printable automaticSubtitle (spuCurrent automaticSubtitle 1)
      (spuBefore automaticSubtitle) := by
    refine ⟨?_, by decide⟩
    intro i lang known
    cases known
  exact (track_maps_round_trip_iff audioPrintable (by decide) spuPrintable).mpr (by decide)

/-- The message without a track registers track 0. -/
theorem no_audio_track_invents_one :
    ¬AudioRoundTrip { numTracks := 0, lang := fun _ => none, current := -1 } := by
  rintro ⟨line, limit, printed, handled⟩
  cases printed
  obtain ⟨final, ends, calls⟩ := Option.map_eq_some_iff.mp handled
  have invented := audio_loop_invents ends
  rw [calls] at invented
  revert invented
  decide

end Xineliboutput.Server
