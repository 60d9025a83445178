import Xineliboutput.Foundation.DecimalText

/-!
# Track maps

The messages of `slave_track_maps_changed` in `xine_input_vdr.c`. What xine tells about
the tracks of the slave stream is given; the title of a DVD is another message.
-/

namespace Xineliboutput.Client

open Xineliboutput.Foundation

set_option autoImplicit false

abbrev spuChannelNone : Int := -2
abbrev spuChannelAuto : Int := -1

/-- `sizeof(tracks)` -/
abbrev tracksSize : Nat := 1024

/-- The channels of one kind: how many there are, the language of each where it has one,
and the current channel. -/
structure StreamTracks where
  numTracks : Int
  lang : Nat → Option (List UInt8)
  current : Int

/-- `trim_str` -/
def trimStr (text : List UInt8) : List UInt8 :=
  text.dropWhile fun byte => byte == 32 || byte == 13 || byte == 10

def StreamTracks.language (tracks : StreamTracks) (i : Nat) : Option (List UInt8) :=
  match tracks.lang i with
  | some lang => some (trimStr lang)
  | none => if (i : Int) < tracks.numTracks then some (decimal i) else none

/-- `"%s%d:%s "` -/
def trackText (starred : Bool) (i : Nat) (lang : List UInt8) : List UInt8 :=
  (if starred then [42] else []) ++ (decimal i ++ 58 :: (lang ++ [32]))

/-- The text in `tracks`, and `cnt`. -/
structure TracksText where
  text : List UInt8
  cnt : Nat

def TracksText.new (word : List UInt8) : TracksText := ⟨word, word.length⟩

/-- `snprintf(tracks+cnt, sizeof(tracks)-cnt-32, ...)`, which cuts what has no room but
answers its whole length. -/
def TracksText.print (tracks : TracksText) (entry : List UInt8) : TracksText where
  text := tracks.text ++ entry.take (tracksSize - tracks.cnt - 32 - 1)
  cnt := tracks.cnt + entry.length

def printTracks (stream : StreamTracks) (current : Int) : List Nat → TracksText → TracksText
  | [], tracks => tracks
  | i :: rest, tracks =>
      if tracks.cnt < tracksSize - 32 then
        match stream.language i with
        | some lang => printTracks stream current rest
            (tracks.print (trackText (decide ((i : Int) = current)) i lang))
        | none => printTracks stream current rest tracks
      else tracks

/-- `strcpy(tracks + cnt, "\r\n")` behind the text, behind its end where it was cut, or, as
`none`, outside of `tracks`. -/
def TracksText.finish (tracks : TracksText) : Option (List UInt8) :=
  if tracksSize < tracks.cnt + 3 then none
  else if tracks.text.length = tracks.cnt then some (tracks.text ++ [13, 10])
  else some tracks.text

def audioLine (stream : StreamTracks) : Option (List UInt8) :=
  (printTracks stream stream.current (List.range 32)
    (.new (ascii "INFO TRACKMAP AUDIO ".toList))).finish

/-- `"*%d:%s "` for a channel below 0. -/
def choiceText (current : Int) : List UInt8 :=
  42 :: 45 :: (decimal current.natAbs ++
    58 :: (ascii (if current = spuChannelNone then "none" else "auto").toList ++ [32]))

/-- The channel that is starred: in automatic mode the one that was chosen. -/
def spuCurrent (stream : StreamTracks) (spuChannelChosen : Int) : Int :=
  if stream.current = spuChannelAuto then spuChannelChosen else stream.current

def spuLine (stream : StreamTracks) (spuChannelChosen : Int) : Option (List UInt8) :=
  let tracks := TracksText.new (ascii "INFO TRACKMAP SPU ".toList)
  let tracks := if stream.current < 0 then tracks.print (choiceText stream.current) else tracks
  (printTracks stream (spuCurrent stream spuChannelChosen) (List.range 32) tracks).finish

end Xineliboutput.Client

/-!
# Bounds of track maps

`snprintf` answers the length it would need, and `cnt` becomes the place of the last `strcpy`.
A message is whole exactly where nothing is cut.
-/

namespace Xineliboutput.Client

open Xineliboutput.Foundation

set_option autoImplicit false

abbrev tracksLimit : Nat := tracksSize - 32

def printEntries : List (List UInt8) → TracksText → TracksText
  | [], tracks => tracks
  | entry :: entries, tracks =>
      if tracks.cnt < tracksLimit then printEntries entries (tracks.print entry) else tracks

def channelEntries (stream : StreamTracks) (current : Int) (channels : List Nat) :
    List (List UInt8) :=
  channels.filterMap fun i =>
    (stream.language i).map (trackText (decide ((i : Int) = current)) i)

theorem print_entries_full (entries : List (List UInt8)) {tracks : TracksText}
    (full : tracksLimit ≤ tracks.cnt) : printEntries entries tracks = tracks := by
  cases entries with
  | nil => rfl
  | cons entry entries => exact if_neg (Nat.not_lt.mpr full)

theorem print_tracks_entries (stream : StreamTracks) (current : Int) (channels : List Nat)
    (tracks : TracksText) :
    printTracks stream current channels tracks =
      printEntries (channelEntries stream current channels) tracks := by
  induction channels generalizing tracks with
  | nil => rfl
  | cons i channels following =>
      rw [printTracks]
      by_cases room : tracks.cnt < tracksSize - 32
      · rw [if_pos room, channelEntries]
        cases known : stream.language i with
        | none =>
            rw [List.filterMap_cons_none (by rw [known]; rfl)]
            exact following tracks
        | some lang =>
            rw [List.filterMap_cons_some (by rw [known]; rfl), printEntries, if_pos room]
            exact following _
      · rw [if_neg room, print_entries_full _ (Nat.not_lt.mp room)]

/-! ## Whole messages -/

/-- The message is a word, some of the entries from the first on and CR LF. -/
def WholeMessage (word : List UInt8) (entries : List (List UInt8)) (line : Option (List UInt8)) :
    Prop :=
  ∃ count, line = some (word ++ (entries.take count).flatten ++ [13, 10])

def Marked (entry : List UInt8) : Prop := ∃ byte rest, entry = byte :: rest ∧ byte ≠ 13

theorem print_entries_fit (entries : List (List UInt8)) {tracks : TracksText}
    (whole : tracks.text.length = tracks.cnt)
    (room : tracks.cnt + entries.flatten.length < tracksLimit) :
    printEntries entries tracks =
      ⟨tracks.text ++ entries.flatten, tracks.cnt + entries.flatten.length⟩ := by
  induction entries generalizing tracks with
  | nil => simp [printEntries]
  | cons entry entries following =>
      rw [List.flatten_cons, List.length_append] at room ⊢
      have going : tracks.cnt < tracksLimit := by omega
      have fits : entry.length ≤ tracksSize - tracks.cnt - 32 - 1 := by
        change _ < tracksSize - 32 at room
        omega
      have printed : tracks.print entry = ⟨tracks.text ++ entry, tracks.cnt + entry.length⟩ := by
        rw [TracksText.print, List.take_of_length_le fits]
      rw [printEntries, if_pos going, printed, following]
      · rw [List.append_assoc, Nat.add_assoc]
      · rw [List.length_append, whole]
      · rw [Nat.add_assoc]
        exact room

theorem print_entries_begin (entries : List (List UInt8)) (tracks : TracksText) :
    tracks.text <+: (printEntries entries tracks).text := by
  induction entries generalizing tracks with
  | nil => exact List.prefix_refl _
  | cons entry entries following =>
      rw [printEntries]
      split
      · exact (List.prefix_append _ _).trans (following (tracks.print entry))
      · exact List.prefix_refl _

theorem finish_begins {tracks : TracksText} {line : List UInt8} (sent : tracks.finish = some line) :
    tracks.text <+: line := by
  unfold TracksText.finish at sent
  split at sent
  · cases sent
  · split at sent
    · cases sent
      exact List.prefix_append _ _
    · cases sent
      exact List.prefix_refl _

theorem finish_fit {tracks : TracksText} (whole : tracks.text.length = tracks.cnt)
    (room : tracks.cnt < tracksLimit) : tracks.finish = some (tracks.text ++ [13, 10]) := by
  have inside : ¬tracksSize < tracks.cnt + 3 := by
    change _ < tracksSize - 32 at room
    omega
  rw [TracksText.finish, if_neg inside, if_pos whole]

theorem Marked.not_break {entry text : List UInt8} (marked : Marked entry) :
    ¬entry ++ text <+: [13, 10] := by
  rcases marked with ⟨byte, rest, rfl, other⟩
  intro begins
  rw [List.cons_append, List.cons_prefix_cons] at begins
  exact other begins.1

/-- A message that does not fit is not whole: its last entry is cut, and CR LF is not at the
end of the text. -/
theorem cut_not_whole (entries : List (List UInt8)) (marked : ∀ entry ∈ entries, Marked entry)
    {tracks : TracksText} (whole : tracks.text.length = tracks.cnt)
    (room : tracks.cnt < tracksLimit)
    (long : tracksLimit ≤ tracks.cnt + entries.flatten.length) (count : Nat) :
    (printEntries entries tracks).finish ≠
      some (tracks.text ++ (entries.take count).flatten ++ [13, 10]) := by
  induction entries generalizing tracks count with
  | nil =>
      rw [List.flatten_nil] at long
      exact absurd room (Nat.not_lt.mpr long)
  | cons entry entries following =>
      have begins := marked entry List.mem_cons_self
      rw [List.flatten_cons, List.length_append] at long
      rw [printEntries, if_pos room]
      intro sent
      by_cases fits : tracks.cnt + entry.length < tracksLimit
      · have printed : tracks.print entry = ⟨tracks.text ++ entry, tracks.cnt + entry.length⟩ := by
          rw [TracksText.print, List.take_of_length_le]
          change _ < tracksSize - 32 at fits
          omega
        rw [printed] at sent
        cases count with
        | zero =>
            -- the entry stands in the text where the line ends already
            have grown := (print_entries_begin entries _).trans (finish_begins sent)
            rw [List.take_zero, List.flatten_nil, List.append_nil,
              List.prefix_append_right_inj] at grown
            rw [← List.append_nil entry] at grown
            exact begins.not_break grown
        | succ count =>
            apply @following (fun other among => marked other (List.mem_cons_of_mem entry among))
              ⟨tracks.text ++ entry, tracks.cnt + entry.length⟩ _ fits _ count
            · rw [sent, List.take_succ_cons, List.flatten_cons]
              simp only [List.append_assoc]
            · rw [List.length_append, whole]
            · rw [Nat.add_assoc]
              exact long
      · -- the loop ends with the entry, of which a part is in the text
        have full : tracksLimit ≤ (tracks.print entry).cnt := Nat.not_lt.mp fits
        rw [print_entries_full entries full] at sent
        have part : (entry.take (tracksSize - tracks.cnt - 32 - 1)).length < entry.length := by
          rw [List.length_take]
          change tracksSize - 32 ≤ tracks.cnt + entry.length at full
          change _ < tracksSize - 32 at room
          omega
        generalize shown : entry.take (tracksSize - tracks.cnt - 32 - 1) = cut at part
        have shorter : (tracks.print entry).text.length ≠ (tracks.print entry).cnt := by
          rw [TracksText.print, shown, List.length_append, whole]
          exact Nat.ne_of_lt (Nat.add_lt_add_left part tracks.cnt)
        rw [TracksText.finish, if_neg shorter] at sent
        split at sent
        · cases sent
        · rw [TracksText.print, shown, Option.some.injEq, List.append_assoc,
            List.append_cancel_left_eq] at sent
          cases count with
          | zero =>
              rw [List.take_zero, List.flatten_nil, List.nil_append] at sent
              have head : cut <+: entry := shown ▸ List.take_prefix _ _
              rcases begins with ⟨byte, rest, rfl, other⟩
              rw [sent, List.cons_prefix_cons] at head
              exact other head.1.symm
          | succ count =>
              have same := congrArg List.length sent
              rw [List.take_succ_cons, List.flatten_cons, List.length_append,
                List.length_append] at same
              omega

theorem printed_whole_iff (entries : List (List UInt8))
    (marked : ∀ entry ∈ entries, Marked entry) {word : List UInt8}
    (room : word.length < tracksLimit) :
    WholeMessage word entries (printEntries entries (.new word)).finish ↔
      word.length + entries.flatten.length < tracksLimit := by
  constructor
  · rintro ⟨count, line⟩
    by_contra long
    exact cut_not_whole entries marked rfl room (Nat.not_lt.mp long) count line
  · intro fits
    apply Exists.intro entries.length
    rw [print_entries_fit entries rfl fits, finish_fit, List.take_length]
    · rfl
    · rw [List.length_append]
      rfl
    · exact fits

/-! ## Both messages -/

theorem digit_not_break {byte : UInt8} (digital : isDigit byte = true) : byte ≠ 13 := by
  intro same
  rw [same] at digital
  cases digital

theorem track_text_marked (starred : Bool) (i : Nat) (lang : List UInt8) :
    Marked (trackText starred i lang) := by
  rcases decimal_head i with ⟨digit, more, shape, digital⟩
  cases starred with
  | true => exact ⟨42, _, rfl, by decide⟩
  | false =>
      apply Exists.intro digit
      apply Exists.intro (more ++ 58 :: (lang ++ [32]))
      constructor
      · rw [trackText, if_neg Bool.false_ne_true, shape]
        rfl
      · exact digit_not_break digital

theorem channel_entries_marked (stream : StreamTracks) (current : Int) (channels : List Nat) :
    ∀ entry ∈ channelEntries stream current channels, Marked entry := by
  intro entry listed
  rcases List.mem_filterMap.mp listed with ⟨i, -, found⟩
  rcases Option.map_eq_some_iff.mp found with ⟨lang, -, rfl⟩
  exact track_text_marked _ i lang

abbrev audioWord : List UInt8 := ascii "INFO TRACKMAP AUDIO ".toList

abbrev spuWord : List UInt8 := ascii "INFO TRACKMAP SPU ".toList

def audioEntries (stream : StreamTracks) : List (List UInt8) :=
  channelEntries stream stream.current (List.range 32)

/-- The choice, where there is one, is the first entry. -/
def spuEntries (stream : StreamTracks) (spuChannelChosen : Int) : List (List UInt8) :=
  (if stream.current < 0 then [choiceText stream.current] else []) ++
    channelEntries stream (spuCurrent stream spuChannelChosen) (List.range 32)

theorem audio_line_entries (stream : StreamTracks) :
    audioLine stream = (printEntries (audioEntries stream) (.new audioWord)).finish := by
  rw [audioLine, print_tracks_entries, audioEntries]

theorem spu_line_entries (stream : StreamTracks) (spuChannelChosen : Int) :
    spuLine stream spuChannelChosen =
      (printEntries (spuEntries stream spuChannelChosen) (.new spuWord)).finish := by
  rw [spuLine, print_tracks_entries, spuEntries]
  by_cases choice : stream.current < 0
  · rw [if_pos choice, if_pos choice, List.cons_append, printEntries, if_pos (by decide)]
    rfl
  · rw [if_neg choice, if_neg choice]
    rfl

theorem audio_entries_marked (stream : StreamTracks) :
    ∀ entry ∈ audioEntries stream, Marked entry :=
  channel_entries_marked stream stream.current (List.range 32)

theorem spu_entries_marked (stream : StreamTracks) (spuChannelChosen : Int) :
    ∀ entry ∈ spuEntries stream spuChannelChosen, Marked entry := by
  rw [spuEntries, List.forall_mem_append]
  constructor
  · intro entry listed
    split at listed
    · rw [List.mem_singleton.mp listed]
      exact ⟨42, _, rfl, by decide⟩
    · cases listed
  · exact channel_entries_marked stream _ _

/-- Both messages are written inside of `tracks` and are whole, exactly where both have fewer
than 992 characters before their CR LF. -/
theorem track_maps_whole_iff (audio spu : StreamTracks) (spuChannelChosen : Int) :
    WholeMessage audioWord (audioEntries audio) (audioLine audio) ∧
        WholeMessage spuWord (spuEntries spu spuChannelChosen) (spuLine spu spuChannelChosen) ↔
      audioWord.length + (audioEntries audio).flatten.length < 992 ∧
        spuWord.length + (spuEntries spu spuChannelChosen).flatten.length < 992 := by
  rw [audio_line_entries, spu_line_entries,
    printed_whole_iff _ (audio_entries_marked audio) (by decide),
    printed_whole_iff _ (spu_entries_marked spu _) (by decide)]
  exact Iff.rfl

def eightLongLanguages : StreamTracks where
  numTracks := 8
  lang i := if i < 8 then some (List.replicate 127 97) else none
  current := 0

/-- The CR LF is written 37 bytes behind the end of `tracks`. -/
theorem eight_long_languages_outside :
    (∀ i lang, eightLongLanguages.lang i = some lang → lang.length = 127) ∧
      (printTracks eightLongLanguages 0 (List.range 32) (.new audioWord)).cnt = tracksSize + 37 ∧
      ¬WholeMessage audioWord (audioEntries eightLongLanguages) (audioLine eightLongLanguages) := by
  have place : (printTracks eightLongLanguages 0 (List.range 32) (.new audioWord)).cnt =
      tracksSize + 37 := by
    decide +kernel
  refine ⟨?_, place, ?_⟩
  · intro i lang known
    rw [eightLongLanguages] at known
    dsimp only at known
    split at known
    · rw [← Option.some.inj known]
      exact List.length_replicate
    · cases known
  · have outside : audioLine eightLongLanguages = none := by
      rw [audioLine, TracksText.finish, if_pos]
      rw [show eightLongLanguages.current = 0 from rfl, place]
      decide
    rw [outside]
    rintro ⟨count, line⟩
    cases line

end Xineliboutput.Client
