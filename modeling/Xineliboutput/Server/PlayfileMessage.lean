import Xineliboutput.Server.TrackMapRoundTrip

/-!
# The message that plays a file

`cXinelibThread::PlayFile` of `frontend.c` prints the fields of the message with blanks
between them, and `handle_control_playfile` of `xine_input_vdr.c` separates them again.
-/

namespace Xineliboutput.Server

open Xineliboutput.Foundation

set_option autoImplicit false

/-! ## Composing -/

/-- `ePlayMode`; the other modes are composed as `pmAudioVideo`. -/
inductive PlayMode where
  | videoOnly
  | audioOnly
  | audioOnlyBlack
  | audioVideo
  deriving DecidableEq

/-- `xc.audio_visualization`, `xc.audio_vis_goom_opts` and `xc.audio_vis_image_mrl` -/
structure VisualizationConfig where
  audioVisualization : List UInt8
  audioVisGoomOpts : List UInt8
  audioVisImageMrl : List UInt8

/-- `vis` -/
def VisualizationConfig.vis (xc : VisualizationConfig) : PlayMode → List UInt8
  | .videoOnly => ascii "Video".toList
  | .audioOnly => ascii "Audio".toList
  | .audioOnlyBlack => ascii "none".toList
  | .audioVideo =>
      if xc.audioVisGoomOpts ≠ [] ∧ xc.audioVisualization = ascii "goom".toList then
        xc.audioVisualization ++ 58 :: xc.audioVisGoomOpts
      else if xc.audioVisImageMrl ≠ [] ∧ xc.audioVisualization = ascii "image".toList then
        xc.audioVisualization ++ 58 :: xc.audioVisImageMrl
      else xc.audioVisualization

/-- `"PLAYFILE %s %d %s %s"` -/
def playFile (loopPlay : Bool) (position : Nat) (vis fileName : List UInt8) : List UInt8 :=
  ascii "PLAYFILE ".toList ++ (if loopPlay then ascii "Loop".toList else []) ++
    32 :: (decimal position ++ 32 :: (vis ++ 32 :: fileName))

/-! ## Parsing -/

/-- What `handle_control_playfile` finds in the message. -/
structure PlayfileFields where
  loop : Bool
  pos : Int
  av : List UInt8
  filename : List UInt8
  deriving DecidableEq

/-- `av` is filled while `--avsize` is not 0. -/
abbrev avLimit : Nat := 256 + 4096 - 2 - 1

/-- `sizeof(filename)`, less the NUL. -/
abbrev filenameLimit : Nat := 4096 - 1

/-- The fields behind `Loop`. -/
def playfileFields (loop : Bool) (pt : List UInt8) : PlayfileFields :=
  let behind := skipBlanks (pt.dropWhile (notByte 32))
  let av := (behind.takeWhile (notByte 32)).take avLimit
  { loop
    pos := atoi pt
    av
    filename := (skipBlanks (behind.drop av.length)).take filenameLimit }

def loopWord : List UInt8 := ascii "Loop ".toList

/-- `handle_control_playfile` up to the file name. -/
def handleControlPlayfile (cmd : List UInt8) : PlayfileFields :=
  let pt := skipBlanks (cmd.drop 9)
  if loopWord.isPrefixOf pt then playfileFields true (skipBlanks (pt.drop 5))
  else playfileFields false pt

/-! ## Round trip -/

theorem decimal_begins (position : Nat) (rest : List UInt8) :
    skipBlanks (decimal position ++ rest) = decimal position ++ rest ∧
      loopWord.isPrefixOf (decimal position ++ rest) = false := by
  rcases decimal_head position with ⟨digit, more, shape, digital⟩
  have head : (decimal position ++ rest).head? = some digit := by
    rw [shape]
    rfl
  constructor
  · apply skip_blanks_plain
    rw [head]
    intro blank
    rw [Option.some.inj blank] at digital
    cases digital
  · have other : (76 == digit) = false := by
      apply beq_false_of_ne
      intro letter
      rw [← letter] at digital
      cases digital
    rw [shape]
    change (76 == digit && _) = false
    rw [other, Bool.false_and]

theorem playfile_fields_behind (loop : Bool) {position : Nat} (small : position < 2 ^ 31)
    (text : List UInt8) :
    playfileFields loop (decimal position ++ 32 :: text) =
      let behind := skipBlanks text
      let av := (behind.takeWhile (notByte 32)).take avLimit
      { loop
        pos := position
        av
        filename := (skipBlanks (behind.drop av.length)).take filenameLimit } := by
  unfold playfileFields
  rw [drop_unbroken (decimal_plain position (by decide)), skip_blank,
    atoi_decimal small text (by decide)]

theorem handle_playfile_parts (loopPlay : Bool) (position : Nat) (vis fileName : List UInt8) :
    handleControlPlayfile (playFile loopPlay position vis fileName) =
      playfileFields loopPlay (decimal position ++ 32 :: (vis ++ 32 :: fileName)) := by
  have begins := decimal_begins position (32 :: (vis ++ 32 :: fileName))
  cases loopPlay with
  | true =>
      have flagged : handleControlPlayfile (playFile true position vis fileName) =
          playfileFields true
            (skipBlanks (decimal position ++ 32 :: (vis ++ 32 :: fileName))) := rfl
      rw [flagged, begins.1]
  | false =>
      have behind : skipBlanks ((playFile false position vis fileName).drop 9) =
          decimal position ++ 32 :: (vis ++ 32 :: fileName) := begins.1
      unfold handleControlPlayfile
      rw [behind]
      dsimp only
      rw [begins.2]
      rfl

/-- The visualization is one word that `av` has room for. -/
structure OneWord (vis : List UInt8) : Prop where
  unbroken : ∀ byte ∈ vis, byte ≠ 32
  room : vis.length ≤ avLimit

theorem OneWord.skip {vis : List UInt8} (word : OneWord vis) (shown : vis ≠ [])
    (text : List UInt8) : skipBlanks (vis ++ text) = vis ++ text := by
  apply skip_blanks_plain
  cases vis with
  | nil => exact absurd rfl shown
  | cons byte vis =>
      intro blank
      exact word.unbroken byte List.mem_cons_self (Option.some.inj blank)

theorem OneWord.keep {vis : List UInt8} (word : OneWord vis) (text : List UInt8) :
    ((vis ++ 32 :: text).takeWhile (notByte 32)).take avLimit = vis := by
  rw [keep_unbroken fun byte inside => not_byte_iff.mpr (word.unbroken byte inside),
    List.take_of_length_le word.room]

theorem one_word_of_taken {vis text : List UInt8}
    (taken : (text.takeWhile (notByte 32)).take avLimit = vis) : OneWord vis := by
  constructor
  · intro byte inside
    rw [← taken] at inside
    have kept := List.mem_takeWhile_imp (List.mem_of_mem_take inside)
    exact not_byte_iff.mp kept
  · rw [← taken]
    exact List.length_take_le _ _

/-- The file name does not begin with a blank, and `filename` has room for it. -/
structure PlainName (fileName : List UInt8) : Prop where
  plain : fileName.head? ≠ some 32
  room : fileName.length ≤ filenameLimit

theorem take_name_iff {fileName : List UInt8} :
    (skipBlanks fileName).take filenameLimit = fileName ↔ PlainName fileName := by
  constructor
  · intro same
    constructor
    · intro blank
      have kept : ((skipBlanks fileName).take filenameLimit).head? = (skipBlanks fileName).head? :=
        List.head?_take.trans (if_neg (by decide))
      rw [same, blank] at kept
      exact skip_blanks_head fileName kept.symm
    · rw [← same]
      exact List.length_take_le _ _
  · rintro ⟨plain, room⟩
    rw [skip_blanks_plain plain, List.take_of_length_le room]

/-- For any mode, flag and position and any file name, the fields come back exactly where the
visualization is one word and the file name does not begin with a blank, and both have room. -/
theorem playfile_round_trip_iff (xc : VisualizationConfig) (mode : PlayMode) (loopPlay : Bool)
    (position : Nat) (fileName : List UInt8) (small : position < 2 ^ 31)
    (shown : xc.vis mode ≠ []) :
    handleControlPlayfile (playFile loopPlay position (xc.vis mode) fileName) =
        ⟨loopPlay, position, xc.vis mode, fileName⟩ ↔
      OneWord (xc.vis mode) ∧ PlainName fileName := by
  generalize xc.vis mode = vis at shown ⊢
  rw [handle_playfile_parts, playfile_fields_behind loopPlay small]
  -- behind one word, only the file name is left
  have left : ∀ word : OneWord vis,
      (skipBlanks ((skipBlanks (vis ++ 32 :: fileName)).drop vis.length)).take filenameLimit =
        (skipBlanks fileName).take filenameLimit := by
    intro word
    rw [word.skip shown, List.drop_left, skip_blank]
  constructor
  · intro back
    have av := congrArg PlayfileFields.av back
    have name := congrArg PlayfileFields.filename back
    dsimp only at av name
    have word := one_word_of_taken av
    rw [av, left word] at name
    exact ⟨word, take_name_iff.mp name⟩
  · rintro ⟨word, plain⟩
    have av : ((skipBlanks (vis ++ 32 :: fileName)).takeWhile (notByte 32)).take avLimit = vis := by
      rw [word.skip shown, word.keep]
    dsimp only
    rw [av, left word, take_name_iff.mpr plain]

/-- A loop over a file whose name has blanks, with options of goom. -/
theorem playfile_round_trip_blanks :
    handleControlPlayfile (playFile true 12 (ascii "goom:fps:25".toList)
        (ascii "/video/5 Loop x.mp3".toList)) =
      ⟨true, 12, ascii "goom:fps:25".toList, ascii "/video/5 Loop x.mp3".toList⟩ := by
  have shown : (VisualizationConfig.mk (ascii "goom".toList) (ascii "fps:25".toList) []).vis
      .audioVideo = ascii "goom:fps:25".toList := by
    decide
  have trip := playfile_round_trip_iff
    ⟨ascii "goom".toList, ascii "fps:25".toList, []⟩ .audioVideo true 12
    (ascii "/video/5 Loop x.mp3".toList) (by decide) (by decide)
  rw [shown] at trip
  exact trip.mpr ⟨⟨plain_of_all (by decide), by decide⟩, ⟨by decide, by decide⟩⟩

/-- A part of the image's path becomes a part of the file name. -/
theorem playfile_image_with_blank :
    let xc : VisualizationConfig :=
      ⟨ascii "image".toList, [], ascii "/my pictures/a.png".toList⟩
    handleControlPlayfile (playFile false 0 (xc.vis .audioVideo) (ascii "/a.mp3".toList)) =
      ⟨false, 0, ascii "image:/my".toList, ascii "pictures/a.png /a.mp3".toList⟩ := by
  decide

end Xineliboutput.Server
