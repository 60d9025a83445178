import Xineliboutput.Foundation.ShellWords
import Xineliboutput.Server.InfoHandler

/-!
# The command line of the metadata scanner

Without libextractor, `cID3Scanner` of `tools/playlist.c` runs `metaflac` or `mp3info`
through `popen`, with the file name between double quotes. `shell_escape` puts a
backslash in front of each double quote and each backslash, and stops when its buffer
is nearly full. It leaves `$` and the backquote alone.
-/

namespace Xineliboutput.Playlist

open Xineliboutput.Foundation Xineliboutput.Server

set_option autoImplicit false

/-! ## Which files are scanned -/

def toLower (byte : UInt8) : UInt8 :=
  if 65 ≤ byte.toNat ∧ byte.toNat ≤ 90 then byte + 32 else byte

def strcasecmpEqual (s1 s2 : List UInt8) : Bool := s1.map toLower == s2.map toLower

def extsPlaylist : List (List UInt8) :=
  ["asx", "m3u", "pls", "ram"].map fun ext => ascii ext.toList

def extsAudio : List (List UInt8) :=
  ["ac3", "asf", "au", "aud", "flac", "mpa", "mpega", "mp2", "mp3", "m4a", "ogg", "ogm", "ra",
    "spx", "wav", "wma"].map fun ext => ascii ext.toList

def getExtension (fname : List UInt8) : Option (List UInt8) :=
  if fname.contains 46 then some (fname.reverse.takeWhile (notByte 46)).reverse else none

def isAudioFile (fname : List UInt8) : Bool :=
  match getExtension fname with
  | some ext =>
      extsAudio.any (strcasecmpEqual ext) || extsPlaylist.any (strcasecmpEqual ext)
  | none => false

/-! ## The command -/

/-- The loop of `shell_escape` for `ch = '"'`, with `n` bytes written. -/
def shellEscapeLoop (buflen : Nat) : Nat → List UInt8 → List UInt8
  | _, [] => []
  | n, byte :: rest =>
      if n < buflen - 2 then
        if byte = 34 ∨ byte = 92 then 92 :: byte :: shellEscapeLoop buflen (n + 2) rest
        else byte :: shellEscapeLoop buflen (n + 1) rest
      else []

def shellEscape (buflen : Nat) (src : List UInt8) : List UInt8 := shellEscapeLoop buflen 0 src

/-- `!strcasecmp(Filename + strlen(Filename) - 5, ".flac")`. A shorter name has its dot
elsewhere, so whatever lies in front of it, the answer is no. -/
def endsWithFlac (filename : List UInt8) : Bool :=
  5 ≤ filename.length &&
    strcasecmpEqual (filename.drop (filename.length - 5)) (ascii ".flac".toList)

def commandOpening (filename : List UInt8) : List UInt8 :=
  if endsWithFlac filename then
    ascii ("metaflac  --show-tag=TITLE  --show-tag=ALBUM " ++
      " --show-tag=ARTIST  --show-tag=TRACKNUMBER  \"").toList
  else
    ascii ("mp3info -p \"ARTIST=%a\\r\\nALBUM=%l\\r\\n" ++
      "TITLE=%t\\r\\nTRACKNUMBER=%n\\r\\n\" \"").toList

/-- What `Action` passes to `popen` for a file of the playlist. -/
def scannerCommand (filename : List UInt8) : Option (List UInt8) :=
  if isAudioFile filename then
    some (commandOpening filename ++ shellEscape (4096 - 1) filename ++ [34])
  else none

def fixedWords (filename : List UInt8) : List (List UInt8) :=
  if endsWithFlac filename then
    ["metaflac", "--show-tag=TITLE", "--show-tag=ALBUM", "--show-tag=ARTIST",
      "--show-tag=TRACKNUMBER"].map fun word => ascii word.toList
  else
    ["mp3info", "-p", "ARTIST=%a\\r\\nALBUM=%l\\r\\nTITLE=%t\\r\\nTRACKNUMBER=%n\\r\\n"].map
      fun word => ascii word.toList

/-! ## How the shell reads it -/

open ShellWords

/-- The characters the loop comes to before the buffer is nearly full. -/
def keptName (limit : Nat) : Nat → List UInt8 → List UInt8
  | _, [] => []
  | n, byte :: rest =>
      if n < limit then
        byte :: keptName limit (n + if isQuoting byte then 2 else 1) rest
      else []

theorem shell_escape_loop_eq (buflen n : Nat) (src : List UInt8) :
    shellEscapeLoop buflen n src = escapeQuoting (keptName (buflen - 2) n src) := by
  induction src generalizing n with
  | nil => rfl
  | cons byte rest ih =>
      have quoting : isQuoting byte = true ↔ byte = 34 ∨ byte = 92 := by
        simp [isQuoting]
      rw [shellEscapeLoop, keptName]
      by_cases room : n < buflen - 2
      · rw [if_pos room, if_pos room, escapeQuoting, List.flatMap_cons, ← escapeQuoting]
        by_cases special : byte = 34 ∨ byte = 92
        · rw [if_pos special, if_pos (quoting.mpr special), if_pos (quoting.mpr special), ih]
          rfl
        · rw [if_neg special, if_neg (special ∘ quoting.mp), if_neg (special ∘ quoting.mp), ih]
          rfl
      · rw [if_neg room, if_neg room]
        rfl

/-- The whole name is kept if there is room for it up to its last character. -/
theorem kept_name_iff (limit n : Nat) (src : List UInt8) :
    keptName limit n src = src ↔
      src = [] ∨ n + src.dropLast.length + src.dropLast.countP isQuoting < limit := by
  induction src generalizing n with
  | nil => simp [keptName]
  | cons byte rest ih =>
      rw [keptName]
      by_cases room : n < limit
      · rw [if_pos room]
        simp only [List.cons.injEq, true_and, reduceCtorEq, false_or]
        rw [ih]
        cases rest with
        | nil => simpa using room
        | cons second rest =>
            simp only [reduceCtorEq, false_or, List.dropLast_cons_cons, List.length_cons,
              List.countP_cons]
            cases isQuoting byte <;> simp <;> omega
      · rw [if_neg room]
        simp only [reduceCtorEq, false_or, false_iff]
        omega

theorem command_opened (filename : List UInt8) :
    read ⟨[], .between⟩ (commandOpening filename) =
      some ⟨fixedWords filename, .quoted []⟩ := by
  unfold commandOpening fixedWords
  cases endsWithFlac filename <;> decide +kernel

theorem command_words (filename : List UInt8) :
    shellWords (commandOpening filename ++ shellEscape (4096 - 1) filename ++ [34]) =
      if (keptName 4093 0 filename).any expands then none
      else some (fixedWords filename ++ [keptName 4093 0 filename]) := by
  rw [shellEscape, shell_escape_loop_eq]
  exact shell_words_quoted (command_opened filename) _

/-- The command is the fixed words and the file name, and nothing else. -/
def PassesName (filename : List UInt8) : Prop :=
  ∀ command ∈ scannerCommand filename,
    shellWords command = some (fixedWords filename ++ [filename])

instance (filename : List UInt8) : Decidable (PassesName filename) :=
  inferInstanceAs (Decidable (∀ command ∈ scannerCommand filename, _))

theorem no_expansion_iff (text : List UInt8) :
    text.any expands = false ↔ (36 : UInt8) ∉ text ∧ (96 : UInt8) ∉ text := by
  simp only [List.any_eq_false, expands, Bool.or_eq_true, beq_iff_eq]
  constructor
  · intro plain
    exact ⟨fun dollar => plain 36 dollar (.inl rfl), fun quote => plain 96 quote (.inr rfl)⟩
  · rintro ⟨noDollar, noQuote⟩ byte member (rfl | rfl)
    · exact noDollar member
    · exact noQuote member

/-- A file name reaches the program as one word exactly if it holds neither `$` nor a
backquote and is not cut off: escaped, all but its last character take less than 4093
bytes. -/
theorem passes_name_iff (filename : List UInt8) :
    PassesName filename ↔ (isAudioFile filename = true →
      (36 : UInt8) ∉ filename ∧ (96 : UInt8) ∉ filename ∧
        filename.dropLast.length + filename.dropLast.countP isQuoting < 4093) := by
  unfold PassesName scannerCommand
  cases audio : isAudioFile filename with
  | false => simp
  | true =>
      have nonempty : filename ≠ [] := by
        rintro rfl
        cases audio
      have whole := kept_name_iff 4093 0 filename
      simp only [nonempty, false_or, Nat.zero_add] at whole
      simp only [if_true, Option.mem_def, Option.some.injEq, forall_eq', command_words,
        forall_true_left]
      rw [← and_assoc, ← no_expansion_iff, ← whole]
      constructor
      · intro words
        split at words
        · cases words
        · rename_i silent
          have same : keptName 4093 0 filename = filename := by simpa using words
          rw [same, Bool.not_eq_true] at silent
          exact ⟨silent, same⟩
      · rintro ⟨silent, same⟩
        rw [same, silent]
        rfl

/-- The shell runs what stands between the backquotes. -/
theorem backquotes_run : ¬ ∀ filename, (0 : UInt8) ∉ filename → PassesName filename := by
  intro claimed
  have held := claimed (ascii "`reboot`.mp3".toList) (by decide)
  revert held
  decide +kernel

end Xineliboutput.Playlist
