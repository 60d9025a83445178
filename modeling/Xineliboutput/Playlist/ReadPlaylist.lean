import Xineliboutput.Playlist.PlaylistItem

/-!
# Reading a playlist

`cPlaylist::ReadPlaylist` of `tools/playlist.c` with its readers. What a line gives as the name of a
file depends on the line alone; titles and positions are kept until the next file, or change the
last item of the list, which may be missing. A file is what `cReadLine` returns of it, line by line;
remote files are fetched in the same way. A playlist that is listed is read in its place, down to a
depth, and adds to the same list.
-/

namespace Xineliboutput.Playlist

open Xineliboutput.Foundation Xineliboutput.Server

set_option autoImplicit false

/-! ## Readers -/

def strstr (word : List UInt8) : List UInt8 → Option (List UInt8)
  | [] => if word = [] then some [] else none
  | byte :: rest =>
      if word.isPrefixOf (byte :: rest) then some (byte :: rest) else strstr word rest

inductive ReaderKind where
  | m3u
  | pls
  | asx
  deriving DecidableEq

structure Reader where
  kind : ReaderKind
  title : Option (List UInt8)
  position : Int
  next : Int
  current : Int

def Reader.opened (kind : ReaderKind) : Reader := ⟨kind, none, -1, 1, 0⟩

def Reader.resetCache (reader : Reader) : Reader := { reader with title := none, position := -1 }

/-- `Prev()->Title = title`; `none` is a missing item. -/
def retitleLast (items : List PlaylistItem) (title : Option (List UInt8)) :
    Option (List PlaylistItem) :=
  items.getLast?.map fun last => items.dropLast ++ [{ last with title }]

def m3uValue : List UInt8 → Option (List UInt8)
  | [] => none
  | byte :: line => if byte = 35 then none else some (byte :: line)

def parseM3u (reader : Reader) (line : List UInt8) : Reader :=
  if (ascii "#EXTINF:".toList).isPrefixOf line then
    { reader with title := strchr 44 line, position := reader.next, next := reader.next + 1 }
  else reader

def numberAfter (key : String) (line : List UInt8) : Option Int :=
  if strcasecmpEqual (line.take key.length) (ascii key.toList) then
    (scanInteger (line.drop key.length)).map fun scanned => storeInt scanned.1
  else none

/-- What a line of a `.pls` file says. -/
inductive PlsLine where
  | file (number : Int) (value : List UInt8)
  | title (number : Int) (value : List UInt8)
  | other

def plsLine (line : List UInt8) : PlsLine :=
  match strchr 61 line with
  | none => .other
  | some value =>
      match numberAfter "file" line with
      | some number => .file number value
      | none =>
          match numberAfter "title" line with
          | some number => if value = [] then .other else .title number value
          | none => .other

def plsValue (line : List UInt8) : Option (List UInt8) :=
  match plsLine line with
  | .file _ value => if value = [] then none else some value
  | .title _ _ | .other => none

def parsePls (reader : Reader) (items : List PlaylistItem) (line : List UInt8) :
    Option (Reader × List PlaylistItem) :=
  match plsLine line with
  | .file number _ => some ({ reader with current := number, position := number }, items)
  | .title number value =>
      if number = reader.current then (retitleLast items (some value)).map fun items => (reader, items)
      else some ({ reader with title := some value }, items)
  | .other => some (reader, items)

/-- The first word of several that stands in a line, in the order of the words. -/
def strstrAny (words : List String) (line : List UInt8) : Option (List UInt8) :=
  words.findSome? fun word => strstr (ascii word.toList) line

def asxValue (line : List UInt8) : Option (List UInt8) :=
  (((strstrAny ["<REF HREF", "<ref href", "<ENTRY HREF", "<entry href"] line).bind
    (strchr 61)).bind (strchr 34)).map fun pt => pt.takeWhile (notByte 34)

/-- The title of a line and what is left of it: both are cut off at the first `</`. -/
def asxTitle (line : List UInt8) : Option (List UInt8) × List UInt8 :=
  match strstrAny ["<TITLE>", "<title>"] line with
  | none => (none, line)
  | some pt =>
      let pt := pt.drop 7
      match strstr (ascii "</".toList) line with
      | none => (some pt, line)
      | some close =>
          (some (if close.length ≤ pt.length then pt.take (pt.length - close.length) else pt),
            line.take (line.length - close.length))

def asxEntry (line : List UInt8) : Bool := (strstrAny ["<ENTRY>", "<entry>"] (asxTitle line).2).isSome

def Reader.asxTitled (reader : Reader) (line : List UInt8) : Reader :=
  { reader with title := (asxTitle line).1.or reader.title }

/-- With a file name nothing else of the line is read. An entry gives its title to the last item, if
there is one. -/
def parseAsx (reader : Reader) (items : List PlaylistItem) (line : List UInt8) :
    Reader × List PlaylistItem :=
  if (asxValue line).isSome then (reader, items)
  else
    let reader := reader.asxTitled line
    if reader.title.isSome && asxEntry line then
      match retitleLast items reader.title with
      | some items => ({ reader with title := none }, items)
      | none => (reader, items)
    else (reader, items)

/-- The name of a file, as `Parse` returns it. -/
def ReaderKind.value : ReaderKind → List UInt8 → Option (List UInt8)
  | .m3u => m3uValue
  | .pls => plsValue
  | .asx => asxValue

/-- What else `Parse` does. -/
def Reader.parse (reader : Reader) (items : List PlaylistItem) (line : List UInt8) :
    Option (Reader × List PlaylistItem) :=
  match reader.kind with
  | .m3u => some (parseM3u reader line, items)
  | .pls => parsePls reader items line
  | .asx => some (parseAsx reader items line)

/-! ## The playlist -/

abbrev Files := List UInt8 → Option (List (List UInt8))

def maxPlaylistFiles : Nat := 1024

def isPlaylistFile (fname : List UInt8) : Bool :=
  match getExtension fname with
  | some ext => extsPlaylist.any (strcasecmpEqual ext)
  | none => false

def readerKind (file : List UInt8) : ReaderKind :=
  match getExtension file with
  | some ext =>
      if strcasecmpEqual ext (ascii "pls".toList) then .pls
      else if strcasecmpEqual ext (ascii "asx".toList) then .asx
      else .m3u
  | none => .m3u

/-- With the last slash, or the whole name if there is none. -/
def folderOf (file : List UInt8) : List UInt8 := (strrchr 47 file).getD file

/-- A slash in front, or a first slash that belongs to a short protocol. -/
def isAbsolute (pt : List UInt8) : Bool :=
  pt.head? == some 47 ||
    match strstr (ascii "://".toList) pt with
    | some protocol =>
        let slash := (pt.takeWhile (notByte 47)).length
        decide (pt.length - protocol.length + 1 = slash ∧ slash < 8)
    | none => false

def nestedPath (folder pt : List UInt8) : List UInt8 := if isAbsolute pt then pt else folder ++ pt

def Reader.item (reader : Reader) (folder pt : List UInt8) : PlaylistItem :=
  if isAbsolute pt then
    let item := PlaylistItem.ofFile pt
    { item with title := reader.title.or item.title, position := reader.position }
  else { PlaylistItem.ofPath pt folder reader.title with position := reader.position }

section Loop

variable (nested : List UInt8 → List PlaylistItem → Option (Nat × List PlaylistItem))
  (folder : List UInt8)

/-- The files that were found, and the list; `none` is a missing item. -/
def readLoop : List (List UInt8) → Nat → Reader → List PlaylistItem →
    Option (Nat × List PlaylistItem)
  | [], n, _, items => some (n, items)
  | line :: lines, n, reader, items =>
      if n < maxPlaylistFiles then
        (reader.parse items line).bind fun parsed =>
          match reader.kind.value line with
          | none => readLoop lines n parsed.1 parsed.2
          | some pt =>
              if isPlaylistFile pt then
                (nested (nestedPath folder pt) parsed.2).bind fun found =>
                  readLoop lines (n + found.1) parsed.1.resetCache found.2
              else
                readLoop lines (n + 1) parsed.1.resetCache
                  (parsed.2 ++ [parsed.1.item folder pt])
      else some (n, items)

end Loop

def openPlaylist (files : Files)
    (nested : List UInt8 → List PlaylistItem → Option (Nat × List PlaylistItem))
    (file : List UInt8) (items : List PlaylistItem) : Option (Nat × List PlaylistItem) :=
  match files file with
  | some lines => readLoop nested (folderOf file) lines 0 (.opened (readerKind file)) items
  | none => some (0, items)

/-- A playlist in a playlist; when no level is left, it is skipped. -/
def readNested (files : Files) : Nat → List UInt8 → List PlaylistItem →
    Option (Nat × List PlaylistItem)
  | 0, _, items => some (0, items)
  | left + 1, file, items => openPlaylist files (readNested files left) file items

/-- `ReadPlaylist` with levels of playlists in it that are still read. -/
def readPlaylist (files : Files) (left : Nat) : List UInt8 → List PlaylistItem →
    Option (Nat × List PlaylistItem) :=
  openPlaylist files (readNested files left)

/-- Those of a playlist that is not in another: `depth` is zero, and in a nested one at most 5. -/
def maxDepth : Nat := 5

/-! ## Names -/

section Names

variable {nested : List UInt8 → List PlaylistItem → Option (Nat × List PlaylistItem)}
  {folder line : List UInt8} {lines : List (List UInt8)} {n found : Nat} {reader : Reader}
  {items all : List PlaylistItem}

def PlaylistItem.name (item : PlaylistItem) : List UInt8 × Int := (item.filename, item.position)

theorem retitle_last_some {title : Option (List UInt8)}
    (retitled : retitleLast items title = some all) : ∃ before last,
      items = before ++ [last] ∧ all = before ++ [{ last with title }] := by
  obtain ⟨last, at', rfl⟩ := Option.map_eq_some_iff.mp retitled
  exact ⟨items.dropLast, last, (List.dropLast_append_getLast? last at').symm, rfl⟩

theorem retitle_last_names {title : Option (List UInt8)}
    (retitled : retitleLast items title = some all) :
    all.map PlaylistItem.name = items.map PlaylistItem.name := by
  obtain ⟨before, last, rfl, rfl⟩ := retitle_last_some retitled
  rw [List.map_append, List.map_append]
  rfl

theorem parse_asx_names (reader : Reader) (items : List PlaylistItem) (line : List UInt8) :
    (parseAsx reader items line).2.map PlaylistItem.name = items.map PlaylistItem.name ∧
      (parseAsx reader items line).1.kind = reader.kind := by
  unfold parseAsx
  split_ifs
  · exact ⟨rfl, rfl⟩
  · dsimp only
    split_ifs
    · split
      · next retitled => exact ⟨retitle_last_names retitled, rfl⟩
      · exact ⟨rfl, rfl⟩
    · exact ⟨rfl, rfl⟩

theorem parse_names {after : Reader × List PlaylistItem}
    (parsed : reader.parse items line = some after) :
    after.2.map PlaylistItem.name = items.map PlaylistItem.name ∧ after.1.kind = reader.kind := by
  unfold Reader.parse at parsed
  cases kind : reader.kind with
  | m3u =>
      rw [kind] at parsed
      cases parsed
      refine ⟨rfl, ?_⟩
      unfold parseM3u
      split_ifs <;> exact kind
  | pls =>
      rw [kind] at parsed
      dsimp only at parsed
      unfold parsePls at parsed
      split at parsed
      · cases parsed
        exact ⟨rfl, kind⟩
      · split_ifs at parsed
        · obtain ⟨retitled, changed, rfl⟩ := Option.map_eq_some_iff.mp parsed
          exact ⟨retitle_last_names changed, kind⟩
        · cases parsed
          exact ⟨rfl, kind⟩
      · cases parsed
        exact ⟨rfl, kind⟩
  | asx =>
      rw [kind] at parsed
      cases parsed
      obtain ⟨same, kept⟩ := parse_asx_names reader items line
      exact ⟨same, kept.trans kind⟩

theorem loop_cons (room : n < maxPlaylistFiles)
    (ran : readLoop nested folder (line :: lines) n reader items = some (found, all)) :
    ∃ parsed, reader.parse items line = some parsed ∧
      ((reader.kind.value line = none ∧
          readLoop nested folder lines n parsed.1 parsed.2 = some (found, all)) ∨
        (∃ pt, reader.kind.value line = some pt ∧ isPlaylistFile pt = true ∧
          ∃ more, nested (nestedPath folder pt) parsed.2 = some more ∧
            readLoop nested folder lines (n + more.1) parsed.1.resetCache more.2 =
              some (found, all)) ∨
        ∃ pt, reader.kind.value line = some pt ∧ isPlaylistFile pt = false ∧
          readLoop nested folder lines (n + 1) parsed.1.resetCache
            (parsed.2 ++ [parsed.1.item folder pt]) = some (found, all)) := by
  rw [readLoop, if_pos room] at ran
  obtain ⟨parsed, isParsed, ran⟩ := Option.bind_eq_some_iff.mp ran
  refine ⟨parsed, isParsed, ?_⟩
  split at ran
  · next none' => exact Or.inl ⟨none', ran⟩
  · next pt some' =>
      split_ifs at ran with playlist
      · obtain ⟨more, read, ran⟩ := Option.bind_eq_some_iff.mp ran
        exact Or.inr (Or.inl ⟨pt, some', playlist, more, read, ran⟩)
      · exact Or.inr (Or.inr ⟨pt, some', Bool.not_eq_true _ ▸ playlist, ran⟩)

section Rounds

variable {parsed : Reader × List PlaylistItem} {pt : List UInt8} (room : n < maxPlaylistFiles)
  (isParsed : reader.parse items line = some parsed)

include room isParsed

theorem loop_line (none' : reader.kind.value line = none) :
    readLoop nested folder (line :: lines) n reader items =
      readLoop nested folder lines n parsed.1 parsed.2 := by
  rw [readLoop, if_pos room, isParsed, Option.bind_some, none']

theorem loop_playlist {more : Nat × List PlaylistItem} (given : reader.kind.value line = some pt)
    (playlist : isPlaylistFile pt = true)
    (read : nested (nestedPath folder pt) parsed.2 = some more) :
    readLoop nested folder (line :: lines) n reader items =
      readLoop nested folder lines (n + more.1) parsed.1.resetCache more.2 := by
  rw [readLoop, if_pos room, isParsed, Option.bind_some, given]
  dsimp only
  rw [if_pos playlist, read, Option.bind_some]

theorem loop_song (given : reader.kind.value line = some pt) (plain : isPlaylistFile pt = false) :
    readLoop nested folder (line :: lines) n reader items =
      readLoop nested folder lines (n + 1) parsed.1.resetCache
        (parsed.2 ++ [parsed.1.item folder pt]) := by
  rw [readLoop, if_pos room, isParsed, Option.bind_some, given]
  dsimp only
  rw [if_neg (by rw [plain]; exact Bool.false_ne_true)]

end Rounds

theorem loop_full (full : ¬n < maxPlaylistFiles) (lines : List (List UInt8)) (reader : Reader)
    (items : List PlaylistItem) : readLoop nested folder lines n reader items = some (n, items) := by
  cases lines with
  | nil => rfl
  | cons line lines => rw [readLoop, if_neg full]

/-- A list is only added to, whatever its items are called. -/
def Adds (nested : List UInt8 → List PlaylistItem → Option (Nat × List PlaylistItem)) : Prop :=
  ∀ path items found all, nested path items = some (found, all) →
    ∃ names, all.map PlaylistItem.name = items.map PlaylistItem.name ++ names

theorem loop_names (adds : Adds nested)
    (ran : readLoop nested folder lines n reader items = some (found, all)) :
    ∃ names, all.map PlaylistItem.name = items.map PlaylistItem.name ++ names := by
  induction lines generalizing n reader items with
  | nil =>
      cases ran
      exact ⟨[], (List.append_nil _).symm⟩
  | cons line lines ih =>
      by_cases room : n < maxPlaylistFiles
      · obtain ⟨parsed, isParsed, onward | ⟨pt, -, -, more, read, onward⟩ | ⟨pt, -, -, onward⟩⟩ :=
          loop_cons room ran
        · obtain ⟨names, same⟩ := ih onward.2
          exact ⟨names, by rw [same, (parse_names isParsed).1]⟩
        · obtain ⟨names, same⟩ := ih onward
          obtain ⟨listed, added⟩ := adds _ _ _ _ read
          exact ⟨listed ++ names, by
            rw [same, added, (parse_names isParsed).1, List.append_assoc]⟩
        · obtain ⟨names, same⟩ := ih onward
          exact ⟨[(parsed.1.item folder pt).name] ++ names, by
            rw [same, List.map_append, (parse_names isParsed).1, List.append_assoc]
            rfl⟩
      · rw [loop_full room] at ran
        cases ran
        exact ⟨[], (List.append_nil _).symm⟩

theorem open_playlist_names (adds : Adds nested) (files : Files) :
    Adds (openPlaylist files nested) := by
  intro file items found all ran
  unfold openPlaylist at ran
  split at ran
  · exact loop_names adds ran
  · cases ran
    exact ⟨[], (List.append_nil _).symm⟩

theorem read_nested_names (files : Files) (left : Nat) : Adds (readNested files left) := by
  induction left with
  | zero =>
      intro path items found all ran
      cases ran
      exact ⟨[], (List.append_nil _).symm⟩
  | succ left ih => exact open_playlist_names ih files

end Names

end Xineliboutput.Playlist
