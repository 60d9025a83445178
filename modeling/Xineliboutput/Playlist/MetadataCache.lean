import Mathlib.Data.List.Perm.Basic
import Xineliboutput.Playlist.PlaylistItem

/-!
# The metadata cache

`StoreCache` of `tools/playlist.c` writes the metadata of an implicit playlist to a file in its
folder, and `ReadCache` gives it to the items of the same files. Lines are read by `cReadLine`,
which is not part of the plugin.
-/

namespace Xineliboutput.Playlist

open Xineliboutput.Foundation Xineliboutput.Server

set_option autoImplicit false

inductive Origin where
  | playlist
  | implicit
  deriving DecidableEq

/-- `cPlaylist` -/
structure MediaPlaylist where
  origin : Origin
  folder : Option (List UInt8)
  items : List PlaylistItem
  deriving DecidableEq

/-! ## Storing -/

section Store

/-- `"%s%d=%s"` with the name of a key. -/
def keyLine (key : String) (entries : Nat) (value : List UInt8) : List UInt8 :=
  ascii key.toList ++ decimal entries ++ 61 :: value

def valueLine (key : String) (entries : Nat) : Option (List UInt8) → List (List UInt8)
  | some (byte :: value) => [keyLine key entries (byte :: value)]
  | _ => []

def entryLines (entries : Nat) (filename : List UInt8) (i : PlaylistItem) : List (List UInt8) :=
  keyLine "File" entries filename ::
    (valueLine "Title" entries i.title ++ valueLine "Tracknumber" entries i.tracknumber ++
      valueLine "Artist" entries i.artist ++ valueLine "Album" entries i.album)

def printLines (lines : List (List UInt8)) : List UInt8 := lines.flatMap (· ++ crlf)

def playlistLine : List UInt8 := ascii "[playlist]".toList

def lastLines (entries : Nat) : List (List UInt8) :=
  [ascii "NumberOfEntries=".toList ++ decimal entries, ascii "Version=2".toList]

def isStored (folder : List UInt8) (i : PlaylistItem) : Bool :=
  folder.isPrefixOf i.filename && (i.artist.isSome || i.album.isSome)

/-- The loop, with the entries so far and what is written. The file is opened for the first entry;
`none` if that fails. -/
def storeLoop (folder : List UInt8) (canOpen : Bool) :
    List PlaylistItem → Nat → List UInt8 → Option (Nat × List UInt8)
  | [], entries, f => some (entries, f)
  | i :: rest, entries, f =>
      if isStored folder i then
        if entries < 1 ∧ canOpen = false then none
        else
          let f := if entries < 1 then printLines [playlistLine] else f
          storeLoop folder canOpen rest (entries + 1)
            (f ++ printLines (entryLines (entries + 1) (i.filename.drop folder.length) i))
      else storeLoop folder canOpen rest entries f

/-- The result and the file; `none` is a file that does not exist. -/
def storeCache (cacheImplicitPlaylists : Bool) (this : MediaPlaylist) (canOpen : Bool)
    (file : Option (List UInt8)) : Bool × Option (List UInt8) :=
  match this.folder with
  | some folder =>
      if cacheImplicitPlaylists = true ∧ this.origin = .implicit then
        match storeLoop folder canOpen this.items 0 [] with
        | some (entries, f) =>
            if 0 < entries then (true, some (f ++ printLines (lastLines entries)))
            else (false, file)
        | none => (false, file)
      else (false, file)
  | none => (false, file)

end Store

/-! ## Reading -/

section Read

/-- What a line other than `File` says of the current item. -/
def readValue (pt : List UInt8) (it : PlaylistItem) : PlaylistItem :=
  if (ascii "Title".toList).isPrefixOf pt then { it with title := strchrnext 61 pt }
  else if (ascii "Tracknumber".toList).isPrefixOf pt then
    { it with tracknumber := strchrnext 61 pt }
  else if (ascii "Artist".toList).isPrefixOf pt then { it with artist := strchrnext 61 pt }
  else if (ascii "Album".toList).isPrefixOf pt then { it with album := strchrnext 61 pt }
  else it

def readCacheLine (folder : List UInt8) (state : List PlaylistItem × Option Nat)
    (pt : List UInt8) : List PlaylistItem × Option Nat :=
  if (ascii "File".toList).isPrefixOf pt then
    (state.1, (strchrnext 61 (pt.drop 4)).bind fun filename =>
      state.1.findIdx? fun i =>
        folder.isPrefixOf i.filename && i.filename.drop folder.length == filename)
  else
    match state.2 with
    | some it => (state.1.modify it (readValue pt), some it)
    | none => state

/-- `readLines` is what `cReadLine` returns of a file, one after the other. -/
def readCache (readLines : List UInt8 → List (List UInt8)) (cacheImplicitPlaylists : Bool)
    (this : MediaPlaylist) (file : Option (List UInt8)) : Bool × MediaPlaylist :=
  match this.folder with
  | some folder =>
      if cacheImplicitPlaylists = true ∧ this.origin = .implicit then
        match file with
        | some f =>
            (true, { this with
              items := ((readLines f).foldl (readCacheLine folder) (this.items, none)).1 })
        | none => (false, this)
      else (false, this)
  | none => (false, this)

end Read

/-! ## Lines -/

section Lines

variable {entries : Nat} {value : List UInt8}

def CleanText (text : List UInt8) : Prop := ∀ byte ∈ text, byte ≠ 0 ∧ byte ≠ cr ∧ byte ≠ lf

instance (text : List UInt8) : Decidable (CleanText text) :=
  inferInstanceAs (Decidable (∀ _ ∈ _, _))

def ReadsLines (readLines : List UInt8 → List (List UInt8)) : Prop :=
  ∀ lines, (∀ line ∈ lines, CleanText line) → readLines (printLines lines) = lines

theorem equals_not_mem_decimal (entries : Nat) : (61 : UInt8) ∉ decimal entries :=
  fun member => absurd (decimal_digits entries 61 member) (by decide)

theorem key_line_value {key : String} (plain : (61 : UInt8) ∉ ascii key.toList) (entries : Nat)
    (value : List UInt8) : strchr 61 (keyLine key entries value) = some value := by
  apply strchr_key
  rw [List.mem_append, not_or]
  exact ⟨plain, equals_not_mem_decimal entries⟩

theorem file_line_value (entries : Nat) (value : List UInt8) :
    strchr 61 ((keyLine "File" entries value).drop 4) = some value :=
  strchr_key (equals_not_mem_decimal entries) value

def nonEmpty (value : Option (List UInt8)) : Option (List UInt8) :=
  value.filter fun text => !text.isEmpty

def giveStored (original item : PlaylistItem) : PlaylistItem :=
  { item with
    title := (nonEmpty original.title).or item.title
    tracknumber := (nonEmpty original.tracknumber).or item.tracknumber
    artist := (nonEmpty original.artist).or item.artist
    album := (nonEmpty original.album).or item.album }

theorem value_line_read {key : String} {get : PlaylistItem → Option (List UInt8)}
    {set : Option (List UInt8) → PlaylistItem → PlaylistItem}
    (other : ∀ value, (ascii "File".toList).isPrefixOf (keyLine key entries value) = false)
    (reads : ∀ value it, readValue (keyLine key entries value) it =
      set (strchrnext 61 (keyLine key entries value)) it)
    (keeps : ∀ it, set (get it) it = it) (plain : (61 : UInt8) ∉ ascii key.toList)
    (folder : List UInt8) (items : List PlaylistItem) (it : Nat) (value : Option (List UInt8)) :
    (valueLine key entries value).foldl (readCacheLine folder) (items, some it) =
      (items.modify it fun item => set ((nonEmpty value).or (get item)) item, some it) := by
  have unchanged : items = items.modify it fun item => set (none.or (get item)) item := by
    simp only [Option.none_or, keeps]
    exact (List.modify_id it items).symm
  rcases value with _ | _ | ⟨byte, text⟩
  · exact congrArg (·, some it) unchanged
  · exact congrArg (·, some it) unchanged
  · have line : readValue (keyLine key entries (byte :: text)) =
        fun item => set (some (byte :: text)) item := by
      funext item
      rw [reads, strchrnext, key_line_value plain]
      rfl
    change readCacheLine folder (items, some it) (keyLine key entries (byte :: text)) = _
    rw [readCacheLine, other]
    exact congrArg (fun change => (items.modify it change, some it)) line

theorem values_read (folder : List UInt8) (items : List PlaylistItem) (it : Nat)
    (i : PlaylistItem) :
    (valueLine "Title" entries i.title ++ valueLine "Tracknumber" entries i.tracknumber ++
      valueLine "Artist" entries i.artist ++ valueLine "Album" entries i.album).foldl
        (readCacheLine folder) (items, some it) = (items.modify it (giveStored i), some it) := by
  simp only [List.foldl_append]
  rw [@value_line_read entries "Title" PlaylistItem.title (fun title it => { it with title })
      (fun _ => rfl) (fun _ _ => rfl) (fun _ => rfl) (by decide +kernel),
    @value_line_read entries "Tracknumber" PlaylistItem.tracknumber
      (fun tracknumber it => { it with tracknumber })
      (fun _ => rfl) (fun _ _ => rfl) (fun _ => rfl) (by decide +kernel),
    @value_line_read entries "Artist" PlaylistItem.artist (fun artist it => { it with artist })
      (fun _ => rfl) (fun _ _ => rfl) (fun _ => rfl) (by decide +kernel),
    @value_line_read entries "Album" PlaylistItem.album (fun album it => { it with album })
      (fun _ => rfl) (fun _ _ => rfl) (fun _ => rfl) (by decide +kernel)]
  simp only [List.modify_modify_eq]
  rfl

theorem value_line_ignored {key : String}
    (other : ∀ value, (ascii "File".toList).isPrefixOf (keyLine key entries value) = false)
    (folder : List UInt8) (items : List PlaylistItem) (value : Option (List UInt8)) :
    (valueLine key entries value).foldl (readCacheLine folder) (items, none) = (items, none) := by
  rcases value with _ | _ | ⟨byte, text⟩
  · rfl
  · rfl
  · change readCacheLine folder (items, none) (keyLine key entries (byte :: text)) = _
    rw [readCacheLine, other]
    rfl

theorem values_ignored (folder : List UInt8) (items : List PlaylistItem) (i : PlaylistItem) :
    (valueLine "Title" entries i.title ++ valueLine "Tracknumber" entries i.tracknumber ++
      valueLine "Artist" entries i.artist ++ valueLine "Album" entries i.album).foldl
        (readCacheLine folder) (items, none) = (items, none) := by
  simp only [List.foldl_append]
  rw [value_line_ignored (fun _ => rfl), value_line_ignored (fun _ => rfl),
    value_line_ignored (fun _ => rfl), value_line_ignored (fun _ => rfl)]

/-! ## Items -/

theorem in_folder_iff {folder name : List UInt8} (inFolder : folder.isPrefixOf name = true)
    (other : List UInt8) :
    (folder.isPrefixOf other && other.drop folder.length == name.drop folder.length) = true ↔
      other = name := by
  obtain ⟨rest, rfl⟩ := List.isPrefixOf_iff_prefix.mp inFolder
  rw [Bool.and_eq_true, beq_iff_eq, List.isPrefixOf_iff_prefix, List.drop_left]
  constructor
  · rintro ⟨⟨more, rfl⟩, same⟩
    rw [← same, List.drop_left]
  · rintro rfl
    exact ⟨List.prefix_append folder rest, List.drop_left⟩

/-- File names are distinct, so that what changes the first item of a name changes all of them. -/
theorem modify_found {items : List PlaylistItem} (distinct : (items.map (·.filename)).Nodup)
    {name : List UInt8} {found : PlaylistItem → Bool}
    (same : ∀ item, found item = true ↔ item.filename = name)
    (change : PlaylistItem → PlaylistItem) :
    ((items.findIdx? found).elim items fun it => items.modify it change) =
      items.map fun item => if item.filename = name then change item else item := by
  induction items with
  | nil => rfl
  | cons item items ih =>
      obtain ⟨absent, distinct⟩ := List.nodup_cons.mp distinct
      rw [List.findIdx?_cons, List.map_cons]
      by_cases here : item.filename = name
      · have others : items.map (fun item => if item.filename = name then change item else item) =
            items := by
          refine (List.map_congr_left fun other member => ?_).trans (List.map_id items)
          exact if_neg fun equal =>
            absent (List.mem_map.mpr ⟨other, member, equal.trans here.symm⟩)
        rw [if_pos ((same item).mpr here), if_pos here, others]
        rfl
      · rw [if_neg (fun yes => here ((same item).mp yes)), if_neg here, ← ih distinct]
        cases items.findIdx? found <;> rfl

/-- The items after the lines of one that was stored. A file name that is the folder is not read. -/
theorem entry_read {folder : List UInt8} {items : List PlaylistItem}
    (distinct : (items.map (·.filename)).Nodup) {original : PlaylistItem}
    (inFolder : folder.isPrefixOf original.filename = true) (entries : Nat) (it : Option Nat) :
    ((entryLines entries (original.filename.drop folder.length) original).foldl
        (readCacheLine folder) (items, it)).1 =
      items.map fun item => if original.filename ≠ folder ∧ item.filename = original.filename then
        giveStored original item else item := by
  have file : readCacheLine folder (items, it)
      (keyLine "File" entries (original.filename.drop folder.length)) =
        (items, (strchrnext 61 ((keyLine "File" entries
          (original.filename.drop folder.length)).drop 4)).bind fun filename =>
            items.findIdx? fun i =>
              folder.isPrefixOf i.filename && i.filename.drop folder.length == filename) := rfl
  have same := in_folder_iff inFolder
  rw [entryLines, List.foldl_cons, file, strchrnext, file_line_value]
  cases name : original.filename.drop folder.length with
  | nil =>
      have whole : original.filename = folder := by
        obtain ⟨rest, shape⟩ := List.isPrefixOf_iff_prefix.mp inFolder
        rw [← shape, List.drop_left] at name
        rw [← shape, name, List.append_nil]
      have unchanged : ∀ item ∈ items, (if original.filename ≠ folder ∧
          item.filename = original.filename then giveStored original item else item) = item :=
        fun item _ => if_neg fun both => both.1 whole
      rw [List.map_congr_left unchanged, List.map_id']
      exact congrArg Prod.fst (values_ignored folder items original)
  | cons byte rest =>
      have proper : original.filename ≠ folder := by
        intro whole
        rw [whole, List.drop_length] at name
        cases name
      rw [name] at same
      simp only [proper, ne_eq, not_false_eq_true, true_and]
      rw [← modify_found distinct fun item => same item.filename]
      simp only [Option.filter, List.isEmpty_cons, Bool.not_false, if_true, Option.bind_some]
      cases items.findIdx? fun i =>
          folder.isPrefixOf i.filename && i.filename.drop folder.length == byte :: rest with
      | none => exact congrArg Prod.fst (values_ignored folder items original)
      | some found => exact congrArg Prod.fst (values_read folder items found original)

end Lines

/-! ## The file -/

section File

variable {folder : List UInt8} {originals items : List PlaylistItem}

def storedLines (folder : List UInt8) : Nat → List PlaylistItem → List (List UInt8)
  | _, [] => []
  | entries, i :: rest =>
      if isStored folder i then
        entryLines (entries + 1) (i.filename.drop folder.length) i ++
          storedLines folder (entries + 1) rest
      else storedLines folder entries rest

theorem print_lines_append (first second : List (List UInt8)) :
    printLines (first ++ second) = printLines first ++ printLines second := List.flatMap_append

theorem store_loop_more (originals : List PlaylistItem) {entries : Nat} (opened : 0 < entries)
    (f : List UInt8) : storeLoop folder true originals entries f =
      some (entries + originals.countP (isStored folder),
        f ++ printLines (storedLines folder entries originals)) := by
  induction originals generalizing entries f with
  | nil => simp [storeLoop, storedLines, printLines]
  | cons i rest ih =>
      rw [storeLoop, storedLines, List.countP_cons]
      by_cases stored : isStored folder i = true
      · have count : entries + 1 + rest.countP (isStored folder) =
            entries + (rest.countP (isStored folder) + 1) := by omega
        rw [if_pos stored, if_neg (by omega), if_pos stored, if_pos stored, ih (Nat.succ_pos _),
          print_lines_append, if_neg (by omega), List.append_assoc, count]
      · rw [if_neg stored, if_neg stored, if_neg stored, ih opened]
        rfl

theorem store_loop_first (originals : List PlaylistItem)
    (some' : 0 < originals.countP (isStored folder)) : storeLoop folder true originals 0 [] =
      some (originals.countP (isStored folder),
        printLines (playlistLine :: storedLines folder 0 originals)) := by
  induction originals with
  | nil => cases some'
  | cons i rest ih =>
      rw [storeLoop, storedLines, List.countP_cons]
      rw [List.countP_cons] at some'
      by_cases stored : isStored folder i = true
      · rw [if_pos stored, if_neg (by simp), if_pos stored, if_pos stored,
          store_loop_more rest (Nat.succ_pos 0), if_pos (by decide), List.append_assoc,
          ← print_lines_append, ← print_lines_append, Nat.add_comm]
        rfl
      · rw [if_neg stored] at some'
        rw [if_neg stored, if_neg stored, if_neg stored, ih some']
        rfl

theorem store_loop_none (canOpen : Bool) (originals : List PlaylistItem)
    (none' : originals.countP (isStored folder) = 0) :
    storeLoop folder canOpen originals 0 [] = some (0, []) := by
  induction originals with
  | nil => rfl
  | cons i rest ih =>
      rw [List.countP_cons] at none'
      rw [storeLoop, if_neg (fun stored => by rw [if_pos stored] at none'; omega)]
      exact ih (by omega)

/-! ## The round trip -/

def readBack (folder : List UInt8) (originals : List PlaylistItem) (item : PlaylistItem) :
    PlaylistItem :=
  match originals.find? fun original => original.filename == item.filename with
  | some original =>
      if isStored folder original = true ∧ original.filename ≠ folder then giveStored original item
      else item
  | none => item

theorem read_back_absent {item : PlaylistItem}
    (absent : item.filename ∉ originals.map (·.filename)) :
    readBack folder originals item = item := by
  have missing : originals.find? (fun original => original.filename == item.filename) = none := by
    rw [List.find?_eq_none]
    intro original member same
    exact absent (List.mem_map.mpr ⟨original, member, beq_iff_eq.mp same⟩)
  rw [readBack, missing]

theorem read_back_cons {i : PlaylistItem} (absent : i.filename ∉ originals.map (·.filename))
    (item : PlaylistItem) :
    readBack folder (i :: originals) item =
      readBack folder originals
        (if isStored folder i = true ∧ i.filename ≠ folder ∧ item.filename = i.filename then
          giveStored i item else item) := by
  by_cases same : item.filename = i.filename
  · have given : (if isStored folder i = true ∧ i.filename ≠ folder ∧
        item.filename = i.filename then giveStored i item else item).filename = i.filename := by
      split_ifs
      · exact same
      · exact same
    have first : (i :: originals).find? (fun original => original.filename == item.filename) =
        some i := List.find?_cons_of_pos (beq_iff_eq.mpr same.symm)
    rw [read_back_absent (by rwa [given] : _ ∉ originals.map (·.filename)), readBack, first]
    simp only [same, and_true]
  · have later : (i :: originals).find? (fun original => original.filename == item.filename) =
        originals.find? fun original => original.filename == item.filename :=
      List.find?_cons_of_neg fun equal => same (beq_iff_eq.mp equal).symm
    rw [if_neg (fun all => same all.2.2), readBack, readBack, later]

theorem stored_read (distinct : (items.map (·.filename)).Nodup)
    (distinctOriginals : (originals.map (·.filename)).Nodup) (entries : Nat) (it : Option Nat) :
    ((storedLines folder entries originals).foldl (readCacheLine folder) (items, it)).1 =
      items.map (readBack folder originals) := by
  induction originals generalizing items entries it with
  | nil => exact (List.map_id items).symm
  | cons i rest ih =>
      obtain ⟨absent, others⟩ := List.nodup_cons.mp distinctOriginals
      rw [storedLines]
      simp only [funext (read_back_cons absent)]
      by_cases stored : isStored folder i = true
      · have inFolder : folder.isPrefixOf i.filename = true := by
          rw [isStored, Bool.and_eq_true] at stored
          exact stored.1
        have entry := entry_read distinct inFolder (entries + 1) it
        rw [if_pos stored, List.foldl_append]
        generalize (entryLines (entries + 1) (i.filename.drop folder.length) i).foldl
          (readCacheLine folder) (items, it) = after at entry
        obtain ⟨after, next⟩ := after
        dsimp only at entry
        have names : after.map (·.filename) = items.map (·.filename) := by
          rw [entry, List.map_map]
          refine List.map_congr_left fun item _ => ?_
          simp only [Function.comp_apply]
          split_ifs <;> rfl
        rw [ih (names ▸ distinct) others, entry, List.map_map]
        simp only [stored, true_and]
        rfl
      · rw [if_neg stored, ih distinct others]
        simp only [stored]
        rfl

theorem clean_decimal (value : Nat) : CleanText (decimal value) := by
  intro byte member
  have digits := decimal_digits value byte member
  refine ⟨?_, ?_, ?_⟩ <;> rintro rfl <;> exact absurd digits (by decide)

theorem clean_key_line {key : String} (plain : CleanText (ascii key.toList)) (entries : Nat)
    {value : List UInt8} (clean : CleanText value) : CleanText (keyLine key entries value) := by
  intro byte member
  rw [keyLine, List.mem_append, List.mem_append, List.mem_cons] at member
  rcases member with (inKey | digit) | rfl | inValue
  · exact plain byte inKey
  · exact clean_decimal entries byte digit
  · decide
  · exact clean byte inValue

theorem clean_value_line {key : String} (plain : CleanText (ascii key.toList)) (entries : Nat)
    {value : Option (List UInt8)} (clean : ∀ text ∈ value, CleanText text) :
    ∀ line ∈ valueLine key entries value, CleanText line := by
  rcases value with _ | _ | ⟨byte, text⟩
  · exact nofun
  · exact nofun
  · intro line member
    rw [List.mem_singleton.mp member]
    exact clean_key_line plain entries (clean _ rfl)

structure CleanItem (i : PlaylistItem) : Prop where
  filename : CleanText i.filename
  title : ∀ text ∈ i.title, CleanText text
  tracknumber : ∀ text ∈ i.tracknumber, CleanText text
  artist : ∀ text ∈ i.artist, CleanText text
  album : ∀ text ∈ i.album, CleanText text

theorem clean_stored_lines (clean : ∀ i ∈ originals, CleanItem i) (entries : Nat) :
    ∀ line ∈ storedLines folder entries originals, CleanText line := by
  induction originals generalizing entries with
  | nil => exact nofun
  | cons i rest ih =>
      have others := ih (fun other later => clean other (List.mem_cons_of_mem i later))
      obtain ⟨filename, title, tracknumber, artist, album⟩ := clean i List.mem_cons_self
      rw [storedLines]
      split_ifs
      · intro line member
        rw [List.mem_append, entryLines, List.mem_cons, List.mem_append, List.mem_append,
          List.mem_append] at member
        rcases member with (rfl | ((first | second) | third) | fourth) | later
        · exact clean_key_line (by decide +kernel) _
            fun byte inside => filename byte (List.mem_of_mem_drop inside)
        · exact clean_value_line (by decide +kernel) _ title line first
        · exact clean_value_line (by decide +kernel) _ tracknumber line second
        · exact clean_value_line (by decide +kernel) _ artist line third
        · exact clean_value_line (by decide +kernel) _ album line fourth
        · exact others _ line later
      · exact others entries

theorem clean_last_lines (entries : Nat) : ∀ line ∈ lastLines entries, CleanText line := by
  intro line member
  rw [lastLines, List.mem_cons, List.mem_singleton] at member
  rcases member with rfl | rfl
  · intro byte inside
    rcases List.mem_append.mp inside with inKey | digit
    · have plain : CleanText (ascii "NumberOfEntries=".toList) := by decide +kernel
      exact plain byte inKey
    · exact clean_decimal entries byte digit
  · decide +kernel

theorem last_lines_read (entries : Nat) (state : List PlaylistItem × Option Nat) :
    ((lastLines entries).foldl (readCacheLine folder) state).1 = state.1 := by
  obtain ⟨items, it⟩ := state
  cases it with
  | none => rfl
  | some it =>
      change (items.modify it id).modify it id = items
      rw [List.modify_id, List.modify_id]

end File

/-! ## Storing and reading -/

/-- Two implicit playlists of the same files in a folder, the second without metadata. -/
structure SameFiles (folder : List UInt8) (this fresh : MediaPlaylist) : Prop where
  implicit : this.origin = .implicit ∧ fresh.origin = .implicit
  folders : this.folder = some folder ∧ fresh.folder = some folder
  distinct : (this.items.map (·.filename)).Nodup
  clean : ∀ i ∈ this.items, CleanItem i
  files : (fresh.items.map (·.filename)).Perm (this.items.map (·.filename))
  unset : ∀ i ∈ fresh.items, i.tracknumber = none ∧ i.artist = none ∧ i.album = none

/-- An item with exactly the metadata that was stored; what is empty stays unset. -/
def withMetadata (original item : PlaylistItem) : PlaylistItem :=
  { item with
    title := (nonEmpty original.title).or item.title
    tracknumber := nonEmpty original.tracknumber
    artist := nonEmpty original.artist
    album := nonEmpty original.album }

/-- What a playlist gives to an item of the same file: its metadata, if it is in the folder and has
an artist or an album. -/
def restored (folder : List UInt8) (originals : List PlaylistItem) (item : PlaylistItem) :
    PlaylistItem :=
  match originals.find? fun original => original.filename == item.filename with
  | some original =>
      if isStored folder original = true ∧ original.filename ≠ folder then
        withMetadata original item
      else item
  | none => item

theorem read_back_unset (folder : List UInt8) (originals : List PlaylistItem)
    {item : PlaylistItem}
    (unset : item.tracknumber = none ∧ item.artist = none ∧ item.album = none) :
    readBack folder originals item = restored folder originals item := by
  have exactly' : ∀ original, giveStored original item = withMetadata original item := by
    intro original
    obtain ⟨noTracknumber, noArtist, noAlbum⟩ := unset
    unfold giveStored withMetadata
    simp only [noTracknumber, noArtist, noAlbum, Option.or_none]
  unfold readBack restored
  simp only [exactly']

theorem store_cache_eq {folder : List UInt8} {this : MediaPlaylist} (canOpen : Bool)
    (file : Option (List UInt8)) (implicit : this.origin = .implicit)
    (root : this.folder = some folder) :
    storeCache true this canOpen file = match storeLoop folder canOpen this.items 0 [] with
      | some (entries, f) =>
          if 0 < entries then (true, some (f ++ printLines (lastLines entries))) else (false, file)
      | none => (false, file) := by
  rw [storeCache, root]
  exact if_pos ⟨rfl, implicit⟩

theorem read_cache_items {folder f : List UInt8} {this : MediaPlaylist}
    (readLines : List UInt8 → List (List UInt8)) (implicit : this.origin = .implicit)
    (root : this.folder = some folder) :
    (readCache readLines true this (some f)).2.items =
      ((readLines f).foldl (readCacheLine folder) (this.items, none)).1 := by
  rw [readCache, root]
  exact congrArg (fun result : Bool × MediaPlaylist => result.2.items) (if_pos ⟨rfl, implicit⟩)

/-- If an item is stored, a playlist of the same files gets the metadata back; if none is, the file
stays what it was. -/
theorem cache_round_trip {readLines : List UInt8 → List (List UInt8)}
    (reads : ReadsLines readLines) {folder : List UInt8} {this fresh : MediaPlaylist}
    (same : SameFiles folder this fresh) (file : Option (List UInt8)) :
    if ∃ i ∈ this.items, isStored folder i = true then
      (readCache readLines true fresh (storeCache true this true file).2).2.items =
        fresh.items.map (restored folder this.items)
    else (storeCache true this true file).2 = file := by
  obtain ⟨implicit, folders, distinct, clean, files, unset⟩ := same
  rw [store_cache_eq true file implicit.1 folders.1]
  split_ifs with some'
  · have entries : 0 < this.items.countP (isStored folder) := List.countP_pos_iff.mpr some'
    have lines := reads (playlistLine :: storedLines folder 0 this.items ++
      lastLines (this.items.countP (isStored folder))) (by
        intro line member
        rcases List.mem_append.mp member with first | last
        · rcases List.mem_cons.mp first with rfl | stored
          · decide +kernel
          · exact clean_stored_lines clean 0 line stored
        · exact clean_last_lines _ line last)
    rw [print_lines_append] at lines
    have heading : readCacheLine folder (fresh.items, none) playlistLine = (fresh.items, none) := rfl
    rw [store_loop_first _ entries]
    simp only [if_pos entries]
    rw [read_cache_items readLines implicit.2 folders.2, lines, List.foldl_append, last_lines_read,
      List.foldl_cons, heading, stored_read (files.nodup_iff.mpr distinct) distinct]
    exact List.map_congr_left fun item member => read_back_unset folder _ (unset item member)
  · have none' : this.items.countP (isStored folder) = 0 := by
      rw [List.countP_eq_zero]
      exact fun i member stored => some' ⟨i, member, stored⟩
    rw [store_loop_none true _ none']
    rfl

theorem lines_of_reads : ReadsLines fun text => (linesOf [] text).1 := by
  intro lines clean
  exact lines_of_written fun line member inside => (clean line member lf inside).2.2 rfl

def song : PlaylistItem :=
  PlaylistItem.ofPath (ascii "a.mp3".toList) (ascii "/music/".toList) none

def album (artist : Option (List UInt8)) : MediaPlaylist where
  origin := .implicit
  folder := some (ascii "/music/".toList)
  items := [{ song with artist }]

theorem same_album {artist : Option (List UInt8)} (clean : ∀ text ∈ artist, CleanText text) :
    SameFiles (ascii "/music/".toList) (album artist) (album none) where
  implicit := ⟨rfl, rfl⟩
  folders := ⟨rfl, rfl⟩
  distinct := List.nodup_singleton _
  clean := by
    intro i member
    rw [List.mem_singleton.mp member]
    have filename : CleanText song.filename := by decide +kernel
    have title : ∀ text ∈ song.title, CleanText text := by decide +kernel
    exact ⟨filename, title, nofun, clean, nofun⟩
  files := List.Perm.refl _
  unset := by
    intro i member
    rw [List.mem_singleton.mp member]
    exact ⟨rfl, rfl, rfl⟩

/-- An artist whose name looks like a key comes back. -/
theorem cache_round_trip_album :
    (readCache (fun text => (linesOf [] text).1) true (album none)
      (storeCache true (album (some (ascii "File1=b".toList))) true none).2).2.items =
        (album none).items.map (restored (ascii "/music/".toList)
          (album (some (ascii "File1=b".toList))).items) := by
  have trip := cache_round_trip lines_of_reads
    (same_album (by decide +kernel : ∀ text ∈ some (ascii "File1=b".toList), CleanText text)) none
  rwa [if_pos ⟨_, List.mem_singleton_self _, by decide +kernel⟩] at trip

/-- Nothing is stored, and what an older cache says is read. -/
theorem stale_cache_is_read : ¬∀ (readLines : List UInt8 → List (List UInt8)) (folder : List UInt8)
    (this fresh : MediaPlaylist) (file : Option (List UInt8)), ReadsLines readLines →
      SameFiles folder this fresh →
        (readCache readLines true fresh (storeCache true this true file).2).2.items =
          fresh.items.map (restored folder this.items) := by
  intro all
  have claimed := all (fun text => (linesOf [] text).1) (ascii "/music/".toList) (album none)
    (album none) (some (printLines [ascii "File1=a.mp3".toList, ascii "Artist1=b".toList]))
    lines_of_reads (same_album nofun)
  exact absurd claimed (by decide +kernel)

end Xineliboutput.Playlist
