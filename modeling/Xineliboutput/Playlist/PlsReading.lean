import Xineliboutput.Playlist.PlsTitles

/-!
# Reading a `.pls` file

A playlist whose titles are in place, and those of the playlists in it, leaves the items alone that
the list had before. For a `.pls` file this says what it adds, with titles, wherever it is read.
-/

namespace Xineliboutput.Playlist

open Xineliboutput.Foundation Xineliboutput.Server

set_option autoImplicit false

/-! ## Other readers -/

def asxInPlace : Bool → Bool → List (List UInt8) → Bool
  | _, _, [] => true
  | titled, own, line :: lines =>
      match asxValue line with
      | some value => if isPlaylistFile value then asxInPlace false own lines
          else asxInPlace false true lines
      | none =>
          if ((asxTitle line).1.isSome || titled) && asxEntry line then
            own && asxInPlace false own lines
          else asxInPlace ((asxTitle line).1.isSome || titled) own lines

def ReaderKind.inPlace (lines : List (List UInt8)) : ReaderKind → Bool
  | .m3u => true
  | .pls => plsInPlace ⟨0, false, none⟩ lines
  | .asx => asxInPlace false false lines

/-- The titles of a playlist are in place, and of every playlist that is read in it. -/
def titlesInPlace (files : Files) : Nat → List UInt8 → Bool
  | 0, _ => true
  | left + 1, file =>
      match files file with
      | none => true
      | some lines =>
          (readerKind file).inPlace lines && lines.all fun line =>
            ((readerKind file).value line).all fun value => !isPlaylistFile value ||
              titlesInPlace files left (nestedPath (folderOf file) value)

section Framed

variable {nested : List UInt8 → List PlaylistItem → Option (Nat × List PlaylistItem)}
  {folder line pt : List UInt8} {lines : List (List UInt8)} {n : Nat} {reader after : Reader}
  {kept next : List PlaylistItem}

def Framed (nested : List UInt8 → List PlaylistItem → Option (Nat × List PlaylistItem))
    (folder : List UInt8) (lines : List (List UInt8)) (n : Nat) (reader : Reader)
    (kept : List PlaylistItem) : Prop :=
  ∃ found kept', ∀ items,
    readLoop nested folder lines n reader (items ++ kept) = some (found, items ++ kept')

theorem Framed.without_file (room : n < maxPlaylistFiles) (none' : reader.kind.value line = none)
    (parsed : ∀ items, reader.parse (items ++ kept) line = some (after, items ++ next))
    (rest : Framed nested folder lines n after next) :
    Framed nested folder (line :: lines) n reader kept := by
  obtain ⟨found, last, runs⟩ := rest
  exact ⟨found, last, fun items => by rw [loop_line room (parsed items) none', runs]⟩

theorem Framed.playlist {more : Nat} {list : List PlaylistItem} (room : n < maxPlaylistFiles)
    (given : reader.kind.value line = some pt) (playlist : isPlaylistFile pt = true)
    (listed : ListedItems nested folder pt more list)
    (parsed : ∀ items, reader.parse items line = some (after, items))
    (rest : Framed nested folder lines (n + more) after.resetCache (kept ++ list)) :
    Framed nested folder (line :: lines) n reader kept := by
  obtain ⟨found, last, runs⟩ := rest
  refine ⟨found, last, fun items => ?_⟩
  rw [loop_playlist room (parsed _) given playlist (listed _), List.append_assoc, runs]

theorem Framed.song (room : n < maxPlaylistFiles) (given : reader.kind.value line = some pt)
    (plain : isPlaylistFile pt = false)
    (parsed : ∀ items, reader.parse items line = some (after, items))
    (rest : Framed nested folder lines (n + 1) after.resetCache (kept ++ [after.item folder pt])) :
    Framed nested folder (line :: lines) n reader kept := by
  obtain ⟨found, last, runs⟩ := rest
  refine ⟨found, last, fun items => ?_⟩
  rw [loop_song room (parsed _) given plain, List.append_assoc, runs]

theorem Framed.full (full : ¬n < maxPlaylistFiles) :
    Framed nested folder lines n reader kept :=
  ⟨n, kept, fun _ => loop_full full _ _ _⟩

/-- The playlists of the lines leave the items alone that the list had before. -/
def ListsFramed (nested : List UInt8 → List PlaylistItem → Option (Nat × List PlaylistItem))
    (folder : List UInt8) (kind : ReaderKind) (lines : List (List UInt8)) : Prop :=
  ∀ line ∈ lines, ∀ value, kind.value line = some value → isPlaylistFile value = true →
    ∃ more list, ListedItems nested folder value more list

theorem ListsFramed.tail {kind : ReaderKind}
    (framed : ListsFramed nested folder kind (line :: lines)) :
    ListsFramed nested folder kind lines :=
  fun other later => framed other (List.mem_cons_of_mem line later)

theorem m3u_framed (m3u : reader.kind = .m3u) (framed : ListsFramed nested folder .m3u lines) :
    Framed nested folder lines n reader kept := by
  induction lines generalizing n reader kept with
  | nil => exact ⟨n, kept, fun _ => rfl⟩
  | cons line lines ih =>
      by_cases room : n < maxPlaylistFiles
      · have parsed : ∀ items, reader.parse items line = some (parseM3u reader line, items) := by
          intro items
          simp only [Reader.parse, m3u]
        have same : (parseM3u reader line).kind = .m3u := by
          unfold parseM3u
          split_ifs <;> exact m3u
        have same' : (parseM3u reader line).resetCache.kind = .m3u := same
        cases value : ReaderKind.m3u.value line with
        | none =>
            exact .without_file room (by rw [m3u, value]) (fun items => parsed _) (ih same framed.tail)
        | some pt =>
            cases playlist : isPlaylistFile pt with
            | true =>
                obtain ⟨more, list, listed⟩ := framed line List.mem_cons_self pt value playlist
                exact .playlist room (by rw [m3u, value]) playlist listed parsed (ih same' framed.tail)
            | false => exact .song room (by rw [m3u, value]) playlist parsed (ih same' framed.tail)
      · exact .full room

theorem asx_framed {own : Bool} (asx : reader.kind = .asx)
    (inPlace : asxInPlace reader.title.isSome own lines = true) (kept' : own = true → kept ≠ [])
    (framed : ListsFramed nested folder .asx lines) :
    Framed nested folder lines n reader kept := by
  induction lines generalizing n reader kept own with
  | nil => exact ⟨n, kept, fun _ => rfl⟩
  | cons line lines ih =>
      by_cases room : n < maxPlaylistFiles
      · obtain ⟨kind, title, position, next, current⟩ := reader
        cases asx
        rw [asxInPlace] at inPlace
        cases value : asxValue line with
        | some pt =>
            have parsed : ∀ items, Reader.parse ⟨.asx, title, position, next, current⟩ items line =
                some (⟨.asx, title, position, next, current⟩, items) := by
              intro items
              simp only [Reader.parse, parseAsx, value, Option.isSome_some, if_true]
            simp only [value] at inPlace
            cases playlist : isPlaylistFile pt with
            | true =>
                rw [playlist] at inPlace
                obtain ⟨more, list, listed⟩ := framed line List.mem_cons_self pt value playlist
                exact .playlist room value playlist listed parsed
                  (ih rfl inPlace (fun yes => by simp [kept' yes]) framed.tail)
            | false =>
                rw [playlist] at inPlace
                exact .song room value playlist parsed
                  (ih rfl inPlace (fun _ => by simp) framed.tail)
        | none =>
            have isTitled : (Reader.asxTitled ⟨.asx, title, position, next, current⟩ line).title.isSome =
                ((asxTitle line).1.isSome || title.isSome) := Option.isSome_or
            simp only [value, ← isTitled] at inPlace
            by_cases entry : ((Reader.asxTitled ⟨.asx, title, position, next, current⟩
                line).title.isSome && asxEntry line) = true
            · -- The list has an item of its own for the title.
              rw [if_pos entry, Bool.and_eq_true] at inPlace
              obtain rfl | ⟨before, last, rfl⟩ := List.eq_nil_or_concat kept
              · exact absurd rfl (kept' inPlace.1)
              have parsed : ∀ items, Reader.parse ⟨.asx, title, position, next, current⟩
                  (items ++ before.concat last) line =
                    some (⟨.asx, none, position, next, current⟩, items ++ (before ++
                      [{ last with title := (asxTitle line).1.or title }])) := by
                intro items
                rw [List.concat_eq_append, ← List.append_assoc, ← List.append_assoc]
                simp only [Reader.parse, parseAsx, value, Option.isSome_none, Bool.false_eq_true,
                  if_false, if_pos entry, retitle_last_append]
                rfl
              exact .without_file room value parsed
                (ih rfl inPlace.2 (fun _ => by simp) framed.tail)
            · rw [if_neg entry] at inPlace
              have parsed : ∀ items, Reader.parse ⟨.asx, title, position, next, current⟩ items line =
                  some (Reader.asxTitled ⟨.asx, title, position, next, current⟩ line, items) := by
                intro items
                simp only [Reader.parse, parseAsx, value, Option.isSome_none, Bool.false_eq_true,
                  if_false, if_neg entry]
              exact .without_file room value (fun items => parsed _)
                (ih rfl inPlace kept' framed.tail)
      · exact .full room

end Framed

/-! ## Playlists in playlists -/

section Nested

variable {files : Files}

theorem lists_framed_of_in_place {left : Nat} {file : List UInt8} {lines : List (List UInt8)}
    (nestedFramed : ∀ path, titlesInPlace files left path = true → ∃ more list,
      ∀ items, readNested files left path items = some (more, items ++ list))
    (opened : files file = some lines) (inPlace : titlesInPlace files (left + 1) file = true) :
    (readerKind file).inPlace lines = true ∧
      ListsFramed (readNested files left) (folderOf file) (readerKind file) lines := by
  rw [titlesInPlace, opened] at inPlace
  simp only [Bool.and_eq_true, List.all_eq_true] at inPlace
  refine ⟨inPlace.1, fun line member value given playlist => ?_⟩
  have place := inPlace.2 line member
  rw [given] at place
  simp only [Option.all_some, playlist, Bool.not_true, Bool.false_or] at place
  exact nestedFramed _ place

theorem pls_state_opened (text : List (List UInt8)) :
    PlsState text ⟨0, false, none⟩ (.opened .pls) none :=
  ⟨rfl, rfl, nofun, nofun⟩

theorem nested_framed (left : Nat) (path : List UInt8)
    (inPlace : titlesInPlace files left path = true) : ∃ more list,
      ∀ items, readNested files left path items = some (more, items ++ list) := by
  induction left generalizing path with
  | zero => exact ⟨0, [], fun items => by rw [List.append_nil]; rfl⟩
  | succ left ih =>
      cases opened : files path with
      | none =>
          refine ⟨0, [], fun items => ?_⟩
          rw [readNested, openPlaylist, opened, List.append_nil]
      | some lines =>
          obtain ⟨titles, lists⟩ := lists_framed_of_in_place ih opened inPlace
          have runs : Framed (readNested files left) (folderOf path) lines 0
              (.opened (readerKind path)) [] := by
            cases kind : readerKind path with
            | m3u =>
                rw [kind] at lists
                exact m3u_framed rfl lists
            | asx =>
                rw [kind] at lists titles
                exact asx_framed rfl titles nofun lists
            | pls =>
                rw [kind] at lists titles
                obtain ⟨found, list, runs, -⟩ := (pls_titles (fun line member => member)
                  (pls_state_opened lines) titles lists).of_none
                exact ⟨found, list, fun items => by rw [List.append_nil]; exact runs items⟩
          obtain ⟨found, list, runs⟩ := runs
          refine ⟨found, list, fun items => ?_⟩
          rw [readNested, openPlaylist, opened]
          simpa using runs items

/-- Reading a `.pls` file: unless an item is missing, the list is only added to, and what is added
are the files of the text with their numbers and the lists of the playlists in their places, until
there are enough. If the titles are in place, no item is missing, the items of the list before keep
their titles, and a title that is in the file belongs to the number of its item. -/
theorem pls_reading {left : Nat} {file : List UInt8} {lines : List (List UInt8)}
    (pls : readerKind file = .pls) (opened : files file = some lines)
    (items : List PlaylistItem) :
    (∀ found all, readPlaylist files left file items = some (found, all) →
      ∃ names, all.map PlaylistItem.name = items.map PlaylistItem.name ++ names ∧
        PlsAdded (SongName (folderOf file)) (ListedNames (readNested files left) (folderOf file))
          lines 0 names) ∧
    (titlesInPlace files (left + 1) file = true →
      ∃ found added, readPlaylist files left file items = some (found, items ++ added) ∧
        PlsAdded (SongItem (folderOf file) lines)
          (ListedItems (readNested files left) (folderOf file)) lines 0 added) := by
  have reads : readPlaylist files left file items =
      readLoop (readNested files left) (folderOf file) lines 0 (.opened .pls) items := by
    rw [readPlaylist, openPlaylist, opened, pls]
  rw [reads]
  constructor
  · intro found all ran
    exact pls_names (read_nested_names files left) rfl ran
  · intro inPlace
    obtain ⟨titles, lists⟩ := lists_framed_of_in_place (nested_framed left) opened inPlace
    rw [pls] at titles lists
    obtain ⟨found, added, runs, adds⟩ := (pls_titles (fun line member => member)
      (pls_state_opened lines) titles lists).of_none
    exact ⟨found, added, runs items, adds⟩

/-- The title of a number that no item has. -/
example : readPlaylist (fun _ => some [ascii "Title0=x".toList]) maxDepth
    (ascii "/l.pls".toList) [] = none := by
  decide +kernel

def twoSongs : List (List UInt8) :=
  ["[playlist]", "Title2=b", "File2=/b.mp3", "File1=/a.mp3", "Title1=a"].map fun line =>
    ascii line.toList

theorem pls_reading_two_songs : ∃ found added,
    readPlaylist (fun _ => some twoSongs) maxDepth (ascii "/l.pls".toList) [] =
      some (found, [] ++ added) ∧
    PlsAdded (SongItem (folderOf (ascii "/l.pls".toList)) twoSongs)
      (ListedItems (readNested (fun _ => some twoSongs) maxDepth)
        (folderOf (ascii "/l.pls".toList))) twoSongs 0 added :=
  (pls_reading (by decide +kernel : readerKind (ascii "/l.pls".toList) = .pls) rfl []).2
    (by decide +kernel)

/-- Playlists of a playlist each, from `/0.pls` on, and of a song in the end. -/
def chain : Files
  | 47 :: digit :: extension =>
      if extension = ascii ".pls".toList then
        if digit < 54 then
          some [ascii "File1=/".toList ++ (digit + 1) :: ascii ".pls".toList]
        else some [ascii "File1=/a.mp3".toList]
      else none
  | _ => none

/-- The song at the end of the chain is in the list of the second playlist, but not in that of the
first, where it is too deep. -/
theorem deep_playlist_skipped : ¬∀ (files : Files) (file : List UInt8) (lines : List (List UInt8))
    (items : List PlaylistItem), readerKind file = .pls → files file = some lines →
      ∃ found added, readPlaylist files maxDepth file items = some (found, items ++ added) ∧
        PlsAdded (SongItem (folderOf file) lines)
          (ListedItems (readPlaylist files maxDepth) (folderOf file)) lines 0 added := by
  intro all
  obtain ⟨found, added, ran, adds⟩ := all chain (ascii "/0.pls".toList)
    [ascii "File1=/1.pls".toList] [] (by decide +kernel) (by decide +kernel)
  have first : readPlaylist chain maxDepth (ascii "/0.pls".toList) [] = some (0, []) := by
    decide +kernel
  have second : readPlaylist chain maxDepth (ascii "/1.pls".toList) [] =
      some (1, [plainItem (ascii "/6.pls".toList) 1 (ascii "/a.mp3".toList)]) := by
    decide +kernel
  have value : plsValue (ascii "File1=/1.pls".toList) = some (ascii "/1.pls".toList) := by
    decide +kernel
  have nothing : added = [] := by
    rw [first, Option.some.injEq, Prod.mk.injEq, List.nil_append] at ran
    exact ran.2.symm
  cases adds with
  | full full => exact absurd full (by decide)
  | other _ none' => exact absurd (none'.symm.trans value) nofun
  | file _ said some' plain =>
      have same := Option.some.inj ((pls_value_file said some').symm.trans value)
      rw [same] at plain
      exact absurd plain (by decide +kernel)
  | playlist _ said some' _ read =>
      have same := Option.some.inj ((pls_value_file said some').symm.trans value)
      have alone := read []
      rw [same] at alone
      have path : nestedPath (folderOf (ascii "/0.pls".toList)) (ascii "/1.pls".toList) =
          ascii "/1.pls".toList := by decide +kernel
      rw [path, second, Option.some.injEq, Prod.mk.injEq, List.nil_append] at alone
      rw [← alone.2] at nothing
      cases nothing

end Nested

end Xineliboutput.Playlist
