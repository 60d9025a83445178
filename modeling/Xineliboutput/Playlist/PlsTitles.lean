import Xineliboutput.Playlist.ReadPlaylist

/-!
# Titles of a `.pls` file

Which items a `.pls` file adds, for every text, and which titles they have where each title is in
place: after the file of its number and in front of any other line with a file, or before it with no
other file in between.
-/

namespace Xineliboutput.Playlist

open Xineliboutput.Foundation Xineliboutput.Server

set_option autoImplicit false

/-! ## What is added -/

/-- The lines of a `.pls` file and what they add, from a number of files on: a song for each file, the
list that is read for each playlist, until the list is long enough. -/
inductive PlsAdded {Entry : Type} (song : Int → List UInt8 → Entry → Prop)
    (listed : List UInt8 → Nat → List Entry → Prop) :
    List (List UInt8) → Nat → List Entry → Prop where
  | full {lines : List (List UInt8)} {n : Nat} (full : maxPlaylistFiles ≤ n) :
      PlsAdded song listed lines n []
  | done (n : Nat) : PlsAdded song listed [] n []
  | other {line : List UInt8} {lines : List (List UInt8)} {n : Nat} {added : List Entry}
      (room : n < maxPlaylistFiles) (none' : plsValue line = none)
      (rest : PlsAdded song listed lines n added) : PlsAdded song listed (line :: lines) n added
  | file {line : List UInt8} {lines : List (List UInt8)} {n : Nat} {added : List Entry}
      {number : Int} {value : List UInt8} {entry : Entry}
      (room : n < maxPlaylistFiles) (said : plsLine line = .file number value) (some' : value ≠ [])
      (plain : isPlaylistFile value = false) (here : song number value entry)
      (rest : PlsAdded song listed lines (n + 1) added) :
      PlsAdded song listed (line :: lines) n (entry :: added)
  | playlist {line : List UInt8} {lines : List (List UInt8)} {n more : Nat}
      {list added : List Entry} {number : Int} {value : List UInt8}
      (room : n < maxPlaylistFiles) (said : plsLine line = .file number value) (some' : value ≠ [])
      (playlist : isPlaylistFile value = true) (read : listed value more list)
      (rest : PlsAdded song listed lines (n + more) added) :
      PlsAdded song listed (line :: lines) n (list ++ added)

def plainItem (folder : List UInt8) (number : Int) (value : List UInt8) : PlaylistItem :=
  ({ Reader.opened .pls with position := number }).item folder value

def SongName (folder : List UInt8) (number : Int) (value : List UInt8)
    (name : List UInt8 × Int) : Prop := name = (plainItem folder number value).name

def TitleOf (text : List (List UInt8)) (number : Int) (title : Option (List UInt8)) : Prop :=
  ∃ line ∈ text, ∃ value, plsLine line = .title number value ∧ title = some value

/-- The title is that of a line with the same number, or there is none in the file. -/
def SongItem (folder : List UInt8) (text : List (List UInt8)) (number : Int) (value : List UInt8)
    (item : PlaylistItem) : Prop :=
  ∃ title, item = { plainItem folder number value with title } ∧
    (title = (plainItem folder number value).title ∨ TitleOf text number title)

def ListedNames (nested : List UInt8 → List PlaylistItem → Option (Nat × List PlaylistItem))
    (folder value : List UInt8) (more : Nat) (names : List (List UInt8 × Int)) : Prop :=
  ∃ items all, nested (nestedPath folder value) items = some (more, all) ∧
    all.map PlaylistItem.name = items.map PlaylistItem.name ++ names

/-- What a playlist in the list adds, after any items, which it leaves alone. -/
def ListedItems (nested : List UInt8 → List PlaylistItem → Option (Nat × List PlaylistItem))
    (folder value : List UInt8) (more : Nat) (list : List PlaylistItem) : Prop :=
  ∀ items, nested (nestedPath folder value) items = some (more, items ++ list)

/-! ## Files and positions -/

section Files

variable {nested : List UInt8 → List PlaylistItem → Option (Nat × List PlaylistItem)}
  {folder line value : List UInt8} {lines : List (List UInt8)} {n found : Nat} {reader : Reader}
  {items all : List PlaylistItem}

theorem pls_value_some (value' : plsValue line = some value) :
    ∃ number, plsLine line = .file number value ∧ value ≠ [] := by
  unfold plsValue at value'
  split at value'
  · next number text said =>
      split_ifs at value' with none'
      cases value'
      exact ⟨number, said, none'⟩
  · cases value'
  · cases value'

theorem parse_file {number : Int} (pls : reader.kind = .pls)
    (said : plsLine line = .file number value) (items : List PlaylistItem) :
    reader.parse items line =
      some ({ reader with current := number, position := number }, items) := by
  obtain ⟨kind, title, position, next, current⟩ := reader
  cases pls
  simp only [Reader.parse, parsePls, said]

theorem item_position (title : Option (List UInt8)) (position next current : Int)
    (kind : ReaderKind) (folder pt : List UInt8) :
    (Reader.item ⟨kind, title, position, next, current⟩ folder pt).position = position := by
  unfold Reader.item
  dsimp only
  split_ifs <;> rfl

theorem item_name (title : Option (List UInt8)) (position next current : Int) (kind : ReaderKind)
    (folder pt : List UInt8) :
    (Reader.item ⟨kind, title, position, next, current⟩ folder pt).name =
      (plainItem folder position pt).name := by
  unfold plainItem Reader.item PlaylistItem.name
  dsimp only
  split_ifs <;> rfl

theorem pls_names (adds : Adds nested) (pls : reader.kind = .pls)
    (ran : readLoop nested folder lines n reader items = some (found, all)) :
    ∃ names, all.map PlaylistItem.name = items.map PlaylistItem.name ++ names ∧
      PlsAdded (SongName folder) (ListedNames nested folder) lines n names := by
  induction lines generalizing n reader items with
  | nil =>
      cases ran
      exact ⟨[], (List.append_nil _).symm, .done _⟩
  | cons line lines ih =>
      by_cases room : n < maxPlaylistFiles
      · obtain ⟨parsed, isParsed, onward | ⟨pt, given, playlist, more, read, onward⟩ |
          ⟨pt, given, plain, onward⟩⟩ := loop_cons room ran
        · obtain ⟨sameNames, sameKind⟩ := parse_names isParsed
          obtain ⟨names, same, added⟩ := ih (sameKind.trans pls) onward.2
          rw [pls] at onward
          exact ⟨names, by rw [same, sameNames], .other room onward.1 added⟩
        · obtain ⟨sameNames, sameKind⟩ := parse_names isParsed
          have resetKind : parsed.1.resetCache.kind = .pls := sameKind.trans pls
          obtain ⟨names, same, added⟩ := ih resetKind onward
          obtain ⟨list, listed⟩ := adds _ _ _ _ read
          rw [pls] at given
          obtain ⟨number, said, some'⟩ := pls_value_some given
          exact ⟨list ++ names, by rw [same, listed, sameNames, List.append_assoc],
            .playlist room said some' playlist ⟨_, _, read, listed⟩ added⟩
        · obtain ⟨sameNames, sameKind⟩ := parse_names isParsed
          have resetKind : parsed.1.resetCache.kind = .pls := sameKind.trans pls
          obtain ⟨names, same, added⟩ := ih resetKind onward
          rw [pls] at given
          obtain ⟨number, said, some'⟩ := pls_value_some given
          rw [parse_file pls said] at isParsed
          cases isParsed
          refine ⟨(plainItem folder number pt).name :: names, ?_, .file room said some' plain rfl added⟩
          rw [same, List.map_append, List.append_assoc]
          exact congrArg (fun name => items.map PlaylistItem.name ++ (name :: names))
            (item_name reader.title number reader.next number reader.kind folder pt)
      · rw [loop_full room] at ran
        cases ran
        exact ⟨[], (List.append_nil _).symm, .full (Nat.le_of_not_lt room)⟩

end Files

/-! ## Titles in place -/

/-- What the lines so far leave for a title: the number of the last file, whether that file is the
last item, and the number of a title without an item. -/
structure PlsPlace where
  current : Int
  own : Bool
  pending : Option Int

/-- A title with the number of the last file has its item, and one that waits has its number. -/
def plsInPlace : PlsPlace → List (List UInt8) → Bool
  | _, [] => true
  | place, line :: lines =>
      match plsLine line with
      | .other => plsInPlace place lines
      | .title number _ =>
          if number = place.current then place.own && plsInPlace place lines
          else plsInPlace { place with pending := some number } lines
      | .file number value =>
          if value = [] then plsInPlace { place with current := number, own := false } lines
          else if isPlaylistFile value then plsInPlace ⟨number, false, none⟩ lines
          else place.pending.all (· == number) && plsInPlace ⟨number, true, none⟩ lines

section Titles

variable {nested : List UInt8 → List PlaylistItem → Option (Nat × List PlaylistItem)}
  {folder line : List UInt8} {text lines : List (List UInt8)} {n : Nat} {reader : Reader}

/-- An item whose title may have been given by a line with its number. -/
def Retitled (text : List (List UInt8)) (before after : PlaylistItem) : Prop :=
  ∃ title, after = { before with title } ∧
    (title = before.title ∨ TitleOf text before.position title)

theorem Retitled.refl (text : List (List UInt8)) (item : PlaylistItem) : Retitled text item item :=
  ⟨item.title, rfl, Or.inl rfl⟩

theorem Retitled.step {before after : PlaylistItem} {title : Option (List UInt8)}
    (given : TitleOf text before.position title)
    (later : Retitled text { before with title } after) : Retitled text before after := by
  obtain ⟨last, rfl, same | other⟩ := later
  · exact ⟨last, rfl, Or.inr (same ▸ given)⟩
  · exact ⟨last, rfl, Or.inr other⟩

theorem Retitled.song {number : Int} {value : List UInt8} {before after : PlaylistItem}
    (later : Retitled text before after) (song : SongItem folder text number value before) :
    SongItem folder text number value after := by
  have position : (plainItem folder number value).position = number :=
    item_position _ _ _ _ _ _ _
  obtain ⟨title, rfl, before⟩ := song
  obtain ⟨last, rfl, same | other⟩ := later
  · exact ⟨last, rfl, same ▸ before⟩
  · refine ⟨last, rfl, Or.inr ?_⟩
    rwa [← position]

theorem item_song {number : Int} {title : Option (List UInt8)} (next current : Int)
    (kind : ReaderKind) (pt : List UInt8) (given : ∀ value, title = some value → TitleOf text number title) :
    SongItem folder text number pt (Reader.item ⟨kind, title, number, next, current⟩ folder pt) := by
  cases title with
  | none =>
      refine ⟨(plainItem folder number pt).title, ?_, Or.inl rfl⟩
      unfold plainItem Reader.item
      dsimp only
      split_ifs <;> rfl
  | some value =>
      refine ⟨some value, ?_, Or.inr (given value rfl)⟩
      unfold plainItem Reader.item
      dsimp only
      split_ifs <;> rfl

/-- How the reader and the last item stand to what the lines have left. -/
structure PlsState (text : List (List UInt8)) (place : PlsPlace) (reader : Reader)
    (last : Option PlaylistItem) : Prop where
  kind : reader.kind = .pls
  current : reader.current = place.current
  own : place.own = true → ∃ item, last = some item ∧ item.position = place.current
  pending : ∀ value, reader.title = some value →
    ∃ number, place.pending = some number ∧ TitleOf text number (some value)

theorem retitle_last_append (items : List PlaylistItem) (item : PlaylistItem)
    (title : Option (List UInt8)) :
    retitleLast (items ++ [item]) title = some (items ++ [{ item with title }]) := by
  rw [retitleLast, List.getLast?_concat, List.dropLast_concat]
  rfl

/-- From here on the items so far are left alone, but for the title of the last one. -/
def ReadsOn (nested : List UInt8 → List PlaylistItem → Option (Nat × List PlaylistItem))
    (folder : List UInt8) (text lines : List (List UInt8)) (n : Nat) (reader : Reader)
    (last : Option PlaylistItem) : Prop :=
  ∃ found last' added,
    (∀ items, readLoop nested folder lines n reader (items ++ last.toList) =
      some (found, items ++ (last'.toList ++ added))) ∧
    Option.Rel (Retitled text) last last' ∧
    PlsAdded (SongItem folder text) (ListedItems nested folder) lines n added

theorem retitled_refl (text : List (List UInt8)) (last : Option PlaylistItem) :
    Option.Rel (Retitled text) last last := by
  cases last with
  | none => exact .none
  | some item => exact .some (.refl text item)

theorem ReadsOn.keep (found : Nat) {added : List PlaylistItem}
    (runs : ∀ items, readLoop nested folder lines n reader items = some (found, items ++ added))
    (adds : PlsAdded (SongItem folder text) (ListedItems nested folder) lines n added)
    (last : Option PlaylistItem) : ReadsOn nested folder text lines n reader last :=
  ⟨found, last, added, fun items => by rw [runs, List.append_assoc], retitled_refl text last, adds⟩

theorem ReadsOn.of_none (rest : ReadsOn nested folder text lines n reader none) :
    ∃ found added,
      (∀ items, readLoop nested folder lines n reader items = some (found, items ++ added)) ∧
      PlsAdded (SongItem folder text) (ListedItems nested folder) lines n added := by
  obtain ⟨found, last, added, runs, same, adds⟩ := rest
  cases same
  exact ⟨found, added, fun items => by simpa using runs items, adds⟩

theorem ReadsOn.of_some {item : PlaylistItem}
    (rest : ReadsOn nested folder text lines n reader (some item)) :
    ∃ found last added,
      (∀ items, readLoop nested folder lines n reader (items ++ [item]) =
        some (found, items ++ last :: added)) ∧
      Retitled text item last ∧
      PlsAdded (SongItem folder text) (ListedItems nested folder) lines n added := by
  obtain ⟨found, last, added, runs, same, adds⟩ := rest
  cases same with
  | some retitled => exact ⟨found, _, added, runs, retitled, adds⟩

theorem ReadsOn.without_file {after : Reader} {last next : Option PlaylistItem} (pls : reader.kind = .pls)
    (room : n < maxPlaylistFiles) (none' : plsValue line = none)
    (parsed : ∀ items, reader.parse (items ++ last.toList) line =
      some (after, items ++ next.toList))
    (given : ∀ last', Option.Rel (Retitled text) next last' → Option.Rel (Retitled text) last last')
    (rest : ReadsOn nested folder text lines n after next) :
    ReadsOn nested folder text (line :: lines) n reader last := by
  obtain ⟨found, last', added, runs, same, adds⟩ := rest
  have value : reader.kind.value line = none := by rw [pls]; exact none'
  exact ⟨found, last', added, fun items => by rw [loop_line room (parsed items) value, runs],
    given last' same, .other room none' adds⟩

section FileLines

variable {number : Int} {value : List UInt8} {last : Option PlaylistItem}

theorem pls_value_file (said : plsLine line = .file number value) (some' : value ≠ []) :
    plsValue line = some value := by
  rw [plsValue, said]
  exact if_neg some'

theorem ReadsOn.empty_file (pls : reader.kind = .pls) (room : n < maxPlaylistFiles)
    (said : plsLine line = .file number [])
    (rest : ReadsOn nested folder text lines n { reader with current := number, position := number }
      none) :
    ReadsOn nested folder text (line :: lines) n reader last := by
  obtain ⟨found, added, runs, adds⟩ := rest.of_none
  have noValue : plsValue line = none := by
    rw [plsValue, said]
    rfl
  refine .keep found (fun items => ?_) (.other room noValue adds) last
  rw [loop_line room (parse_file pls said items) (by rw [pls]; exact noValue), runs]

theorem ReadsOn.playlist {more : Nat} {list : List PlaylistItem} (pls : reader.kind = .pls)
    (room : n < maxPlaylistFiles) (said : plsLine line = .file number value) (some' : value ≠ [])
    (playlist : isPlaylistFile value = true) (listed : ListedItems nested folder value more list)
    (rest : ReadsOn nested folder text lines (n + more)
      (Reader.resetCache { reader with current := number, position := number }) none) :
    ReadsOn nested folder text (line :: lines) n reader last := by
  obtain ⟨found, added, runs, adds⟩ := rest.of_none
  have value' : reader.kind.value line = some value := by
    rw [pls]
    exact pls_value_file said some'
  refine .keep found (fun items => ?_) (.playlist room said some' playlist listed adds) last
  rw [loop_playlist room (parse_file pls said items) value' playlist (listed items), runs,
    List.append_assoc]

theorem ReadsOn.song (pls : reader.kind = .pls) (room : n < maxPlaylistFiles)
    (said : plsLine line = .file number value) (some' : value ≠ [])
    (plain : isPlaylistFile value = false)
    (song : SongItem folder text number value
      (Reader.item { reader with current := number, position := number } folder value))
    (rest : ReadsOn nested folder text lines (n + 1)
      (Reader.resetCache { reader with current := number, position := number })
      (some (Reader.item { reader with current := number, position := number } folder value))) :
    ReadsOn nested folder text (line :: lines) n reader last := by
  obtain ⟨found, item, added, runs, titled, adds⟩ := rest.of_some
  have value' : reader.kind.value line = some value := by
    rw [pls]
    exact pls_value_file said some'
  refine .keep found (fun items => ?_) (.file room said some' plain (titled.song song) adds) last
  rw [loop_song room (parse_file pls said items) value' plain, runs]

end FileLines

theorem pls_titles {place : PlsPlace} {last : Option PlaylistItem}
    (within : ∀ line ∈ lines, line ∈ text) (state : PlsState text place reader last)
    (inPlace : plsInPlace place lines = true)
    (framed : ∀ line ∈ lines, ∀ value, plsValue line = some value → isPlaylistFile value = true →
      ∃ more list, ListedItems nested folder value more list) :
    ReadsOn nested folder text lines n reader last := by
  induction lines generalizing n reader place last with
  | nil => exact .keep n (fun items => by rw [List.append_nil]; rfl) (.done n) last
  | cons line lines ih =>
      by_cases room : n < maxPlaylistFiles
      · have within' : ∀ other ∈ lines, other ∈ text :=
          fun other later => within other (List.mem_cons_of_mem line later)
        have framed' : ∀ other ∈ lines, ∀ value, plsValue other = some value →
            isPlaylistFile value = true → ∃ more list, ListedItems nested folder value more list :=
          fun other later => framed other (List.mem_cons_of_mem line later)
        obtain ⟨kind, title, position, next, currentNumber⟩ := reader
        obtain ⟨pls, current, own, pending⟩ := state
        cases pls
        rw [plsInPlace] at inPlace
        cases said : plsLine line with
        | other =>
            rw [said] at inPlace
            have parsed : ∀ items, Reader.parse ⟨.pls, title, position, next, currentNumber⟩ items
                line = some (⟨.pls, title, position, next, currentNumber⟩, items) := by
              intro items
              simp only [Reader.parse, parsePls, said]
            exact .without_file rfl room (by rw [plsValue, said]) (fun items => parsed _)
              (fun _ same => same) (ih within' ⟨rfl, current, own, pending⟩ inPlace framed')
        | title number value =>
            rw [said] at inPlace
            have gives : TitleOf text number (some value) :=
              ⟨line, within line List.mem_cons_self, value, said, rfl⟩
            by_cases here : number = place.current
            · -- The last item has this number, and it is in the list.
              simp only [if_pos here, Bool.and_eq_true] at inPlace
              obtain ⟨item, rfl, numbered⟩ := own inPlace.1
              have parsed : ∀ items, Reader.parse ⟨.pls, title, position, next, currentNumber⟩
                  (items ++ [item]) line = some (⟨.pls, title, position, next, currentNumber⟩,
                    items ++ [{ item with title := some value }]) := by
                intro items
                simp only [Reader.parse, parsePls, said, retitle_last_append]
                exact if_pos (here.trans current.symm)
              have titled : PlsState text place ⟨.pls, title, position, next, currentNumber⟩
                  (some { item with title := some value }) :=
                ⟨rfl, current, fun _ => ⟨_, rfl, numbered⟩, pending⟩
              refine .without_file rfl room (by rw [plsValue, said]) (fun items => ?_) ?_
                (ih within' titled inPlace.2 framed')
              · exact parsed items
              · intro last' same
                cases same with
                | some later => exact .some (.step (by rw [numbered, ← here]; exact gives) later)
            · simp only [if_neg here] at inPlace
              have parsed : ∀ items, Reader.parse ⟨.pls, title, position, next, currentNumber⟩ items
                  line = some (⟨.pls, some value, position, next, currentNumber⟩, items) := by
                intro items
                simp only [Reader.parse, parsePls, said]
                exact if_neg fun same => here (same.trans current)
              have waits : PlsState text { place with pending := some number }
                  ⟨.pls, some value, position, next, currentNumber⟩ last :=
                ⟨rfl, current, own, fun text' same => ⟨number, rfl, same ▸ gives⟩⟩
              exact .without_file rfl room (by rw [plsValue, said]) (fun items => parsed _)
                (fun _ same => same) (ih within' waits inPlace framed')
        | file number value =>
            rw [said] at inPlace
            by_cases none' : value = []
            · simp only [if_pos none'] at inPlace
              rw [none'] at said
              have empty : PlsState text { place with current := number, own := false }
                  ⟨.pls, title, number, next, number⟩ none := ⟨rfl, rfl, nofun, pending⟩
              exact .empty_file rfl room said (ih within' empty inPlace framed')
            · simp only [if_neg none'] at inPlace
              cases playlist : isPlaylistFile value with
              | true =>
                  rw [playlist] at inPlace
                  obtain ⟨more, list, listed⟩ := framed line List.mem_cons_self value
                    (pls_value_file said none') playlist
                  have reset : PlsState text ⟨number, false, none⟩
                      (Reader.resetCache ⟨.pls, title, number, next, number⟩) none :=
                    ⟨rfl, rfl, nofun, nofun⟩
                  exact .playlist rfl room said none' playlist listed
                    (ih within' reset inPlace framed')
              | false =>
                  rw [playlist] at inPlace
                  simp only [Bool.false_eq_true, if_false, Bool.and_eq_true] at inPlace
                  -- The title that waits has the number of this file.
                  have song : SongItem folder text number value
                      (Reader.item ⟨.pls, title, number, next, number⟩ folder value) := by
                    refine item_song next number .pls value fun text' same => ?_
                    obtain ⟨waiting, place', gives⟩ := pending text' same
                    have equal := inPlace.1
                    rw [place'] at equal
                    rw [same, ← beq_iff_eq.mp equal]
                    exact gives
                  have numbered : PlsState text ⟨number, true, none⟩
                      (Reader.resetCache ⟨.pls, title, number, next, number⟩)
                      (some (Reader.item ⟨.pls, title, number, next, number⟩ folder value)) :=
                    ⟨rfl, rfl, fun _ => ⟨_, rfl, item_position _ _ _ _ _ _ _⟩, nofun⟩
                  exact .song rfl room said none' playlist song
                    (ih within' numbered inPlace.2 framed')
      · exact .keep n (fun items => by rw [loop_full room, List.append_nil])
          (.full (Nat.le_of_not_lt room)) last

end Titles

end Xineliboutput.Playlist
