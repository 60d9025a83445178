import Xineliboutput.Server.TrackMapRoundTrip

/-!
# The message of meta information

`send_meta_info` of `xine_input_vdr.c` sets the fields between `=@` and `@`, and the loop of
`METAINFO` in `InfoHandler` looks for these. A value ends at its first `@`, and a line ends
where the buffer of `printf_vdr` does.
-/

namespace Xineliboutput.Server

open Xineliboutput.Foundation

set_option autoImplicit false

/-- What `xine_get_meta_info` tells; NULL is the empty text. -/
structure StreamMeta where
  title : List UInt8
  artist : List UInt8
  album : List UInt8
  tracknumber : List UInt8

/-- `printf_vdr`: `buf` has 512 bytes. -/
def printfVdr (text : List UInt8) : List UInt8 := text.take (512 - 1)

/-- `send_meta_info` -/
def sendMetaInfo (info : StreamMeta) : List UInt8 :=
  printfVdr (ascii "INFO METAINFO title=@".toList ++ info.title ++ ascii "@ artist=@".toList ++
    info.artist ++ ascii "@ album=@".toList ++ info.album ++ ascii "@ tracknumber=@".toList ++
    info.tracknumber ++ ascii "@\r\n".toList)

def StreamMeta.calls (info : StreamMeta) : List DeviceCall :=
  [.setMetaInfo .title info.title, .setMetaInfo .artist info.artist,
    .setMetaInfo .album info.album, .setMetaInfo .tracknumber info.tracknumber]

/-! ## Fields -/

abbrev Field := List UInt8 × List UInt8

def StreamMeta.fields (info : StreamMeta) : List Field :=
  [(ascii "title".toList, info.title), (ascii "artist".toList, info.artist),
    (ascii "album".toList, info.album), (ascii "tracknumber".toList, info.tracknumber)]

def fieldText (field : Field) : List UInt8 :=
  32 :: (field.1 ++ 61 :: 64 :: (field.2 ++ [64]))

def fieldsText (fields : List Field) : List UInt8 := fields.flatMap fieldText

theorem send_meta_info_fields (info : StreamMeta) :
    (sendMetaInfo info).drop 5 =
      metainfoWord ++ ((fieldsText info.fields).take 498 ++
        [13, 10].take (498 - (fieldsText info.fields).length)) := by
  have title : ascii "INFO METAINFO title=@".toList =
      ascii "INFO ".toList ++ metainfoWord ++ 32 :: (ascii "title".toList ++ [61, 64]) := rfl
  have artist : ascii "@ artist=@".toList = 64 :: 32 :: (ascii "artist".toList ++ [61, 64]) := rfl
  have album : ascii "@ album=@".toList = 64 :: 32 :: (ascii "album".toList ++ [61, 64]) := rfl
  have tracknumber : ascii "@ tracknumber=@".toList =
      64 :: 32 :: (ascii "tracknumber".toList ++ [61, 64]) := rfl
  have last : ascii "@\r\n".toList = [64, 13, 10] := rfl
  have whole : sendMetaInfo info =
      (ascii "INFO ".toList ++ (metainfoWord ++ (fieldsText info.fields ++ [13, 10]))).take
        (5 + (8 + 498)) := by
    rw [sendMetaInfo, printfVdr, title, artist, album, tracknumber, last]
    simp [fieldsText, StreamMeta.fields, fieldText]
  have behind : (ascii "INFO ".toList).length = 5 := rfl
  have word : metainfoWord.length = 8 := rfl
  rw [whole, ← behind, List.take_length_add_append, List.drop_left, ← word,
    List.take_length_add_append, List.take_append]

/-! ## Separating -/

theorem split_once_byte {byte : UInt8} {value : List UInt8}
    (plain : ∀ other ∈ value, other ≠ byte) (rest : List UInt8) :
    splitOnce [byte] (value ++ byte :: rest) = some (value, rest) := by
  induction value with
  | nil => simp [splitOnce]
  | cons other value following =>
      have differs := plain other List.mem_cons_self
      rw [List.cons_append, splitOnce, following fun more inside =>
        plain more (List.mem_cons_of_mem other inside)]
      simp [differs.symm]

theorem split_once_name {name : List UInt8} (plain : ∀ byte ∈ name, byte ≠ 61)
    (rest : List UInt8) :
    splitOnce (ascii "=@".toList) (name ++ 61 :: 64 :: rest) = some (name, rest) := by
  induction name with
  | nil => rfl
  | cons other name following =>
      have differs := plain other List.mem_cons_self
      have word : ascii "=@".toList = [61, 64] := rfl
      rw [List.cons_append, splitOnce, following fun more inside =>
        plain more (List.mem_cons_of_mem other inside), word]
      simp [differs.symm]

theorem split_once_parts {word text before behind : List UInt8}
    (split : splitOnce word text = some (before, behind)) : text = before ++ word ++ behind := by
  induction text generalizing before with
  | nil =>
      unfold splitOnce at split
      split at split
      · rename_i empty
        cases split
        rw [empty]
        rfl
      · cases split
  | cons byte text following =>
      unfold splitOnce at split
      split at split
      · rename_i front
        cases split
        exact (List.prefix_iff_eq_append.mp (List.isPrefixOf_iff_prefix.mp front)).symm
      · rcases Option.map_eq_some_iff.mp split with ⟨⟨later, rest⟩, found, same⟩
        cases same
        rw [following found]
        rfl

theorem split_once_plain {byte : UInt8} {text before behind : List UInt8}
    (split : splitOnce [byte] text = some (before, behind)) : byte ∉ before := by
  induction text generalizing before with
  | nil => simp [splitOnce] at split
  | cons other text following =>
      unfold splitOnce at split
      split at split
      · cases split
        exact List.not_mem_nil
      · rename_i differs
        rcases Option.map_eq_some_iff.mp split with ⟨⟨later, rest⟩, found, same⟩
        cases same
        rw [List.mem_cons, not_or]
        constructor
        · intro first
          rw [first] at differs
          simp at differs
        · exact following found

/-! ## The loop -/

/-- What the loop keeps: no value contains `@`, and two of these are used up for each call. -/
structure MetaKept (signs : Nat) (loop : MetaLoop) : Prop where
  plain : ∀ kind value, DeviceCall.setMetaInfo kind value ∈ loop.calls → 64 ∉ value
  used : 2 * loop.calls.length + loop.map.count 64 ≤ signs

theorem meta_calls_cases (name value : List UInt8) :
    metaCalls name value = [] ∨ ∃ kind, metaCalls name value = [.setMetaInfo kind value] := by
  unfold metaCalls
  split_ifs
  · exact .inr ⟨.title, rfl⟩
  · exact .inr ⟨.tracknumber, rfl⟩
  · exact .inr ⟨.album, rfl⟩
  · exact .inr ⟨.artist, rfl⟩
  · exact .inl rfl

theorem meta_round_kept {signs : Nat} (loop : MetaLoop) (kept : MetaKept signs loop) :
    MetaKept signs (metaRound loop) := by
  have blanks : (skipBlanks loop.map).count 64 ≤ loop.map.count 64 :=
    (List.dropWhile_sublist _).count_le 64
  have used := kept.used
  unfold metaRound
  dsimp only
  cases named : splitOnce (ascii "=@".toList) (skipBlanks loop.map) with
  | none => exact ⟨kept.plain, by dsimp only; omega⟩
  | some parts =>
      dsimp only
      cases valued : splitOnce (ascii "@".toList) parts.2 with
      | none => exact ⟨kept.plain, by dsimp only; omega⟩
      | some found =>
          have plain : 64 ∉ found.1 := split_once_plain valued
          have signs : found.2.count 64 + 2 ≤ (skipBlanks loop.map).count 64 := by
            rw [split_once_parts named, split_once_parts valued]
            simp only [List.count_append]
            have both : (ascii "=@".toList).count 64 = 1 ∧ (ascii "@".toList).count 64 = 1 := by
              decide
            omega
          rcases meta_calls_cases parts.1 found.1 with none | ⟨kind, one⟩
          · constructor
            · dsimp only
              rw [none, List.append_nil]
              exact kept.plain
            · dsimp only
              rw [none, List.append_nil]
              omega
          · constructor
            · dsimp only
              rw [one]
              intro other value inside
              rcases List.mem_append.mp inside with before | added
              · exact kept.plain other value before
              · cases List.mem_singleton.mp added
                exact plain
            · dsimp only
              rw [one, List.length_append, List.length_singleton]
              omega

/-- A name that is neither empty nor broken, and a value that `@` can end. -/
structure Separable (field : Field) : Prop where
  named : ∀ byte ∈ field.1, byte ≠ 61 ∧ byte ≠ 64
  begins : ∃ byte rest, field.1 = byte :: rest ∧ byte ≠ 32
  plain : ∀ byte ∈ field.2, byte ≠ 64

theorem meta_round_field {field : Field} (separable : Separable field) (rest : List UInt8)
    (calls : List DeviceCall) :
    metaRound ⟨fieldText field ++ rest, false, calls⟩ =
      ⟨rest, false, calls ++ metaCalls field.1 field.2⟩ := by
  have text : fieldText field ++ rest = 32 :: (field.1 ++ 61 :: 64 :: (field.2 ++ 64 :: rest)) := by
    simp [fieldText]
  have blanks : skipBlanks (fieldText field ++ rest) =
      field.1 ++ 61 :: 64 :: (field.2 ++ 64 :: rest) := by
    rw [text, skip_blank]
    apply skip_blanks_plain
    rcases separable.begins with ⟨byte, name, shape, letter⟩
    rw [shape]
    intro blank
    exact letter (Option.some.inj blank)
  have sign : ascii "@".toList = [64] := rfl
  unfold metaRound
  dsimp only
  rw [blanks, split_once_name fun byte inside => (separable.named byte inside).1]
  dsimp only
  rw [sign, split_once_byte separable.plain]

theorem meta_loop_fields {fields : List Field} (separable : ∀ field ∈ fields, Separable field)
    {limit : Nat} (enough : fields.length ≤ limit) (calls : List DeviceCall) :
    whileWithin MetaLoop.goesOn metaRound limit ⟨fieldsText fields, false, calls⟩ =
      some ⟨[], false, calls ++ fields.flatMap fun field => metaCalls field.1 field.2⟩ := by
  induction fields generalizing limit calls with
  | nil =>
      rw [List.flatMap_nil, List.append_nil]
      exact while_within_done _ _ rfl
  | cons field fields following =>
      cases limit with
      | zero => cases enough
      | succ limit =>
          have goes : MetaLoop.goesOn ⟨fieldsText (field :: fields), false, calls⟩ = true := rfl
          rw [whileWithin, if_pos goes, fieldsText, List.flatMap_cons,
            meta_round_field (separable field List.mem_cons_self), ← fieldsText,
            following (fun other among => separable other (List.mem_cons_of_mem field among))
              (Nat.le_of_succ_le_succ enough), List.flatMap_cons, List.append_assoc]

/-- A field has two `@`, and ends with the second. -/
theorem field_text_signs {field : Field} (separable : Separable field) :
    (fieldText field).count 64 = 2 := by
  have name : field.1.count 64 = 0 :=
    List.count_eq_zero.mpr fun inside => (separable.named 64 inside).2 rfl
  have value : field.2.count 64 = 0 :=
    List.count_eq_zero.mpr fun inside => separable.plain 64 inside rfl
  simp [fieldText, name, value]

theorem fields_text_signs {fields : List Field} (separable : ∀ field ∈ fields, Separable field) :
    (fieldsText fields).count 64 = 2 * fields.length := by
  induction fields with
  | nil => rfl
  | cons field fields following =>
      rw [fieldsText, List.flatMap_cons, List.count_append, ← fieldsText,
        field_text_signs (separable field List.mem_cons_self),
        following fun other among => separable other (List.mem_cons_of_mem field among),
        List.length_cons]
      omega

theorem fields_text_last {fields : List Field} (listed : fields ≠ []) :
    ∃ front, fieldsText fields = front ++ [64] := by
  rcases List.eq_nil_or_concat fields with none | ⟨before, field, rfl⟩
  · exact absurd none listed
  · apply Exists.intro (fieldsText before ++ 32 :: (field.1 ++ 61 :: 64 :: field.2))
    simp [fieldsText, fieldText]

/-- In a text that is cut, one of the `@` is missing. -/
theorem cut_fields_signs {fields : List Field} (separable : ∀ field ∈ fields, Separable field)
    (listed : fields ≠ []) {room : Nat} (cut : room < (fieldsText fields).length) :
    ((fieldsText fields).take room).count 64 < 2 * fields.length := by
  rcases fields_text_last listed with ⟨front, shape⟩
  have whole := fields_text_signs separable
  rw [shape] at cut whole ⊢
  rw [List.length_append, List.length_singleton] at cut
  rw [List.count_append, List.count_singleton_self] at whole
  have part : ((front ++ [64]).take room).count 64 ≤ front.count 64 := by
    rw [List.take_append_of_le_length (Nat.le_of_lt_succ cut)]
    exact (List.take_sublist room front).count_le 64
  omega

/-! ## Round trip -/

/-- The handler calls `SetMetaInfo` for the four fields, with what the stream tells. -/
def MetaRoundTrip (info : StreamMeta) : Prop :=
  ∃ limit, infoHandler limit ((sendMetaInfo info).drop 5) = some info.calls

theorem field_names (info : StreamMeta) : ∀ field ∈ info.fields,
    (∀ byte ∈ field.1, byte ≠ 61 ∧ byte ≠ 64 ∧ byte ≠ 13) ∧ field.1.head?.any (· != 32) = true := by
  have names : ∀ name ∈ [ascii "title".toList, ascii "artist".toList, ascii "album".toList,
      ascii "tracknumber".toList],
      name.all (notByte 61) = true ∧ name.all (notByte 64) = true ∧
        name.all (notByte 13) = true ∧ name.head?.any (· != 32) = true := by
    decide
  intro field among
  rcases names field.1 (List.mem_map_of_mem among) with ⟨equals, sign, cr, begins⟩
  constructor
  · intro byte inside
    exact ⟨plain_of_all equals byte inside, plain_of_all sign byte inside,
      plain_of_all cr byte inside⟩
  · exact begins

theorem fields_separable {info : StreamMeta}
    (plain : ∀ field ∈ info.fields, ∀ byte ∈ field.2, byte ≠ 64) :
    ∀ field ∈ info.fields, Separable field := by
  intro field among
  rcases field_names info field among with ⟨named, begins⟩
  constructor
  · intro byte inside
    exact ⟨(named byte inside).1, (named byte inside).2.1⟩
  · cases shape : field.1 with
    | nil =>
        rw [shape] at begins
        cases begins
    | cons byte rest =>
        rw [shape] at begins
        exact ⟨byte, rest, rfl, bne_iff_ne.mp begins⟩
  · exact plain field among

theorem fields_text_unbroken {info : StreamMeta}
    (unbroken : ∀ field ∈ info.fields, ∀ byte ∈ field.2, byte ≠ 13) :
    ∀ byte ∈ fieldsText info.fields, notByte 13 byte = true := by
  intro byte inside
  rcases List.mem_flatMap.mp inside with ⟨field, among, within⟩
  apply not_byte_iff.mpr
  simp only [fieldText, List.mem_cons, List.mem_append, List.not_mem_nil, or_false] at within
  rcases within with rfl | name | rfl | rfl | value | rfl
  · decide
  · exact ((field_names info field among).1 byte name).2.2
  · decide
  · decide
  · exact unbroken field among byte value
  · decide

theorem info_handler_meta {info : StreamMeta}
    (unbroken : ∀ field ∈ info.fields, ∀ byte ∈ field.2, byte ≠ 13) (limit : Nat) :
    infoHandler limit ((sendMetaInfo info).drop 5) =
      (whileWithin MetaLoop.goesOn metaRound limit
        ⟨(fieldsText info.fields).take 498, false, []⟩).map MetaLoop.calls := by
  have whole : ∀ byte ∈ metainfoWord ++ (fieldsText info.fields).take 498,
      notByte 13 byte = true := by
    rw [List.forall_mem_append]
    constructor
    · exact List.all_eq_true.mp (by decide)
    · intro byte inside
      exact fields_text_unbroken unbroken byte (List.mem_of_mem_take inside)
  have line : ((sendMetaInfo info).drop 5).takeWhile (notByte 13) =
      metainfoWord ++ (fieldsText info.fields).take 498 := by
    rw [send_meta_info_fields, ← List.append_assoc]
    cases 498 - (fieldsText info.fields).length with
    | zero =>
        rw [List.take_zero, List.append_nil]
        exact List.takeWhile_eq_self_iff.mpr whole
    | succ room =>
        rw [List.take_succ_cons]
        exact keep_unbroken whole
  unfold infoHandler
  rw [line, send_meta_info_fields]
  rfl

theorem fields_text_length (info : StreamMeta) :
    (fieldsText info.fields).length = info.title.length + info.artist.length +
      info.album.length + info.tracknumber.length + 43 := by
  have names : (ascii "title".toList).length = 5 ∧ (ascii "artist".toList).length = 6 ∧
      (ascii "album".toList).length = 5 ∧ (ascii "tracknumber".toList).length = 11 := by
    decide
  simp only [fieldsText, StreamMeta.fields, List.flatMap_cons, List.flatMap_nil, fieldText,
    List.length_cons, List.length_append, List.length_nil]
  omega

/-- No value that is set contains `@`, and each takes two of them from the text. -/
theorem meta_round_trip_needs {info : StreamMeta}
    (unbroken : ∀ field ∈ info.fields, ∀ byte ∈ field.2, byte ≠ 13) (trip : MetaRoundTrip info) :
    (∀ field ∈ info.fields, ∀ byte ∈ field.2, byte ≠ 64) ∧
      (fieldsText info.fields).length ≤ 498 := by
  rcases trip with ⟨limit, handled⟩
  rw [info_handler_meta unbroken] at handled
  rcases Option.map_eq_some_iff.mp handled with ⟨final, ends, calls⟩
  have kept : MetaKept (((fieldsText info.fields).take 498).count 64) final := by
    apply while_within_invariant _ (fun loop _ kept => meta_round_kept loop kept) _ ends
    exact ⟨nofun, by simp⟩
  rw [StreamMeta.calls] at calls
  have called : ∀ field ∈ info.fields,
      ∃ kind, DeviceCall.setMetaInfo kind field.2 ∈ final.calls := by
    rw [calls, StreamMeta.fields]
    simp only [List.forall_mem_cons]
    exact ⟨⟨.title, by simp⟩, ⟨.artist, by simp⟩, ⟨.album, by simp⟩, ⟨.tracknumber, by simp⟩,
      nofun⟩
  have plain : ∀ field ∈ info.fields, ∀ byte ∈ field.2, byte ≠ 64 := by
    intro field among byte inside sign
    rcases called field among with ⟨kind, call⟩
    exact kept.plain kind field.2 call (sign ▸ inside)
  constructor
  · exact plain
  · by_contra long
    have cut := cut_fields_signs (fields_separable plain) (List.cons_ne_nil _ _)
      (Nat.lt_of_not_le long)
    have used := kept.used
    rw [calls] at used
    have four : info.fields.length = 4 := rfl
    simp only [List.length_cons, List.length_nil] at used
    omega

/-- The four fields come back exactly where none contains `@` and all together have at most 455
characters. -/
theorem meta_round_trip_iff (info : StreamMeta)
    (unbroken : ∀ field ∈ info.fields, ∀ byte ∈ field.2, byte ≠ 13) :
    MetaRoundTrip info ↔
      (∀ field ∈ info.fields, ∀ byte ∈ field.2, byte ≠ 64) ∧
        info.title.length + info.artist.length + info.album.length + info.tracknumber.length ≤
          455 := by
  have length := fields_text_length info
  constructor
  · intro trip
    rcases meta_round_trip_needs unbroken trip with ⟨plain, short⟩
    exact ⟨plain, by omega⟩
  · rintro ⟨plain, short⟩
    apply Exists.intro 4
    rw [info_handler_meta unbroken, List.take_of_length_le (by omega),
      meta_loop_fields (fields_separable plain) (Nat.le_refl 4)]
    rfl

/-- Blanks, equals signs and the names of the fields do no harm. -/
theorem meta_round_trip_names :
    MetaRoundTrip
      ⟨ascii "artist= title".toList, [], ascii "a = b".toList, ascii "1/2".toList⟩ := by
  apply (meta_round_trip_iff _ _).mpr
  · constructor
    · simp only [StreamMeta.fields, List.forall_mem_cons]
      exact ⟨plain_of_all (by decide), plain_of_all (by decide), plain_of_all (by decide),
        plain_of_all (by decide), nofun⟩
    · decide
  · simp only [StreamMeta.fields, List.forall_mem_cons]
    exact ⟨plain_of_all (by decide), plain_of_all (by decide), plain_of_all (by decide),
      plain_of_all (by decide), nofun⟩

/-- The title ends at its first `@`, and the artist is lost. -/
theorem title_with_at_sign :
    let info : StreamMeta := ⟨ascii "live@home".toList, ascii "x".toList, [], []⟩
    infoHandler 100 ((sendMetaInfo info).drop 5) =
        some [.setMetaInfo .title (ascii "live".toList), .setMetaInfo .album [],
          .setMetaInfo .tracknumber []] ∧
      ¬MetaRoundTrip info := by
  constructor
  · decide +kernel
  · intro trip
    have plain := (meta_round_trip_needs (by
      simp only [StreamMeta.fields, List.forall_mem_cons]
      exact ⟨plain_of_all (by decide), plain_of_all (by decide), plain_of_all (by decide),
        plain_of_all (by decide), nofun⟩) trip).1
    have title : (64 : UInt8) ∈ ascii "live@home".toList := by decide
    exact plain _ List.mem_cons_self 64 title rfl

end Xineliboutput.Server
