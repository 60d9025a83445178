import Xineliboutput.Osd.ArgbRleBounds
import Xineliboutput.Osd.RemoteCommand

/-!
# How far the decoders read

Each format of an image is read element by element, or line by line. What is read lies
inside the data unless the data ends within an element, or before a line, that the decoder
gets to.
-/

namespace Xineliboutput.Osd.Remote

open Xineliboutput.Osd.Rle

set_option autoImplicit false

/-- No access outside. A division by zero stops the client before it makes one. -/
def Inside {Value : Type} (result : Except Fault Value) : Prop :=
  ∀ fault, result = .error fault → fault = .division

section Inside

variable {Value Result : Type}

theorem inside_ok (value : Value) : Inside (Except.ok value : Except Fault Value) := by
  intro fault failed
  cases failed

theorem inside_error {fault : Fault} :
    Inside (Except.error fault : Except Fault Value) ↔ fault = .division := by
  constructor
  · intro inside
    exact inside fault rfl
  · rintro rfl other failed
    cases failed
    rfl

theorem inside_bind {value : Except Fault Value} {next : Value → Except Fault Result} :
    Inside (value >>= next) ↔ Inside value ∧ ∀ found, value = .ok found → Inside (next found) := by
  cases value with
  | error fault =>
      have same : Inside ((Except.error fault : Except Fault Value) >>= next) ↔
          fault = .division := inside_error
      rw [same, inside_error]
      constructor
      · intro division
        exact ⟨division, fun _ done => nomatch done⟩
      · exact And.left
  | ok value =>
      constructor
      · intro inside
        refine ⟨inside_ok value, ?_⟩
        rintro _ ⟨⟩
        exact inside
      · rintro ⟨-, inside⟩
        exact inside value rfl

theorem inside_map {value : Except Fault Value} (next : Value → Result) :
    Inside (value.map next) ↔ Inside value := by
  cases value with
  | error fault => exact inside_error.trans inside_error.symm
  | ok value => exact ⟨fun _ => inside_ok value, fun _ => inside_ok _⟩

theorem inside_check {fault : Fault} (outside : fault ≠ .division) {fails : Prop}
    [Decidable fails] {value : Except Fault Value} :
    Inside (if fails then .error fault else value) ↔ ¬ fails ∧ Inside value := by
  by_cases failed : fails
  · rw [if_pos failed, inside_error]
    simp [failed, outside]
  · rw [if_neg failed]
    simp [failed]

end Inside

/-! ## Elements from the network -/

def NetElement (bytes : List UInt8) : Prop :=
  ∃ first rest, bytes = first :: rest ∧
    rest.length = if first &&& 0x80 = 0 then 1 else 2

def netElement : List UInt8 → RleElem
  | [len, color] => ⟨len.toNat, color.toNat⟩
  | [high, low, color] => ⟨(high &&& 0x7f).toNat * 256 + low.toNat, color.toNat⟩
  | _ => ⟨0, 0⟩

def NetImage (elems : Nat) (raw : List UInt8) (elements : List RleElem) : Prop :=
  ∃ pieces : List (List UInt8), pieces.length = elems ∧ pieces.flatten <+: raw ∧
    (∀ piece ∈ pieces, NetElement piece) ∧ elements = pieces.map netElement

theorem net_image_zero (raw : List UInt8) (elements : List RleElem) :
    NetImage 0 raw elements ↔ elements = [] := by
  constructor
  · rintro ⟨pieces, none_, -, -, rfl⟩
    rw [List.length_eq_zero_iff.mp none_]
    rfl
  · rintro rfl
    exact ⟨[], rfl, List.nil_prefix, fun _ member => (by cases member), rfl⟩

theorem net_image_cons {elems : Nat} {piece raw : List UInt8} (element : NetElement piece)
    (elements : List RleElem) :
    NetImage (elems + 1) (piece ++ raw) elements ↔
      ∃ more, NetImage elems raw more ∧ elements = netElement piece :: more := by
  constructor
  · rintro ⟨pieces, count, inside, all, rfl⟩
    cases pieces with
    | nil => cases count
    | cons first pieces =>
        obtain ⟨byte, rest, rfl, length⟩ := element
        obtain ⟨byte', rest', rfl, length'⟩ := all first List.mem_cons_self
        rw [List.flatten_cons] at inside
        obtain ⟨left, whole⟩ := inside
        simp only [List.cons_append, List.append_assoc, List.cons.injEq] at whole
        obtain ⟨rfl, tails⟩ := whole
        obtain ⟨rfl, behind⟩ := List.append_inj tails (length'.trans length.symm)
        exact ⟨_, ⟨pieces, Nat.succ.inj count, ⟨left, behind⟩,
          fun other member => all other (List.mem_cons_of_mem _ member), rfl⟩, rfl⟩
  · rintro ⟨more, ⟨pieces, count, inside, all, rfl⟩, rfl⟩
    refine ⟨piece :: pieces, congrArg Nat.succ count, ?_, ?_, rfl⟩
    · rw [List.flatten_cons]
      exact (List.prefix_append_right_inj piece).mpr inside
    · intro other member
      rcases List.mem_cons.mp member with rfl | member
      · exact element
      · exact all other member

theorem net_image_short {elems : Nat} {raw : List UInt8}
    (short : ∀ first rest, raw = first :: rest →
      rest.length < if first &&& 0x80 = 0 then 1 else 2) (elements : List RleElem) :
    ¬ NetImage (elems + 1) raw elements := by
  rintro ⟨pieces, count, ⟨left, whole⟩, all, -⟩
  cases pieces with
  | nil => cases count
  | cons piece pieces =>
      obtain ⟨first, rest, rfl, length⟩ := all piece List.mem_cons_self
      have missing := short first (rest ++ (pieces.flatten ++ left)) (by
        rw [← whole]
        simp)
      rw [List.length_append, length] at missing
      omega

theorem map_ok_iff {Value Result : Type} {value : Except Fault Value} {next : Value → Result}
    {result : Result} :
    value.map next = .ok result ↔ ∃ found, value = .ok found ∧ result = next found := by
  cases value with
  | error fault =>
      constructor
      · exact nofun
      · rintro ⟨_, failed, -⟩
        cases failed
  | ok found =>
      rw [show (Except.ok found : Except Fault Value).map next = .ok (next found) from rfl]
      simp [eq_comm]

theorem net_elements_iff (elems : Nat) (raw : List UInt8) (elements : List RleElem) :
    netElements elems raw = .ok elements ↔ NetImage elems raw elements := by
  induction elems generalizing raw elements with
  | zero =>
      rw [netElements, net_image_zero, Except.ok.injEq]
      exact eq_comm
  | succ elems ih =>
      rcases raw with _ | ⟨first, _ | ⟨second, raw⟩⟩
      · have cut : ¬ NetImage (elems + 1) [] elements := by
          apply net_image_short
          exact nofun
        simp [netElements, cut]
      · have cut : ¬ NetImage (elems + 1) [first] elements := by
          apply net_image_short
          rintro _ _ ⟨⟩
          split <;> decide
        simp [netElements, cut]
      · by_cases short : first &&& 0x80 = 0
        · have element : NetElement [first, second] := ⟨first, [second], rfl, (if_pos short).symm⟩
          rw [netElements.eq_def]
          simp only [if_pos short, map_ok_iff, ih]
          exact (net_image_cons element elements).symm
        · rcases raw with _ | ⟨color, raw⟩
          · have cut : ¬ NetImage (elems + 1) [first, second] elements := by
              apply net_image_short
              rintro _ _ ⟨⟩
              rw [if_neg short]
              exact Nat.lt_succ_self 1
            rw [netElements.eq_def]
            simp [short, cut]
          · have element : NetElement [first, second, color] :=
              ⟨first, [second, color], rfl, (if_neg short).symm⟩
            rw [netElements.eq_def]
            simp only [if_neg short, map_ok_iff, ih]
            exact (net_image_cons element elements).symm

theorem net_elements_inside (elems : Nat) (raw : List UInt8) :
    Inside (netElements elems raw) ↔ ∃ elements, NetImage elems raw elements := by
  have outside : netElements elems raw ≠ .error .division := by
    induction elems generalizing raw with
    | zero => exact nofun
    | succ elems ih =>
        have onward : ∀ raw (next : List RleElem → List RleElem),
            (netElements elems raw).map next ≠ .error .division := by
          intro raw next
          cases result : netElements elems raw with
          | ok elements => exact nofun
          | error fault =>
              rintro ⟨⟩
              exact ih raw result
        rw [netElements.eq_def]
        rcases raw with _ | ⟨first, _ | ⟨second, raw⟩⟩
        · exact nofun
        · exact nofun
        · simp only []
          split
          · exact onward raw _
          · rcases raw with _ | ⟨color, raw⟩
            · exact nofun
            · exact onward raw _
  simp only [← net_elements_iff]
  cases result : netElements elems raw with
  | ok elements => simp [inside_ok]
  | error fault =>
      rw [inside_error]
      simp only [reduceCtorEq, exists_const, iff_false]
      rintro rfl
      exact outside result

/-! ## Lines of an uncompressed image -/

/-- The last of the lines ends inside the data, if anything of it is read. -/
def LinesCopied (stride w lines : Nat) (src : List UInt8) : Prop :=
  lines = 0 ∨ stride = 0 ∨ 4 * ((lines - 1) * w + stride) ≤ src.length

theorem copy_lines_inside (stride w lines : Nat) (src : List UInt8) :
    Inside (copyLines stride w lines src) ↔ LinesCopied stride w lines src := by
  induction lines generalizing src with
  | zero =>
      rw [copyLines]
      simp [inside_ok, LinesCopied]
  | succ lines ih =>
      rw [copyLines, inside_check (by decide), ih]
      simp only [LinesCopied, List.length_drop, Nat.add_sub_cancel, Nat.add_one_ne_zero, false_or]
      cases lines with
      | zero => simp; omega
      | succ lines =>
          have next : (lines + 1) * w = lines * w + w := Nat.succ_mul lines w
          simp only [Nat.add_sub_cancel, Nat.add_one_ne_zero, false_or, next]
          omega

/-! ## HDMV -/

def afterElement (w : Nat) (state : HdmvState) (rle : RleElem) : HdmvState :=
  if 0 < rle.len then state.emit rle else state.endLine w rle

/-- Elements read one after the other, none of which ends behind the line. -/
inductive HdmvWalk (w h size : Nat) : HdmvState → List UInt8 → HdmvState → List UInt8 → Prop where
  | here (state : HdmvState) (data : List UInt8) : HdmvWalk w h size state data state data
  | through {state final : HdmvState} {data rest left : List UInt8} {rle : RleElem}
      (row : state.y < h) (room : state.emitted.length < size)
      (read : decodeHdmv data = some (rle, rest)) (fits : 0 < rle.len → (state.emit rle).x ≤ w)
      (onward : HdmvWalk w h size (afterElement w state rle) rest final left) :
      HdmvWalk w h size state data final left

/-- The decoder gets to bytes of an element that is not there as a whole. -/
def HdmvCut (w h size : Nat) (state : HdmvState) (data : List UInt8) : Prop :=
  ∃ final left, HdmvWalk w h size state data final left ∧ final.y < h ∧
    final.emitted.length < size ∧ left ≠ [] ∧ decodeHdmv left = none

theorem decode_len_shorter {data rest : List UInt8} {len : Nat}
    (decoded : decodeLen data = some (len, rest)) : rest.length < data.length := by
  rcases data with _ | ⟨byte, _ | ⟨low, data⟩⟩
  · cases decoded
  · rw [decodeLen] at decoded
    split at decoded
    · cases decoded
      exact Nat.lt_succ_self 0
    · cases decoded
  · rw [decodeLen] at decoded
    split at decoded
    · cases decoded
      exact Nat.lt_succ_self _
    · cases decoded
      simp only [List.length_cons]
      omega

theorem decode_hdmv_shorter {data rest : List UInt8} {rle : RleElem}
    (decoded : decodeHdmv data = some (rle, rest)) : rest.length < data.length := by
  unfold decodeHdmv at decoded
  split at decoded
  · cases decoded
  · split at decoded
    · cases decoded
    · split at decoded
      · cases decoded
      · rename_i found
        have shorter := decode_len_shorter found
        split at decoded
        · cases decoded
          exact Nat.lt_succ_of_lt shorter
        · split at decoded
          · cases decoded
          · cases decoded
            simp only [List.length_cons] at shorter ⊢
            omega
  · cases decoded
    exact Nat.lt_succ_self _

section Hdmv

variable {w h size : Nat}

theorem not_cut_stopped (w : Nat) {state : HdmvState} {data : List UInt8}
    (stops : h ≤ state.y ∨ data = [] ∨ size ≤ state.emitted.length) :
    ¬ HdmvCut w h size state data := by
  rintro ⟨final, left, walk, row, room, present, -⟩
  cases walk with
  | here =>
      rcases stops with last | empty | full
      · omega
      · exact present empty
      · omega
  | through inside space read =>
      rcases stops with last | rfl | full
      · omega
      · cases read
      · omega

theorem cut_through {state : HdmvState} {data rest : List UInt8} {rle : RleElem}
    (row : state.y < h) (room : state.emitted.length < size)
    (read : decodeHdmv data = some (rle, rest)) :
    HdmvCut w h size state data ↔
      (0 < rle.len → (state.emit rle).x ≤ w) ∧ HdmvCut w h size (afterElement w state rle) rest := by
  constructor
  · rintro ⟨final, left, walk, last⟩
    cases walk with
    | here =>
        rw [read] at last
        cases last.2.2.2
    | through _ _ read' fits onward =>
        rw [read] at read'
        cases read'
        exact ⟨fits, final, left, onward, last⟩
  · rintro ⟨fits, final, left, walk, last⟩
    exact ⟨final, left, .through row room read fits walk, last⟩

theorem uncompress_hdmv_rounds_cut (rounds : Nat) (state : HdmvState) (data : List UInt8)
    (enough : data.length ≤ rounds) :
    (uncompressHdmvRounds w h size rounds state data).2 = .overread ↔
      HdmvCut w h size state data := by
  induction rounds generalizing state data with
  | zero =>
      have empty : data = [] := List.length_eq_zero_iff.mp (Nat.le_zero.mp enough)
      have uncut : ¬ HdmvCut w h size state data := not_cut_stopped w (.inr (.inl empty))
      rw [uncompressHdmvRounds]
      split <;> simp [uncut]
  | succ rounds ih =>
      rw [uncompressHdmvRounds]
      by_cases last : h ≤ state.y
      · have uncut : ¬ HdmvCut w h size state data := not_cut_stopped w (.inl last)
        simp [last, uncut]
      rw [if_neg last]
      by_cases full : data.isEmpty = true ∨ size ≤ state.emitted.length
      · have uncut : ¬ HdmvCut w h size state data :=
          not_cut_stopped w (.inr (full.imp_left List.isEmpty_iff.mp))
        rw [if_pos full]
        simp [uncut]
      rw [if_neg full]
      obtain ⟨present, room⟩ := not_or.mp full
      have row : state.y < h := Nat.lt_of_not_le last
      have slot : state.emitted.length < size := Nat.lt_of_not_le room
      cases read : decodeHdmv data with
      | none =>
          have cut : HdmvCut w h size state data :=
            ⟨state, data, .here _ _, row, slot, fun empty => present (by rw [empty]; rfl), read⟩
          simp [cut]
      | some result =>
          obtain ⟨rle, rest⟩ := result
          have fewer := decode_hdmv_shorter read
          rw [cut_through row slot read]
          by_cases pixels : 0 < rle.len
          · simp only [if_pos pixels, afterElement]
            by_cases long : w < (state.emit rle).x
            · rw [if_pos long]
              simp [pixels, Nat.not_le.mpr long]
            · rw [if_neg long, ih _ _ (by omega)]
              simp [Nat.le_of_not_lt long]
          · simp only [if_neg pixels, afterElement]
            rw [ih _ _ (by omega)]
            simp [pixels]

end Hdmv

/-- No element of the image that the decoder gets to is cut off by the end of the data. -/
def HdmvWhole (w h numRle : Nat) (raw : List UInt8) : Prop :=
  ¬ HdmvCut w h (2 * numRle % 2 ^ 32) ⟨0, 0, [], ⟨0, 0⟩⟩ raw

theorem uncompress_hdmv_reads (w h numRle : Nat) (raw : List UInt8) :
    (rleUncompressHdmv w h raw numRle).2 = .overread ↔ ¬ HdmvWhole w h numRle raw := by
  rw [HdmvWhole, not_not]
  exact uncompress_hdmv_rounds_cut _ _ _ (Nat.le_refl _)

/-! ## Compressed ARGB images -/

section Argbrle

variable {w h stride : Nat}

theorem decode_element_goes_on (w stride : Nat) (cursor : Cursor) {data rest : List UInt8}
    {element : Element} (read : readElement data = .whole element rest) :
    (w < (cursor.x + element.pixels) % 2 ^ 32 ∧
      ∃ fills value, decodeElement w stride cursor data = .stopped fills (.returned value)) ∨
    ((cursor.x + element.pixels) % 2 ^ 32 ≤ w ∧ ∃ fills next,
      decodeElement w stride cursor data = .moved fills next rest ∧
        (⟨next.x, next.y⟩ : Place) = Place.after ⟨cursor.x, cursor.y⟩ element) := by
  have advanced : ∀ (len : Nat) (fill : Foundation.Fill UInt32) (rest : List UInt8),
      (w < (cursor.x + len) % 2 ^ 32 ∧
        ∃ fills value, advance w cursor len fill rest = .stopped fills (.returned value)) ∨
      ((cursor.x + len) % 2 ^ 32 ≤ w ∧ ∃ fills next,
        advance w cursor len fill rest = .moved fills next rest ∧
          (⟨next.x, next.y⟩ : Place) = ⟨(cursor.x + len) % 2 ^ 32, cursor.y⟩) := by
    intro len fill rest
    by_cases long : w < (cursor.x + len) % 2 ^ 32
    · exact .inl ⟨long, _, _, by rw [advance, if_pos long]⟩
    · exact .inr ⟨Nat.le_of_not_lt long, _, _, by rw [advance, if_neg long], rfl⟩
  unfold readElement at read
  unfold decodeElement
  split at read
  · cases read
  · split at read
    · cases read
    · split at read
      · cases read
      · rename_i code _ _ len left decoded
        simp only [decoded]
        split at read
        · rename_i transparent
          split at read
          · rename_i ends
            cases read
            subst ends
            by_cases long : w < (cursor.x + 0) % 2 ^ 32
            · exact .inl ⟨long, _, _, if_pos long⟩
            · rw [if_neg long, if_pos transparent, if_neg (not_not.mpr rfl)]
              exact .inr ⟨Nat.le_of_not_lt long, _, _, rfl, rfl⟩
          · rename_i longer
            cases read
            by_cases long : w < (cursor.x + len) % 2 ^ 32
            · exact .inl ⟨long, _, _, if_pos long⟩
            · rw [if_neg long, if_pos transparent, if_pos longer]
              exact advanced len _ _
        · rename_i colored
          split at read
          · cases read
          · rename_i missing
            cases read
            by_cases long : w < (cursor.x + len) % 2 ^ 32
            · exact .inl ⟨long, _, _, if_pos long⟩
            · simp only [if_neg long, if_neg colored, missing]
              exact advanced len _ _
  · split at read
    · cases read
    · rename_i found
      cases read
      simp only [found]
      exact advanced 1 _ _

/-- The decoder gets to an element that the data cuts off, and reads on. -/
def ArgbCut (w h remaining : Nat) (place : Place) (data : List UInt8) : Prop :=
  ∃ count final left len, Walk w h place data count final left ∧ count < remaining ∧
    final.row < h ∧ left ≠ [] ∧ readElement left = .cut len ∧
    cutOutcome w final.column len = .overread

theorem argb_not_cut_stopped {remaining : Nat} {place : Place} {data : List UInt8}
    (stops : h ≤ place.row ∨ data = [] ∨ remaining = 0) : ¬ ArgbCut w h remaining place data := by
  rintro ⟨count, final, left, len, walk, few, row, present, -⟩
  cases walk with
  | here =>
      rcases stops with last | empty | none_
      · omega
      · exact present empty
      · omega
  | through inside read =>
      rcases stops with last | rfl | none_
      · omega
      · cases read
      · omega

theorem argb_cut_through {remaining : Nat} {place : Place} {data rest : List UInt8}
    {element : Element} (row : place.row < h) (read : readElement data = .whole element rest) :
    ArgbCut w h (remaining + 1) place data ↔
      (place.column + element.pixels) % 2 ^ 32 ≤ w ∧
        ArgbCut w h remaining (place.after element) rest := by
  constructor
  · rintro ⟨count, final, left, len, walk, few, last⟩
    cases walk with
    | here =>
        rw [read] at last
        cases last.2.2.1
    | @through _ _ _ _ _ _ count _ read' fits onward =>
        rw [read] at read'
        cases read'
        exact ⟨fits, count, final, left, len, onward, Nat.lt_of_succ_lt_succ few, last⟩
  · rintro ⟨fits, count, final, left, len, walk, few, last⟩
    exact ⟨count + 1, final, left, len, .through row read fits walk, Nat.succ_lt_succ few, last⟩

theorem uncompress_elements_cut (numRle remaining : Nat) (cursor : Cursor) (data : List UInt8) :
    (uncompressElements w h stride numRle remaining cursor data).2 = .overread ↔
      ArgbCut w h remaining ⟨cursor.x, cursor.y⟩ data := by
  induction remaining generalizing cursor data with
  | zero =>
      have uncut : ¬ ArgbCut w h 0 ⟨cursor.x, cursor.y⟩ data := argb_not_cut_stopped (.inr (.inr rfl))
      rw [uncompressElements]
      split <;> simp [uncut]
  | succ remaining ih =>
      rw [uncompressElements]
      by_cases last : h ≤ cursor.y
      · have uncut : ¬ ArgbCut w h (remaining + 1) ⟨cursor.x, cursor.y⟩ data :=
          argb_not_cut_stopped (.inl last)
        simp [last, uncut]
      rw [if_neg last]
      have row : cursor.y < h := Nat.lt_of_not_le last
      by_cases empty : data.isEmpty = true
      · have uncut : ¬ ArgbCut w h (remaining + 1) ⟨cursor.x, cursor.y⟩ data :=
          argb_not_cut_stopped (.inr (.inl (List.isEmpty_iff.mp empty)))
        rw [if_pos empty]
        simp [uncut]
      rw [if_neg empty]
      cases read : readElement data with
      | cut len =>
          rw [decode_element_cut cursor read]
          constructor
          · intro outside
            exact ⟨0, _, data, len, .here _ _, Nat.succ_pos _, row,
              fun none_ => empty (by rw [none_]; rfl), read, outside⟩
          · rintro ⟨count, final, left, other, walk, few, inside, present, cut, outside⟩
            cases walk with
            | here =>
                rw [read] at cut
                cases cut
                exact outside
            | through _ read' =>
                rw [read] at read'
                cases read'
      | whole element rest =>
          rw [argb_cut_through row read]
          rcases decode_element_goes_on w stride cursor read with
            ⟨long, fills, value, stopped⟩ | ⟨fits, fills, next, moved, place⟩
          · rw [stopped]
            constructor
            · intro failed
              cases failed
            · intro through
              exact absurd through.1 (Nat.not_le.mpr long)
          · rw [moved, ← place]
            simp only [fits, true_and]
            exact ih next rest

end Argbrle

/-- No element of the image that the decoder gets to is cut off by the end of the data,
except a run that is refused for its length. -/
def ArgbWhole (w h numRle : Nat) (raw : List UInt8) : Prop := ¬ ArgbCut w h numRle ⟨0, 0⟩ raw

theorem uncompress_argbrle_reads (w h stride numRle : Nat) (raw : List UInt8) :
    (rleUncompressArgbrle w h stride raw numRle).2 = .overread ↔ ¬ ArgbWhole w h numRle raw := by
  rw [ArgbWhole, not_not]
  exact uncompress_elements_cut numRle numRle ⟨0, 0, 0⟩ raw

end Xineliboutput.Osd.Remote
