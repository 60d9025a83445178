import Mathlib.Data.List.GetD
import Xineliboutput.Tcp.RawWriter

/-!
# The raw writer keeps packets whole

The packets put so far lie in the stream one behind the other. The thread is through with
some of them, and has written those of them that are kept; the rest wait. What it discards
ends at the end of a packet, though it may take several steps.
-/

namespace Xineliboutput.Tcp

open Xineliboutput.Foundation Xineliboutput.StreamHeaders Xineliboutput.Ts

set_option autoImplicit false

/-! ## The length of what is shown -/

theorem get_shown {data whole : List UInt8} (shown : data <+: whole) {index : Nat}
    (inside : index < data.length) : data.getD index 0 = whole.getD index 0 := by
  rcases shown with ⟨rest, rfl⟩
  exact (List.getD_append data rest 0 index inside).symm

theorem pes_size_shown {data whole : List UInt8} (shown : data <+: whole)
    (six : 6 ≤ data.length) : pesSize data = pesSize whole := by
  rw [pesSize, pesSize, get_shown shown (by omega), get_shown shown (by omega)]

theorem pack_header_shown {data whole : List UInt8} (shown : data <+: whole)
    (six : 6 ≤ data.length) : IsPackHeader data ↔ IsPackHeader whole := by
  rw [IsPackHeader, IsPackHeader, get_shown shown (by omega), get_shown shown (by omega)]

theorem data_is_ts_shown {data whole : List UInt8} (shown : data <+: whole)
    (six : 6 ≤ data.length) : dataIsTs data = dataIsTs whole := by
  rw [dataIsTs, dataIsTs, get_shown shown (by omega)]

/-- Six bytes tell how long a packet is, but for the header of an MPEG-2 pack. -/
theorem pack_len_shown {data whole : List UInt8} (shown : data <+: whole)
    (six : 6 ≤ data.length)
    (enough : IsPackHeader data → dataIsTs data = false → 14 ≤ data.length) :
    packLen data = packLen whole := by
  have longer := shown.length_le
  rw [packLen, packLen, data_is_ts_shown shown six]
  split
  · rfl
  · rename_i other
    have none_short : ¬ data.length < 6 ∧ ¬ whole.length < 6 ∧ ¬ data.length < 5 ∧
        ¬ whole.length < 5 := by omega
    rw [← data_is_ts_shown shown six] at other
    rw [pesPacketLen, pesPacketLen]
    simp only [if_neg none_short.1, if_neg none_short.2.1, if_neg none_short.2.2.1,
      if_neg none_short.2.2.2, pes_size_shown shown six,
      get_shown shown (show 3 < data.length by omega),
      get_shown shown (show 4 < data.length by omega)]
    by_cases pack : IsPackHeader data
    · have fourteen := enough pack (by simpa using other)
      rw [get_shown shown (show 13 < data.length by omega),
        if_neg (by omega : ¬ data.length < 14), if_neg (by omega : ¬ whole.length < 14)]
    · rw [pack_header_shown shown six, IsPackHeader] at pack
      split
      · rfl
      · split
        · rfl
        · split
          · rename_i start
            rw [if_pos (by_contra fun mpeg2 => pack ⟨start, mpeg2⟩),
              if_pos (by_contra fun mpeg2 => pack ⟨start, mpeg2⟩)]
          · rfl

theorem pack_len_cut {data : List UInt8} (pack : IsPackHeader data)
    (other : dataIsTs data = false) (short : data.length < 14) : packLen data = 0 := by
  have apart : ¬ (isVideoPacket packStart = true ∨ isAudioPacket packStart = true) := by decide
  rw [packLen, if_neg (by rw [other]; decide), pesPacketLen]
  simp only [pack.1, if_neg apart, if_neg pack.2, if_pos short]
  rw [if_neg (by decide), if_pos True.intro]
  split <;> rfl

/-! ## Packets in the stream -/

/-- A packet that was put, and where in the stream it starts. -/
structure PutUnit where
  start : Nat
  bytes : List UInt8

def PutUnit.cells (unit : PutUnit) : List (UInt8 × Nat) := unit.bytes.zipIdx unit.start

def placeUnits (start : Nat) : List (List UInt8) → List PutUnit
  | [] => []
  | unit :: units => ⟨start, unit⟩ :: placeUnits (start + unit.length) units

def unitBytes (units : List PutUnit) : List UInt8 := units.flatMap PutUnit.bytes

def unitCells (units : List PutUnit) : List (UInt8 × Nat) := units.flatMap PutUnit.cells

/-- The packets follow one another from one position of the stream to another. -/
def Laid : Nat → Nat → List PutUnit → Prop
  | start, finish, [] => start = finish
  | start, finish, unit :: units =>
      unit.start = start ∧ Laid (start + unit.bytes.length) finish units

@[simp] theorem unit_bytes_append (first second : List PutUnit) :
    unitBytes (first ++ second) = unitBytes first ++ unitBytes second := List.flatMap_append

@[simp] theorem unit_cells_append (first second : List PutUnit) :
    unitCells (first ++ second) = unitCells first ++ unitCells second := List.flatMap_append

theorem take_zip_idx (bytes : List UInt8) (start count : Nat) :
    (bytes.zipIdx start).take count = (bytes.take count).zipIdx start := by
  induction bytes generalizing start count with
  | nil => rw [List.zipIdx_nil, List.take_nil, List.take_nil, List.zipIdx_nil]
  | cons byte bytes ih =>
      cases count with
      | zero => rfl
      | succ count =>
          rw [List.zipIdx_cons, List.take_succ_cons, List.take_succ_cons, List.zipIdx_cons, ih]

theorem take_cells_add (unit : PutUnit) {count : Nat} (more : Nat)
    (inside : count ≤ unit.bytes.length) :
    unit.cells.take (count + more) =
      unit.cells.take count ++ ((unit.bytes.drop count).take more).zipIdx (unit.start + count) := by
  have length : (unit.bytes.take count).length = count := by
    rw [List.length_take, Nat.min_eq_left inside]
  rw [PutUnit.cells, take_zip_idx, take_zip_idx, List.take_add, List.zipIdx_append, length]

theorem place_laid (units : List (List UInt8)) (start : Nat) :
    Laid start (start + units.flatten.length) (placeUnits start units) := by
  induction units generalizing start with
  | nil => rfl
  | cons unit units ih =>
      apply And.intro rfl
      have onward := ih (start + unit.length)
      rw [List.flatten_cons, List.length_append, ← Nat.add_assoc]
      exact onward

theorem place_bytes (units : List (List UInt8)) (start : Nat) :
    unitBytes (placeUnits start units) = units.flatten := by
  induction units generalizing start with
  | nil => rfl
  | cons unit units ih =>
      rw [placeUnits, unitBytes, List.flatMap_cons, List.flatten_cons]
      exact congrArg _ (ih _)

theorem mem_place {units : List (List UInt8)} {start : Nat} {unit : PutUnit}
    (placed : unit ∈ placeUnits start units) : unit.bytes ∈ units := by
  induction units generalizing start with
  | nil => exact absurd placed List.not_mem_nil
  | cons first units ih =>
      rcases List.mem_cons.mp placed with same | later
      · rw [same]
        exact List.mem_cons_self
      · exact List.mem_cons_of_mem _ (ih later)

theorem laid_append {start finish : Nat} {first second : List PutUnit} :
    Laid start finish (first ++ second) ↔
      ∃ middle, Laid start middle first ∧ Laid middle finish second := by
  induction first generalizing start with
  | nil => exact ⟨fun laid => ⟨start, rfl, laid⟩, fun ⟨_, same, laid⟩ => same ▸ laid⟩
  | cons unit first ih =>
      rw [List.cons_append, Laid, ih]
      constructor
      · intro laid
        rcases laid with ⟨place, middle, before, behind⟩
        exact ⟨middle, ⟨place, before⟩, behind⟩
      · intro laid
        rcases laid with ⟨middle, ⟨place, before⟩, behind⟩
        exact ⟨place, middle, before, behind⟩

theorem Laid.finish {start finish : Nat} {units : List PutUnit} (laid : Laid start finish units) :
    finish = start + (unitBytes units).length := by
  induction units generalizing start with
  | nil => exact laid.symm
  | cons unit units ih =>
      rw [ih laid.2, unitBytes, unitBytes, List.flatMap_cons, List.length_append]
      omega

theorem Laid.unique {start finish other : Nat} {units : List PutUnit}
    (laid : Laid start finish units) (again : Laid start other units) : finish = other := by
  rw [laid.finish, again.finish]

theorem Laid.le {start finish : Nat} {units : List PutUnit} (laid : Laid start finish units) :
    start ≤ finish := by
  rw [laid.finish]
  exact Nat.le_add_right _ _

theorem Laid.place {start finish : Nat} {units : List PutUnit} (laid : Laid start finish units)
    {unit : PutUnit} (among : unit ∈ units) :
    start ≤ unit.start ∧ unit.start + unit.bytes.length ≤ finish := by
  induction units generalizing start with
  | nil => exact absurd among List.not_mem_nil
  | cons first units ih =>
      rcases List.mem_cons.mp among with same | later
      · rw [same, laid.1]
        exact ⟨Nat.le_refl start, laid.2.le⟩
      · have behind := ih laid.2 later
        exact ⟨by omega, behind.2⟩

theorem cell_place {unit : PutUnit} {byte : UInt8} {position : Nat}
    (inside : (byte, position) ∈ unit.cells) :
    unit.start ≤ position ∧ position < unit.start + unit.bytes.length := by
  rw [PutUnit.cells, List.mk_mem_zipIdx_iff_le_and_getElem?_sub] at inside
  rcases List.getElem?_eq_some_iff.mp inside.2 with ⟨bound, _⟩
  exact ⟨inside.1, by omega⟩

theorem Laid.same_unit {start finish : Nat} {units : List PutUnit} (laid : Laid start finish units)
    {unit other : PutUnit} (among : unit ∈ units) (otherAmong : other ∈ units) {position : Nat}
    (inside : unit.start ≤ position ∧ position < unit.start + unit.bytes.length)
    (otherInside : other.start ≤ position ∧ position < other.start + other.bytes.length) :
    unit = other := by
  induction units generalizing start with
  | nil => exact absurd among List.not_mem_nil
  | cons first units ih =>
      have place := laid.1
      rcases List.mem_cons.mp among with same | later
      · rcases List.mem_cons.mp otherAmong with otherSame | otherLater
        · rw [same, otherSame]
        · have behind := laid.2.place otherLater
          rw [same] at inside
          omega
      · rcases List.mem_cons.mp otherAmong with otherSame | otherLater
        · have behind := laid.2.place later
          rw [otherSame] at otherInside
          omega
        · exact ih laid.2 later otherLater

/-! ## History -/

/-- The packets put so far, before and behind the last time all were given up. -/
structure History where
  earlier : List PutUnit
  recent : List PutUnit

/-- What a step adds, where `givesUp` tells the steps that give up what was put. -/
def History.record (givesUp : RawWriter.Effect → Bool) (history : History)
    (effect : RawWriter.Effect) : History :=
  match effect with
  | .queued start units => { history with recent := history.recent ++ placeUnits start units }
  | .cleared | .dropped | .unchanged =>
      if givesUp effect then ⟨history.earlier ++ history.recent, []⟩ else history

namespace RawWriter

/-- `Clear` gives up what was put, and so does the thread when it finds garbage. -/
def isGivenUp : Effect → Bool
  | .cleared | .dropped => true
  | .queued _ _ | .unchanged => false

def isClear : Effect → Bool
  | .cleared => true
  | .queued _ _ | .dropped | .unchanged => false

def historyOf (givesUp : Effect → Bool) (labels : List (Operation × Effect)) : History :=
  labels.foldl (fun history label => history.record givesUp label.2) ⟨[], []⟩

theorem history_snoc (givesUp : Effect → Bool) (labels : List (Operation × Effect))
    (label : Operation × Effect) :
    historyOf givesUp (labels ++ [label]) = (historyOf givesUp labels).record givesUp label.2 := by
  rw [historyOf, List.foldl_append]
  rfl

/-- The bytes written are a prefix of whole packets: all recent ones behind some of the
earlier ones, in order, and no packet of which a byte is written is missing. -/
def Delivered (history : History) (written : List (UInt8 × Nat)) : Prop :=
  ∃ kept, kept.Sublist history.earlier ∧ written <+: unitCells (kept ++ history.recent) ∧
    ∀ unit ∈ history.earlier ++ history.recent, ∀ cell ∈ unit.cells, cell ∈ written →
      unit ∈ kept ++ history.recent

/-! ## The thread and the stream -/

/-- Packets the thread is through with, those of them it has written, the packets that
wait, and the position where these begin. -/
structure Framing where
  passed : List PutUnit
  kept : List PutUnit
  waiting : List PutUnit
  mark : Nat

def Framing.front (framing : Framing) (getPos : Nat) : List UInt8 :=
  (unitBytes framing.waiting).drop (getPos - framing.mark)

/-- Between two packets, or among packets that are being discarded. -/
structure AtFront (writer : RawWriter) (framing : Framing) : Prop where
  header : writer.nextHeaderPos = writer.getPos
  place : writer.getPos = framing.mark ∨
    framing.mark ≤ writer.getPos ∧ writer.getPos < writer.discardEnd
  written : writer.written = unitCells framing.kept

structure InUnit (writer : RawWriter) (framing : Framing) (unit : PutUnit)
    (rest : List PutUnit) : Prop where
  waiting : framing.waiting = unit :: rest
  behind : framing.mark ≤ writer.getPos
  inside : writer.getPos < writer.nextHeaderPos
  header : writer.nextHeaderPos = framing.mark + unit.bytes.length
  written : writer.written =
    unitCells framing.kept ++ unit.cells.take (writer.getPos - framing.mark)

/-- Data shown by `Get`. -/
def Shown (writer : RawWriter) (framing : Framing) (data : List UInt8) : Prop :=
  data <+: framing.front writer.getPos ∧ 6 ≤ data.length

def ThreadShown (writer : RawWriter) (framing : Framing) : Prop :=
  match writer.thread with
  | .gotten data => writer.Shown framing data
  | .started data startPos => writer.Shown framing data ∧ startPos ≤ writer.discardEnd ∧
      (writer.nextHeaderPos = writer.getPos →
        writer.getPos = framing.mark ∨ writer.getPos < startPos)
  | .top | .garbage | .ended => True

structure Framed (history : History) (writer : RawWriter) (framing : Framing) : Prop where
  units : history.earlier ++ history.recent = framing.passed ++ framing.waiting
  passed : Laid 0 framing.mark framing.passed
  waiting : Laid framing.mark writer.putPos framing.waiting
  whole : ∀ unit ∈ framing.waiting, WholeUnit unit.bytes
  givenUp : Laid 0 writer.discardEnd history.earlier
  keeps : ∃ chosen, chosen.Sublist history.earlier ∧
    framing.kept ++ framing.waiting = chosen ++ history.recent
  place : writer.AtFront framing ∨ ∃ unit rest, writer.InUnit framing unit rest
  ring : writer.ringBuffer <+: framing.front writer.getPos
  running : writer.running = true → writer.ringBuffer = framing.front writer.getPos
  bounded : writer.putPos ≤ writer.getPos + writer.capacity
  small : writer.capacity < 2 ^ 31
  thread : writer.ThreadShown framing

theorem new_framed (capacity : Nat) (small : capacity < 2 ^ 31) :
    Framed ⟨[], []⟩ (new capacity) ⟨[], [], [], 0⟩ where
  units := rfl
  passed := rfl
  waiting := rfl
  whole := fun _ waiting => absurd waiting List.not_mem_nil
  givenUp := rfl
  keeps := ⟨[], .refl _, rfl⟩
  place := .inl ⟨rfl, .inl rfl, rfl⟩
  ring := List.prefix_rfl
  running := fun _ => rfl
  bounded := Nat.zero_le _
  small := small
  thread := True.intro

variable {history : History} {writer : RawWriter} {framing : Framing}

theorem Framed.laid (framed : Framed history writer framing) :
    Laid 0 writer.putPos (history.earlier ++ history.recent) := by
  rw [framed.units]
  exact laid_append.mpr ⟨framing.mark, framed.passed, framed.waiting⟩

theorem Framed.written_waiting (framed : Framed history writer framing) :
    writer.written <+: unitCells (framing.kept ++ framing.waiting) := by
  rw [unit_cells_append]
  rcases framed.place with front | ⟨unit, rest, inUnit⟩
  · rw [front.written]
    exact List.prefix_append _ _
  · rw [inUnit.written, List.prefix_append_right_inj, inUnit.waiting, unitCells,
      List.flatMap_cons]
    exact (List.take_prefix _ _).trans (List.prefix_append _ _)

theorem Framed.delivered (framed : Framed history writer framing) :
    Delivered history writer.written := by
  rcases framed.keeps with ⟨chosen, sublist, same⟩
  have written := framed.written_waiting
  rw [same] at written
  apply Exists.intro chosen
  refine ⟨sublist, written, ?_⟩
  intro unit among cell inside cell_written
  rcases List.mem_flatMap.mp (written.subset cell_written) with ⟨other, otherKept, otherInside⟩
  have otherAmong : other ∈ history.earlier ++ history.recent :=
    (sublist.append (.refl history.recent)).subset otherKept
  rw [framed.laid.same_unit among otherAmong (cell_place inside) (cell_place otherInside)]
  exact otherKept

end RawWriter
end Xineliboutput.Tcp
