import Xineliboutput.Tcp.RawWriterUnits

/-!
# Runs of the raw writer

Each step of any thread leaves the stream cut into packets that are passed, one that is
being written, and packets that wait. The rest of what is discarded may be missing for a
while; it ends where the packets put last begin.
-/

namespace Xineliboutput.Tcp

open Xineliboutput.Foundation Xineliboutput.StreamHeaders Xineliboutput.Ts

set_option autoImplicit false

namespace RawWriter

variable {history : History} {writer : RawWriter} {framing : Framing}

/-! ## Putting and giving up -/

theorem Framing.front_append (framing : Framing) {getPos : Nat} {more : List PutUnit}
    (inside : getPos ≤ framing.mark + (unitBytes framing.waiting).length) :
    Framing.front { framing with waiting := framing.waiting ++ more } getPos =
      framing.front getPos ++ unitBytes more := by
  show (unitBytes (framing.waiting ++ more)).drop (getPos - framing.mark) = _
  rw [Framing.front, unit_bytes_append, List.drop_append_of_le_length (by omega)]

theorem Framed.discard_end_le (framed : Framed history writer framing) :
    writer.discardEnd ≤ writer.putPos := by
  rcases laid_append.mp framed.laid with ⟨middle, earlier, recent⟩
  rw [framed.givenUp.unique earlier]
  exact recent.le

theorem Framed.get_pos_le (framed : Framed history writer framing) :
    writer.getPos ≤ writer.putPos := by
  have mark := framed.waiting.le
  have given := framed.discard_end_le
  rcases framed.place with front | ⟨unit, rest, inUnit⟩
  · have place := front.place
    omega
  · have finish := framed.waiting.finish
    have inside := inUnit.inside
    rw [inUnit.header] at inside
    rw [inUnit.waiting, unitBytes, List.flatMap_cons, List.length_append] at finish
    omega

theorem Framed.queue (framed : Framed history writer framing) {units : List (List UInt8)}
    (whole : ∀ unit ∈ units, WholeUnit unit) (running : writer.running = true)
    (room : units.flatten.length ≤ writer.free) :
    Framed ⟨history.earlier, history.recent ++ placeUnits writer.putPos units⟩
      { writer with
        ringBuffer := writer.ringBuffer ++ units.flatten
        bufferOverflows := 0
        putPos := writer.putPos + units.flatten.length }
      { framing with waiting := framing.waiting ++ placeUnits writer.putPos units } := by
  have finish := framed.waiting.finish
  have before := framed.get_pos_le
  have front : Framing.front
        { framing with waiting := framing.waiting ++ placeUnits writer.putPos units } writer.getPos =
      framing.front writer.getPos ++ units.flatten := by
    rw [framing.front_append (by omega), place_bytes]
  have longer : framing.front writer.getPos <+: Framing.front
      { framing with waiting := framing.waiting ++ placeUnits writer.putPos units } writer.getPos := by
    rw [front]
    exact List.prefix_append _ _
  have buffer := framed.running running
  have grown : writer.ringBuffer ++ units.flatten = Framing.front
      { framing with waiting := framing.waiting ++ placeUnits writer.putPos units }
      writer.getPos := by
    rw [front, ← buffer]
  constructor
  case units => rw [← List.append_assoc, framed.units, List.append_assoc]
  case passed => exact framed.passed
  case waiting => exact laid_append.mpr ⟨writer.putPos, framed.waiting, place_laid units _⟩
  case whole =>
    intro unit waits
    rcases List.mem_append.mp waits with earlier | now
    · exact framed.whole unit earlier
    · exact whole unit.bytes (mem_place now)
  case givenUp => exact framed.givenUp
  case keeps =>
    rcases framed.keeps with ⟨chosen, sublist, same⟩
    exact ⟨chosen, sublist, by rw [← List.append_assoc, same, List.append_assoc]⟩
  case place =>
    rcases framed.place with atFront | ⟨unit, rest, inUnit⟩
    · exact .inl ⟨atFront.header, atFront.place, atFront.written⟩
    · apply Or.inr
      exact ⟨unit, rest ++ placeUnits writer.putPos units, by rw [inUnit.waiting, List.cons_append],
        inUnit.behind, inUnit.inside, inUnit.header, inUnit.written⟩
  case ring =>
    exact grown ▸ List.prefix_rfl
  case running =>
    intro _
    exact grown
  case bounded =>
    have length := congrArg List.length buffer
    rw [Framing.front, List.length_drop] at length
    rw [free] at room
    have mark : framing.mark ≤ writer.getPos := by
      rcases framed.place with atFront | ⟨unit, rest, inUnit⟩
      · have place := atFront.place
        omega
      · exact inUnit.behind
    show writer.putPos + units.flatten.length ≤ writer.getPos + writer.capacity
    have bounded := framed.bounded
    omega
  case small => exact framed.small
  case thread =>
    have shown := framed.thread
    rw [ThreadShown] at shown ⊢
    cases at_ : writer.thread with
    | top => trivial
    | gotten data =>
        rw [at_] at shown
        exact ⟨shown.1.trans longer, shown.2⟩
    | started data startPos =>
        rw [at_] at shown
        exact ⟨⟨shown.1.1.trans longer, shown.1.2⟩, shown.2⟩
    | garbage => trivial
    | ended => trivial

/-- All that was put is given up: by `Clear`, or as garbage. -/
theorem Framed.giveUp (framed : Framed history writer framing) :
    Framed ⟨history.earlier ++ history.recent, []⟩
      { writer with discardEnd := writer.putPos } framing := by
  have later := framed.discard_end_le
  constructor
  case units => rw [List.append_nil, framed.units]
  case passed => exact framed.passed
  case waiting => exact framed.waiting
  case whole => exact framed.whole
  case givenUp => exact framed.laid
  case keeps =>
    rcases framed.keeps with ⟨chosen, sublist, same⟩
    refine ⟨framing.kept ++ framing.waiting, ?_, (List.append_nil _).symm⟩
    rw [same]
    exact sublist.append (.refl history.recent)
  case place =>
    rcases framed.place with atFront | ⟨unit, rest, inUnit⟩
    · have place := atFront.place
      exact .inl ⟨atFront.header, place.imp_right fun skipping => ⟨skipping.1, by
        exact Nat.lt_of_lt_of_le skipping.2 later⟩, atFront.written⟩
    · exact .inr ⟨unit, rest, inUnit.waiting, inUnit.behind, inUnit.inside, inUnit.header,
        inUnit.written⟩
  case ring => exact framed.ring
  case running => exact framed.running
  case bounded => exact framed.bounded
  case small => exact framed.small
  case thread =>
    have shown := framed.thread
    rw [ThreadShown] at shown ⊢
    cases at_ : writer.thread with
    | top => trivial
    | gotten data =>
        rw [at_] at shown
        exact shown
    | started data startPos =>
        rw [at_] at shown
        exact ⟨shown.1, Nat.le_trans shown.2.1 later, shown.2.2⟩
    | garbage => trivial
    | ended => trivial

/-! ## The thread -/

/-- The overflow counter is no part of the stream, and a writer that is stopped may have
lost its buffer. -/
theorem Framed.congr (framed : Framed history writer framing) {ringBuffer : List UInt8}
    {bufferOverflows : Nat} {running : Bool} {thread : RawThread}
    (ring : ringBuffer <+: framing.front writer.getPos)
    (all : running = true → ringBuffer = framing.front writer.getPos)
    (shown : ThreadShown { writer with thread := thread } framing) :
    Framed history { writer with
      ringBuffer := ringBuffer
      bufferOverflows := bufferOverflows
      running := running
      thread := thread } framing where
  units := framed.units
  passed := framed.passed
  waiting := framed.waiting
  whole := framed.whole
  givenUp := framed.givenUp
  keeps := framed.keeps
  place := by
    rcases framed.place with atFront | ⟨unit, rest, inUnit⟩
    · exact .inl ⟨atFront.header, atFront.place, atFront.written⟩
    · exact .inr ⟨unit, rest, inUnit.waiting, inUnit.behind, inUnit.inside, inUnit.header,
        inUnit.written⟩
  ring := ring
  running := all
  bounded := framed.bounded
  small := framed.small
  thread := shown

theorem Framed.move (framed : Framed history writer framing) {thread : RawThread}
    (shown : ThreadShown { writer with thread := thread } framing) :
    Framed history { writer with thread := thread } framing :=
  framed.congr framed.ring framed.running shown

theorem Framed.stop (framed : Framed history writer framing) {thread : RawThread}
    (shown : ThreadShown { writer with thread := thread } framing) :
    Framed history { writer with ringBuffer := [], running := false, thread := thread } framing :=
  framed.congr List.nil_prefix (nofun) shown

theorem Framed.get (framed : Framed history writer framing) {count : Nat} (six : 6 ≤ count)
    (inside : count ≤ writer.ringBuffer.length) :
    Framed history { writer with thread := .gotten (writer.ringBuffer.take count) } framing := by
  apply framed.move
  constructor
  · exact (List.take_prefix _ _).trans framed.ring
  · rw [List.length_take]
    omega

theorem Framed.start (framed : Framed history writer framing) {data : List UInt8}
    (shown : writer.Shown framing data) :
    Framed history { writer with thread := .started data writer.discardEnd } framing := by
  apply framed.move
  refine ⟨shown, Nat.le_refl _, ?_⟩
  intro header
  rcases framed.place with atFront | ⟨unit, rest, inUnit⟩
  · exact atFront.place.imp_right And.right
  · have inside := inUnit.inside
    have same : writer.nextHeaderPos = writer.getPos := header
    omega

theorem Framing.front_drop (framing : Framing) {getPos : Nat} (behind : framing.mark ≤ getPos)
    (count : Nat) : (framing.front getPos).drop count = framing.front (getPos + count) := by
  rw [Framing.front, Framing.front, List.drop_drop]
  congr 1
  omega

/-- What is given up ends behind the packets passed, and what waits from there on is
recent. -/
theorem Framed.skipped (framed : Framed history writer framing)
    (ahead : framing.mark < writer.discardEnd) :
    ∃ skipped, framing.waiting = skipped ++ history.recent ∧
      framing.kept.Sublist history.earlier ∧
      Laid framing.mark writer.discardEnd skipped := by
  rcases List.append_eq_append_iff.mp framed.units with
    ⟨more, passed, _⟩ | ⟨skipped, earlier, waiting⟩
  · have laid := framed.passed
    rw [passed] at laid
    rcases laid_append.mp laid with ⟨middle, before, behind⟩
    have order := behind.le
    rw [framed.givenUp.unique before] at ahead
    omega
  · apply Exists.intro skipped
    refine ⟨waiting, ?_, ?_⟩
    · rcases framed.keeps with ⟨chosen, sublist, same⟩
      rw [waiting, ← List.append_assoc] at same
      have chosenSame := List.append_cancel_right same
      rw [← chosenSame] at sublist
      exact (List.sublist_append_left _ _).trans sublist
    · have laid := framed.givenUp
      rw [earlier] at laid
      rcases laid_append.mp laid with ⟨middle, before, behind⟩
      rw [framed.passed.unique before]
      exact behind

theorem Framed.skip (framed : Framed history writer framing) (count : Nat)
    (header : writer.nextHeaderPos = writer.getPos)
    (ahead : writer.getPos + count ≤ writer.discardEnd) (some_bytes : 0 < count) :
    ∃ next, Framed history { writer with
      ringBuffer := writer.ringBuffer.drop count
      getPos := writer.getPos + count
      nextHeaderPos := writer.getPos + count
      thread := .top } next := by
  have atFront : writer.AtFront framing := by
    rcases framed.place with atFront | ⟨unit, rest, inUnit⟩
    · exact atFront
    · have inside := inUnit.inside
      omega
  have behind : framing.mark ≤ writer.getPos := by
    have place := atFront.place
    omega
  have ring : writer.ringBuffer.drop count <+: framing.front (writer.getPos + count) := by
    rw [← framing.front_drop behind]
    rcases framed.ring with ⟨rest, same⟩
    rw [← same, List.drop_append]
    exact List.prefix_append _ _
  have running : writer.running = true →
      writer.ringBuffer.drop count = framing.front (writer.getPos + count) := by
    intro running
    rw [framed.running running, framing.front_drop behind]
  have bounded : writer.putPos ≤ writer.getPos + count + writer.capacity := by
    have before := framed.bounded
    omega
  by_cases reached : writer.getPos + count = writer.discardEnd
  · rcases framed.skipped (by omega) with ⟨skipped, waiting, kept, laid⟩
    have recent : framing.front (writer.getPos + count) = unitBytes history.recent := by
      have finish := laid.finish
      rw [Framing.front, waiting, unit_bytes_append, List.drop_left' (by omega)]
    have whole := framed.whole
    have rest := framed.waiting
    rw [waiting] at whole rest
    rcases laid_append.mp rest with ⟨middle, first, second⟩
    rw [← laid.unique first] at second
    have fresh : Framing.front ⟨history.earlier, framing.kept, history.recent, writer.discardEnd⟩
        (writer.getPos + count) = framing.front (writer.getPos + count) := by
      show (unitBytes history.recent).drop (writer.getPos + count - writer.discardEnd) = _
      rw [recent, reached, Nat.sub_self, List.drop_zero]
    rw [← fresh] at ring running
    apply Exists.intro ⟨history.earlier, framing.kept, history.recent, writer.discardEnd⟩
    constructor
    case units => rfl
    case passed => exact framed.givenUp
    case waiting => exact second
    case whole => exact fun unit waits => whole unit (List.mem_append_right _ waits)
    case givenUp => exact framed.givenUp
    case keeps => exact ⟨framing.kept, kept, rfl⟩
    case place => exact .inl ⟨rfl, .inl reached, atFront.written⟩
    case ring => exact ring
    case running => exact running
    case bounded => exact bounded
    case small => exact framed.small
    case thread => trivial
  · apply Exists.intro framing
    constructor
    case units => exact framed.units
    case passed => exact framed.passed
    case waiting => exact framed.waiting
    case whole => exact framed.whole
    case givenUp => exact framed.givenUp
    case keeps => exact framed.keeps
    case place =>
      have before := Nat.lt_of_le_of_ne ahead reached
      exact .inl ⟨rfl, .inr ⟨Nat.le_add_right_of_le behind, before⟩, atFront.written⟩
    case ring => exact ring
    case running => exact running
    case bounded => exact bounded
    case small => exact framed.small
    case thread => trivial

theorem Framed.discard (framed : Framed history writer framing) {data : List UInt8}
    {startPos : Nat} (header : writer.nextHeaderPos = writer.getPos)
    (ahead : writer.getPos < startPos) (given : startPos ≤ writer.discardEnd)
    (shown : writer.Shown framing data) :
    ∃ next, Framed history (writer.discard data startPos) next := by
  have later := framed.discard_end_le
  have bounded := framed.bounded
  have small := framed.small
  have six := shown.2
  have count : (min (data.length : Int) (toInt (startPos - writer.getPos))).toNat =
      min data.length (startPos - writer.getPos) := by
    rw [to_int_small (by omega)]
    omega
  rw [RawWriter.discard, count]
  exact framed.skip _ header (by omega) (by omega)

theorem Framed.front_unit (framed : Framed history writer framing)
    (atMark : writer.getPos = framing.mark) {data : List UInt8}
    (shown : writer.Shown framing data) :
    ∃ unit rest, framing.waiting = unit :: rest ∧ unit.start = framing.mark ∧
      WholeUnit unit.bytes ∧ data <+: unit.bytes ++ unitBytes rest := by
  have front : framing.front writer.getPos = unitBytes framing.waiting := by
    rw [Framing.front, atMark, Nat.sub_self, List.drop_zero]
  have data_shown := shown.1
  rw [front] at data_shown
  cases waiting : framing.waiting with
  | nil =>
      have longer := data_shown.length_le
      have six := shown.2
      rw [waiting, unitBytes, List.flatMap_nil, List.length_nil] at longer
      omega
  | cons unit rest =>
      have laid := framed.waiting
      rw [waiting] at laid data_shown
      refine ⟨unit, rest, rfl, laid.1, framed.whole unit ?_, data_shown⟩
      rw [waiting]
      exact List.mem_cons_self

theorem whole_unit_length {unit : List UInt8} (whole : WholeUnit unit) :
    6 ≤ unit.length ∧ (IsPackHeader unit → dataIsTs unit = false → 14 ≤ unit.length) := by
  have some_bytes : 0 < unit.length := List.length_pos_of_ne_nil whole.2
  have length := whole.1
  constructor
  · rw [packLen, pesPacketLen, tsSize] at length
    split_ifs at length <;> omega
  · intro pack other
    by_contra short
    rw [pack_len_cut pack other (by omega)] at length
    omega

theorem whole_unit_shown {data unit rest : List UInt8} (whole : WholeUnit unit)
    (shown : data <+: unit ++ rest) (six : 6 ≤ data.length)
    (enough : IsPackHeader data → dataIsTs data = false → 14 ≤ data.length) :
    packLen data = unit.length := by
  have length := whole_unit_length whole
  rw [pack_len_shown shown six enough,
    ← pack_len_shown (List.prefix_append unit rest) length.1 length.2]
  exact whole.1

theorem Framed.enter (framed : Framed history writer framing)
    (header : writer.nextHeaderPos = writer.getPos) (atMark : writer.getPos = framing.mark)
    {unit : PutUnit} {rest : List PutUnit} (waiting : framing.waiting = unit :: rest)
    (whole : WholeUnit unit.bytes) :
    Framed history { writer with
      nextHeaderPos := writer.getPos + unit.bytes.length
      thread := .top } framing ∧
    InUnit { writer with nextHeaderPos := writer.getPos + unit.bytes.length, thread := .top }
      framing unit rest := by
  have some_bytes : 0 < unit.bytes.length := List.length_pos_of_ne_nil whole.2
  have written : writer.written = unitCells framing.kept := by
    rcases framed.place with atFront | ⟨other, others, inUnit⟩
    · exact atFront.written
    · have inside := inUnit.inside
      omega
  have inUnit : InUnit { writer with
      nextHeaderPos := writer.getPos + unit.bytes.length, thread := .top } framing unit rest := by
    constructor
    case waiting => exact waiting
    case behind => exact Nat.le_of_eq atMark.symm
    case inside => exact Nat.lt_add_of_pos_right some_bytes
    case header => exact congrArg (· + unit.bytes.length) atMark
    case written =>
      show writer.written = _ ++ unit.cells.take (writer.getPos - framing.mark)
      rw [atMark, Nat.sub_self, List.take_zero, List.append_nil]
      exact written
  exact ⟨{ framed with place := .inr ⟨unit, rest, inUnit⟩, thread := True.intro }, inUnit⟩

theorem Framed.write (framed : Framed history writer framing) {unit : PutUnit}
    {rest : List PutUnit} (inUnit : writer.InUnit framing unit rest) {data : List UInt8}
    (shown : data <+: framing.front writer.getPos) {n : Nat} (some_bytes : 0 < n)
    (inData : n ≤ data.length) (inside : writer.getPos + n ≤ writer.nextHeaderPos) :
    ∃ next, Framed history { writer with
      ringBuffer := writer.ringBuffer.drop n
      getPos := writer.getPos + n
      written := writer.written ++ (data.take n).zipIdx writer.getPos
      thread := .top } next := by
  have behind := inUnit.behind
  have header := inUnit.header
  have waiting := framed.waiting
  have whole := framed.whole
  rw [inUnit.waiting] at waiting whole
  have ring : writer.ringBuffer.drop n <+: framing.front (writer.getPos + n) := by
    rw [← framing.front_drop behind]
    rcases framed.ring with ⟨more, same⟩
    rw [← same, List.drop_append]
    exact List.prefix_append _ _
  have running : writer.running = true →
      writer.ringBuffer.drop n = framing.front (writer.getPos + n) := by
    intro running
    rw [framed.running running, framing.front_drop behind]
  have bounded : writer.putPos ≤ writer.getPos + n + writer.capacity := by
    have before := framed.bounded
    omega
  have written : writer.written ++ (data.take n).zipIdx writer.getPos =
      unitCells framing.kept ++ unit.cells.take (writer.getPos + n - framing.mark) := by
    have ahead : writer.getPos - framing.mark + n ≤ unit.bytes.length := by omega
    have front : framing.front writer.getPos =
        unit.bytes.drop (writer.getPos - framing.mark) ++ unitBytes rest := by
      rw [Framing.front, inUnit.waiting, unitBytes, List.flatMap_cons,
        List.drop_append_of_le_length (by omega)]
      rfl
    have taken : data.take n = (unit.bytes.drop (writer.getPos - framing.mark)).take n := by
      rw [front] at shown
      rcases shown with ⟨more, same⟩
      rw [← List.take_append_of_le_length inData, same,
        List.take_append_of_le_length (by rw [List.length_drop]; omega)]
    have position : unit.start + (writer.getPos - framing.mark) = writer.getPos := by
      rw [waiting.1]
      omega
    rw [inUnit.written, taken, List.append_assoc, Nat.sub_add_comm behind,
      take_cells_add unit n (by omega), position]
  by_cases done : writer.getPos + n = writer.nextHeaderPos
  · have front : Framing.front ⟨framing.passed ++ [unit], framing.kept ++ [unit], rest,
        framing.mark + unit.bytes.length⟩ (writer.getPos + n) =
        framing.front (writer.getPos + n) := by
      show (unitBytes rest).drop (writer.getPos + n - (framing.mark + unit.bytes.length)) = _
      rw [Framing.front, inUnit.waiting, unitBytes, unitBytes, List.flatMap_cons, done, header,
        Nat.sub_self, Nat.add_sub_cancel_left, List.drop_left, List.drop_zero]
    rw [← front] at ring running
    apply Exists.intro ⟨framing.passed ++ [unit], framing.kept ++ [unit], rest,
      framing.mark + unit.bytes.length⟩
    constructor
    case units => rw [framed.units, inUnit.waiting, List.append_assoc, List.singleton_append]
    case passed =>
      exact laid_append.mpr ⟨framing.mark, framed.passed, waiting.1, rfl⟩
    case waiting => exact waiting.2
    case whole => exact fun other waits => whole other (List.mem_cons_of_mem _ waits)
    case givenUp => exact framed.givenUp
    case keeps =>
      rcases framed.keeps with ⟨chosen, sublist, same⟩
      rw [inUnit.waiting] at same
      exact ⟨chosen, sublist, by rw [List.append_assoc, List.singleton_append, same]⟩
    case place =>
      refine .inl ⟨done.symm, .inl (done.trans header), ?_⟩
      have length : unit.cells.length = unit.bytes.length := List.length_zipIdx
      rw [unit_cells_append, unitCells, unitCells, List.flatMap_singleton]
      rw [done, header, Nat.add_sub_cancel_left, ← length, List.take_length] at written
      exact written
    case ring => exact ring
    case running => exact running
    case bounded => exact bounded
    case small => exact framed.small
    case thread => trivial
  · have before := Nat.lt_of_le_of_ne inside done
    apply Exists.intro framing
    exact { framed with
      place := .inr ⟨unit, rest, inUnit.waiting, Nat.le_add_right_of_le behind, before, header,
        written⟩
      ring := ring
      running := running
      bounded := bounded
      thread := True.intro }

theorem send_framed {unit : PutUnit} {rest : List PutUnit} {data : List UInt8} {count : Int}
    {answer : WriteAnswer} {next : RawWriter}
    (framed : Framed history { writer with thread := .top } framing)
    (inUnit : InUnit { writer with thread := .top } framing unit rest)
    (shown : data <+: framing.front writer.getPos) (inData : count ≤ data.length)
    (inside : writer.getPos + count ≤ writer.nextHeaderPos)
    (sent : writer.send data count answer = some next) :
    (∃ after, Framed history next after) ∧ next.thread ≠ .garbage := by
  cases answer with
  | accepted n =>
      rw [send] at sent
      split at sent
      · rename_i some_bytes
        rw [← Option.some.inj sent]
        refine ⟨framed.write inUnit shown some_bytes.1 (by omega) ?_, nofun⟩
        show writer.getPos + n ≤ writer.nextHeaderPos
        omega
      · exact nomatch sent
  | interrupted =>
      rw [← Option.some.inj sent]
      exact ⟨⟨framing, framed⟩, nofun⟩
  | failed =>
      rw [← Option.some.inj sent]
      exact ⟨⟨framing, framed.stop True.intro⟩, nofun⟩

theorem act_framed {data : List UInt8} {startPos : Nat} {answer : WriteAnswer} {next : RawWriter}
    (framed : Framed history writer framing) (thread : writer.thread = .started data startPos)
    (acted : writer.act data startPos answer = some next) :
    (∃ after, Framed history next after) ∧
      (writer.ShowsPackHeader → next.thread ≠ .garbage) := by
  have started := framed.thread
  rw [ThreadShown, thread] at started
  rcases started with ⟨shown, given, place⟩
  rw [act] at acted
  split at acted
  · rename_i header
    split at acted
    · rename_i ahead
      rw [← Option.some.inj acted]
      exact ⟨framed.discard header ahead given shown, fun _ => nofun⟩
    · rename_i behind
      have atMark := (place header).resolve_right behind
      rcases framed.front_unit atMark shown with ⟨unit, rest, waiting, start, whole, data_shown⟩
      have length : writer.ShowsPackHeader → packLen data = unit.bytes.length := fun enough =>
        whole_unit_shown whole data_shown shown.2
          (enough data startPos thread header (Nat.le_of_not_lt behind))
      have some_bytes : 0 < unit.bytes.length := List.length_pos_of_ne_nil whole.2
      split at acted
      · rename_i garbage
        rw [← Option.some.inj acted]
        refine ⟨⟨framing, framed.move True.intro⟩, fun enough => ?_⟩
        rw [length enough] at garbage
        omega
      · rename_i known
        -- a header of which the length is not shown is garbage
        have enough : IsPackHeader data → dataIsTs data = false → 14 ≤ data.length := by
          intro pack other
          by_contra short
          rw [pack_len_cut pack other (by omega)] at known
          exact known (by decide)
        have exactly := whole_unit_shown whole data_shown shown.2 enough
        rcases framed.enter header atMark waiting whole with ⟨entered, inUnit⟩
        have target : (writer.getPos + packLen data).toNat =
            writer.getPos + unit.bytes.length := by
          rw [exactly]
          omega
        rw [target] at acted
        have inside : (writer.getPos : Int) + min (data.length : Int) (packLen data) ≤
            ((writer.getPos + unit.bytes.length : Nat) : Int) := by
          have bound := Int.min_le_right (data.length : Int) (packLen data)
          omega
        have sent := @send_framed history
          { writer with nextHeaderPos := writer.getPos + unit.bytes.length } framing unit rest data
          _ answer next entered inUnit shown.1 (Int.min_le_left _ _) inside acted
        exact ⟨sent.1, fun _ => sent.2⟩
  · rename_i inside
    rcases framed.place with atFront | ⟨unit, rest, inUnit⟩
    · exact absurd atFront.header inside
    · have bounded := framed.bounded
      have small := framed.small
      have finish := framed.waiting.finish
      have header := inUnit.header
      rw [inUnit.waiting, unitBytes, List.flatMap_cons, List.length_append] at finish
      have sent := send_framed (framed.move True.intro)
        ⟨inUnit.waiting, inUnit.behind, inUnit.inside, inUnit.header, inUnit.written⟩ shown.1
        (Int.min_le_left _ _) (by
          rw [to_int_small (by omega)]
          have ahead := inUnit.inside
          omega) acted
      exact ⟨sent.1, fun _ => sent.2⟩

theorem put_framed {units : List (List UInt8)} {next : RawWriter} {effect : Effect}
    (framed : Framed history writer framing) (whole : ∀ unit ∈ units, WholeUnit unit)
    (performed : writer.put units = (next, effect)) :
    (∃ after, Framed (history.record isGivenUp effect) next after) ∧
      next.thread = writer.thread ∧ effect ≠ .dropped := by
  rw [put] at performed
  split at performed
  · rcases Prod.mk.inj performed with ⟨same, none_put⟩
    rw [← same, ← none_put]
    exact ⟨⟨framing, framed⟩, rfl, nofun⟩
  · rename_i running
    split at performed
    · split at performed
      · rcases Prod.mk.inj performed with ⟨same, none_put⟩
        rw [← same, ← none_put]
        exact ⟨⟨framing, framed.congr List.nil_prefix (nofun) framed.thread⟩,
          rfl, nofun⟩
      · rcases Prod.mk.inj performed with ⟨same, none_put⟩
        rw [← same, ← none_put]
        exact ⟨⟨framing, framed.congr framed.ring framed.running framed.thread⟩, rfl,
          nofun⟩
    · rename_i room
      rcases Prod.mk.inj performed with ⟨same, all_put⟩
      rw [← same, ← all_put]
      exact ⟨⟨_, framed.queue whole (by simpa using running) (Nat.le_of_not_lt room)⟩, rfl,
        nofun⟩

/-- Every step of any thread keeps the packets whole, and no garbage is found where the
ring buffer shows enough of a pack header. -/
theorem perform_framed {next : RawWriter} {operation : Operation} {effect : Effect}
    (framed : Framed history writer framing) (well_formed : WellFormed operation)
    (performed : writer.perform operation = some (next, effect)) :
    (∃ after, Framed (history.record isGivenUp effect) next after) ∧
      (writer.thread ≠ .garbage → writer.ShowsPackHeader →
        next.thread ≠ .garbage ∧ effect ≠ .dropped) := by
  cases operation with
  | put units =>
      have stored := put_framed framed well_formed (Option.some.inj performed)
      rw [stored.2.1]
      exact ⟨stored.1, fun other _ => ⟨other, stored.2.2⟩⟩
  | clear =>
      rcases Prod.mk.inj (Option.some.inj performed) with ⟨same, given⟩
      rw [← same, ← given]
      exact ⟨⟨framing, framed.giveUp⟩, fun other _ => ⟨other, nofun⟩⟩
  | cancel =>
      rcases Prod.mk.inj (Option.some.inj performed) with ⟨same, none_put⟩
      rw [← same, ← none_put]
      exact ⟨⟨framing, framed.congr framed.ring (nofun) framed.thread⟩,
        fun other _ => ⟨other, nofun⟩⟩
  | get count =>
      rw [perform] at performed
      split at performed
      · split at performed
        · rename_i ready
          rcases Prod.mk.inj (Option.some.inj performed) with ⟨same, none_put⟩
          rw [← same, ← none_put]
          exact ⟨⟨framing, framed.get ready.1 ready.2⟩,
            fun _ _ => ⟨nofun, nofun⟩⟩
        · exact nomatch performed
      all_goals exact nomatch performed
  | start =>
      rw [perform] at performed
      split at performed
      · rename_i data gotten
        have shown := framed.thread
        rw [ThreadShown, gotten] at shown
        rcases Prod.mk.inj (Option.some.inj performed) with ⟨same, none_put⟩
        rw [← same, ← none_put]
        exact ⟨⟨framing, framed.start shown⟩,
          fun _ _ => ⟨nofun, nofun⟩⟩
      all_goals exact nomatch performed
  | act answer =>
      rw [perform] at performed
      split at performed
      · rename_i data startPos thread
        rcases Option.map_eq_some_iff.mp performed with ⟨acted, did, pair⟩
        rcases Prod.mk.inj pair with ⟨same, none_put⟩
        have kept := act_framed framed thread did
        rw [← same, ← none_put]
        exact ⟨kept.1, fun _ enough => ⟨kept.2 enough, nofun⟩⟩
      all_goals exact nomatch performed
  | discardAll =>
      rw [perform] at performed
      split at performed
      · rename_i garbage
        rcases Prod.mk.inj (Option.some.inj performed) with ⟨same, given⟩
        rw [← same, ← given]
        exact ⟨⟨framing, framed.giveUp.move True.intro⟩, fun other => absurd garbage other⟩
      all_goals exact nomatch performed
  | leave =>
      rw [perform] at performed
      split at performed
      · split at performed
        · exact nomatch performed
        · rename_i stopped
          rcases Prod.mk.inj (Option.some.inj performed) with ⟨same, none_put⟩
          rw [← same, ← none_put]
          exact ⟨⟨framing, framed.congr List.nil_prefix (fun running => absurd running stopped)
            True.intro⟩, fun _ _ => ⟨nofun, nofun⟩⟩
      all_goals exact nomatch performed

/-! ## Runs -/

variable {labels : List (Operation × Effect)}

theorem run_framed (run : machine.Run labels writer) :
    ∃ framing, Framed (historyOf isGivenUp labels) writer framing := by
  apply run.invariant fun labels writer =>
    ∃ framing, Framed (historyOf isGivenUp labels) writer framing
  · intro writer initially
    rcases initially with ⟨capacity, small, rfl⟩
    exact ⟨_, new_framed capacity small⟩
  · intro labels writer label next framed step
    rcases framed with ⟨framing, framed⟩
    rw [history_snoc]
    exact (perform_framed framed step.1 step.2).1

theorem CarefulRun.run (run : carefulMachine.Run labels writer) : machine.Run labels writer := by
  have initially : ∀ state, carefulMachine.initial state → machine.initial state :=
    fun _ start => start
  have allowed : ∀ state label next, carefulMachine.step state label next →
      machine.step state label next := fun _ _ _ step => step.1
  exact run.mono initially allowed

theorem record_same {effect : Effect} (history : History) (kept : effect ≠ .dropped) :
    history.record isGivenUp effect = history.record isClear effect := by
  cases effect with
  | dropped => exact absurd rfl kept
  | queued start units => rfl
  | cleared => rfl
  | unchanged => rfl

theorem careful_run_history (run : carefulMachine.Run labels writer) :
    writer.thread ≠ .garbage ∧ historyOf isGivenUp labels = historyOf isClear labels := by
  induction run with
  | start initially =>
      rcases initially with ⟨capacity, small, rfl⟩
      exact ⟨nofun, rfl⟩
  | @snoc labels writer prior label next step ih =>
      rcases run_framed (CarefulRun.run prior) with ⟨framing, framed⟩
      have kept := (perform_framed framed step.1.1 step.1.2).2 ih.1 step.2
      rw [history_snoc, history_snoc, ih.2]
      exact ⟨kept.1, record_same _ kept.2⟩

/-- In every run packets are kept whole, where those the thread found to be garbage count
as given up. -/
theorem raw_writer_delivers (run : machine.Run labels writer) :
    Delivered (historyOf isGivenUp labels) writer.written := by
  rcases run_framed run with ⟨framing, framed⟩
  exact framed.delivered

/-- Where the ring buffer shows enough of each pack header, only packets put before a
`Clear` are left out. -/
theorem careful_writer_keeps_packets (run : carefulMachine.Run labels writer) :
    Delivered (historyOf isClear labels) writer.written := by
  rw [← (careful_run_history run).2]
  exact raw_writer_delivers (CarefulRun.run run)

/-- The header of an MPEG-2 pack without stuffing, and an empty video packet. -/
def packHeader : List UInt8 := [0, 0, 1, 0xba, 0x44, 0, 0, 0, 0, 0, 0, 0, 0, 0xf8]

def videoPacket : List UInt8 := [0, 0, 1, 0xe0, 0, 0]

theorem pack_and_packet_whole : ∀ unit ∈ [packHeader, videoPacket], WholeUnit unit := by decide

theorem careful_writer_keeps_packets_pack :
    ∃ labels writer, carefulMachine.Run labels writer ∧ writer.written.length = 5 ∧
      Delivered (historyOf isClear labels) writer.written := by
  have begun : carefulMachine.Run [] (new 1000) := .start ⟨1000, by decide, rfl⟩
  have stored := begun.snoc (show carefulMachine.step _
    (.put [packHeader, videoPacket], .queued 0 [packHeader, videoPacket]) _ from
      ⟨⟨pack_and_packet_whole, rfl⟩, nofun⟩)
  have gotten := stored.snoc (show carefulMachine.step _ (.get 20, .unchanged) _ from
    ⟨⟨True.intro, rfl⟩, nofun⟩)
  have started := gotten.snoc (show carefulMachine.step _ (.start, .unchanged) _ from
    ⟨⟨True.intro, rfl⟩, nofun⟩)
  have sent := started.snoc (show carefulMachine.step _ (.act (.accepted 5), .unchanged) _ from
    ⟨⟨True.intro, rfl⟩, fun data startPos same _ _ _ _ => by cases same; decide⟩)
  exact ⟨_, _, sent, rfl, careful_writer_keeps_packets sent⟩

/-- Of a pack header at the end of the ring buffer six bytes are shown, and it is thrown
away, though nothing was cleared. -/
theorem pack_header_dropped :
    ∃ labels writer, machine.Run labels writer ∧ (∀ label ∈ labels, isClear label.2 = false) ∧
      ¬ Delivered (historyOf isClear labels) writer.written := by
  have begun : machine.Run [] (new 1000) := .start ⟨1000, by decide, rfl⟩
  have well_formed : ∀ operation ∈ [Operation.put [packHeader], .get 6, .start,
      .act .interrupted, .discardAll, .get 14, .start, .act .interrupted, .put [videoPacket],
      .get 6, .start, .act (.accepted 1)], WellFormed operation := by
    simp only [List.forall_mem_cons, List.not_mem_nil, false_implies, implies_true, WellFormed,
      true_and, and_true]
    decide
  have run := Machine.Run.drive machine _ (fun state next effect operation listed performed =>
    ⟨well_formed operation listed, performed⟩) begun rfl
  refine ⟨_, _, run, by decide, ?_⟩
  intro delivered
  rcases delivered with ⟨kept, sublist, written, _⟩
  rw [List.sublist_nil.mp sublist] at written
  exact absurd written (by decide)

end RawWriter
end Xineliboutput.Tcp
