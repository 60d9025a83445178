import Xineliboutput.Ts.Reassembly
import Xineliboutput.Ts.Ts2esMemory

/-!
# Broken PES packets

A payload unit that does not start with a whole PES header is an error. Its first
payload stays in the buffer, and the rest of it is dropped. Everything a payload
unit leaves in the converter is set anew by the next one that starts with a whole
PES header.
-/

namespace Xineliboutput.Ts

open Xineliboutput.Foundation

set_option autoImplicit false

/-! ## What is in a buffer -/

def fragmentBytes (copied : List Fragment) : List UInt8 := copied.flatMap Fragment.payload

/-- The buffer holds what has been copied into it, of which the first `content` bytes
are stripped. -/
structure Written (buf : BufElement) (copied : List Fragment) : Prop where
  length : buf.content + buf.size = (fragmentBytes copied).length
  bytes : buf.mem.cells.take (fragmentBytes copied).length = fragmentBytes copied
  stripped : buf.content ≤ tsSize

theorem fragment_bytes_snoc (copied : List Fragment) (fragment : Fragment) :
    fragmentBytes (copied ++ [fragment]) = fragmentBytes copied ++ fragment.payload := by
  unfold fragmentBytes
  rw [List.flatMap_append, List.flatMap_singleton]

theorem written_alloc (pool : PoolBuffer) : Written (.alloc pool) [] :=
  ⟨rfl, rfl, Nat.zero_le _⟩

theorem Written.frame_end {buf : BufElement} {copied : List Fragment}
    (written : Written buf copied) : Written { buf with frameEnd := true } copied :=
  ⟨written.length, written.bytes, written.stripped⟩

theorem Written.copy_behind {buf filled : BufElement} {copied : List Fragment}
    (written : Written buf copied) (fragment : Fragment)
    (moved : buf.copyBehind fragment.payload = some filled) :
    Written filled (copied ++ [fragment]) := by
  obtain ⟨mem, overwritten, rfl⟩ := Option.map_eq_some_iff.mp moved
  have length := written.length
  have place : (buf.content + buf.size).toNat = (fragmentBytes copied).length := by omega
  rw [place] at overwritten
  have cells := Block.overwrite_cells overwritten
  rw [written.bytes] at cells
  rw [← fragment_bytes_snoc] at cells
  refine ⟨?_, ?_, written.stripped⟩
  · rw [fragment_bytes_snoc, List.length_append]
    simp only
    omega
  · show mem.cells.take _ = _
    rw [cells, List.take_left]

theorem Written.strip {buf : BufElement} {copied : List Fragment} {fields : PesFields}
    (written : Written buf copied) (unstripped : buf.content = 0)
    (within : fields.strip ≤ tsSize) : Written (buf.strip fields) copied := by
  have length := written.length
  refine ⟨?_, written.bytes, ?_⟩
  · simp only [BufElement.strip]
    omega
  · simp only [BufElement.strip]
    omega

theorem Written.copies {this : Ts2es} {buf : BufElement} {copied : List Fragment}
    (written : Written buf copied) (room : this.splitLarge buf = false) {data : List UInt8}
    (short : data.length ≤ tsSize - 4) : ∃ filled, buf.copyBehind data = some filled := by
  have stripped := written.stripped
  have length := written.length
  have notLarge : ¬(buf.maxSize : Int) - 2 * tsSize ≤ buf.size := by
    intro large
    unfold Ts2es.splitLarge at room
    rw [decide_eq_true large, Bool.or_true] at room
    cases room
  unfold tsSize at *
  obtain ⟨mem, overwritten⟩ := Option.isSome_iff_exists.mp
    ((Block.overwrite_is_some buf.mem (buf.content + buf.size).toNat data).mpr (by omega))
  exact ⟨_, Option.map_eq_some_iff.mpr ⟨mem, overwritten, rfl⟩⟩

/-! ## The first packet of a unit -/

/-- A payload in a fresh buffer, with the memory behind it. -/
structure FreshMemory (filled : BufElement) (data : List UInt8) : Prop where
  content : filled.content = 0
  size : filled.size = data.length
  holds : filled.memory.Extends (Memory.ofList data)
  reaches : ∀ position < tsSize, (filled.memory position).isSome = true

theorem fresh_memory (pool : PoolBuffer) (roomy : tsSize ≤ pool.maxSize) {data : List UInt8}
    (short : data.length ≤ tsSize - 4) :
    ∃ filled, (BufElement.alloc pool).copyBehind data = some filled ∧ FreshMemory filled data := by
  obtain ⟨filled, appended, fresh⟩ := fresh_append pool short
  refine ⟨filled, copy_behind_of_append appended, fresh.content, fresh.size, ?_, ?_⟩
  · rw [← fresh.valid]
    exact memory_extends filled
  · intro position inside
    unfold BufElement.memory
    rw [Block.read_is_some, fresh.content, fresh.maxSize]
    omega

/-- What the parser makes of the first payload of a unit: an error exactly if it does not
start with a whole PES header. -/
theorem parse_memory_cases (this : Ts2es) {filled : BufElement} {data : List UInt8}
    (fresh : FreshMemory filled data) (short : data.length + 4 ≤ tsSize) :
    (hasPesHeader data = false ∧
        this.parseMemory filled = some ({ this with pesError := true }, filled)) ∨
      (hasPesHeader data = true ∧ ∃ fields, fields.strip ≤ tsSize ∧
        (parsePesHeader this.streamType this.video data.length).run filled.memory =
          some (some fields) ∧
        this.parseMemory filled =
          some ({ this with pesError := false, pesLen := fields.pesLen }, filled.strip fields)) := by
  have size : filled.size.toNat = data.length := by rw [fresh.size, Int.toNat_natCast]
  unfold Ts2es.parseMemory
  rw [size]
  cases whole : hasPesHeader data with
  | false =>
      left
      rw [broken_header_run fresh.holds fresh.reaches _ _ whole]
      exact ⟨rfl, rfl⟩
  | true =>
      right
      obtain ⟨fields, ran, stripped⟩ :=
        whole_header_run fresh.holds fresh.reaches this.streamType this.video short whole
      rw [ran]
      exact ⟨rfl, fields, stripped, rfl, rfl⟩

/-! ## Units that are dropped -/

/-- No byte of a broken unit is in the buffer. -/
structure Unbroken (entry : BufElement × List Fragment) : Prop where
  written : Written entry.1 entry.2
  whole : ∀ fragment ∈ entry.2, fragment.payload = [] ∨ hasPesHeader fragment.unit = true

/-- After an error the buffer holds the first payload of the unit, without an error only
payloads of units with their whole header. -/
structure Conversion.Sound (conversion : Conversion) : Prop where
  held : ∀ buf, conversion.this.buf = some buf → Written buf conversion.copied
  seen : ∀ buf, conversion.this.buf = some buf → conversion.this.firstPusiSeen = true
  unit : conversion.this.pesError = false → conversion.this.firstPusiSeen = true →
    hasPesHeader conversion.unit = true
  whole : conversion.this.pesError = false → ∀ buf, conversion.this.buf = some buf →
    ∀ fragment ∈ conversion.copied, hasPesHeader fragment.unit = true
  broken : conversion.this.pesError = true → ∀ buf, conversion.this.buf = some buf →
    buf.content = 0 ∧ ∃ payload, conversion.copied = [⟨payload, payload⟩] ∧
      hasPesHeader payload = false

def AllUnbroken (conversion : Conversion) : Prop :=
  ∀ entry ∈ conversion.returned, Unbroken entry

def UnitHeld (this : Ts2es) (buf : BufElement) (copied : List Fragment) (unit : List UInt8) :
    Prop :=
  (this.pesError = false ∧ hasPesHeader unit = true ∧
      ∀ fragment ∈ copied, hasPesHeader fragment.unit = true) ∨
    (this.pesError = true ∧ buf.content = 0 ∧ ∃ payload, copied = [⟨payload, payload⟩] ∧
      hasPesHeader payload = false)

/-- A copy leaves a sound conversion, whose new buffers are the one ended before and, if
it is complete, the one copied to. -/
theorem copy_sound (conversion : Conversion) (result : Option BufElement)
    (before : List Fragment) {this : Ts2es} {buf filled : BufElement} {pkt : TsPacket}
    {copied : List Fragment} {unit : List UInt8} {parsed : Ts2es × BufElement}
    (moved : buf.copyBehind pkt.payload = some filled)
    (started : this.parseStartMemory pkt filled = some parsed)
    (written : Written parsed.2 (copied ++ [⟨unit, pkt.payload⟩]))
    (seen : parsed.1.firstPusiSeen = true)
    (holds : UnitHeld parsed.1 parsed.2 (copied ++ [⟨unit, pkt.payload⟩]) unit) :
    ∃ after, conversion.copy this buf pkt result before copied unit = some after ∧ after.Sound ∧
      (AllUnbroken after ↔ AllUnbroken conversion ∧
        (∀ last, result = some last → Unbroken (last, before)) ∧
        (0 < parsed.1.pesLen ∧ parsed.1.pesLen ≤ payloadBytes pkt →
          Unbroken (parsed.2, copied ++ [⟨unit, pkt.payload⟩]))) := by
  have run : this.copyMemory buf pkt result =
      some (parsed.1.checkComplete parsed.2 (payloadBytes pkt) result) := by
    unfold Ts2es.copyMemory
    rw [moved, Option.bind_eq_bind, Option.bind_some, started]
    rfl
  have zipped := zip_returned result { parsed.2 with frameEnd := true } before
    (copied ++ [⟨unit, pkt.payload⟩])
  have ended : (∀ entry ∈ result.toList.map fun first => (first, before), Unbroken entry) ↔
      ∀ last, result = some last → Unbroken (last, before) := by
    cases result <;> simp
  unfold Conversion.copy AllUnbroken
  rw [run, Option.map_some]
  refine ⟨_, rfl, ?_⟩
  rcases check_complete_cases parsed.1 parsed.2 (payloadBytes pkt) result with
    ⟨complete, same⟩ | ⟨incomplete, left, same⟩
  · rw [same]
    refine ⟨⟨(fun _ held => nomatch held), (fun _ held => nomatch held),
      (fun noError => nomatch noError), (fun noError => nomatch noError),
      (fun _ _ held => nomatch held)⟩, ?_⟩
    have own : Unbroken ({ parsed.2 with frameEnd := true }, copied ++ [⟨unit, pkt.payload⟩]) ↔
        Unbroken (parsed.2, copied ++ [⟨unit, pkt.payload⟩]) := by
      constructor
      · intro unbroken
        exact ⟨written, unbroken.whole⟩
      · intro unbroken
        exact ⟨written.frame_end, unbroken.whole⟩
    simp only [zipped.1, List.forall_mem_append, List.forall_mem_singleton, ended, own,
      forall_prop_of_true complete]
  · rw [same]
    refine ⟨⟨?_, ?_, ?_, ?_, ?_⟩, ?_⟩
    · intro other held
      cases held
      exact written
    · intro _ _
      exact seen
    · intro noError _
      rcases holds with ⟨-, headed, -⟩ | ⟨error, -⟩
      · exact headed
      · exact absurd (error.symm.trans noError) (by decide)
    · intro noError _ _
      rcases holds with ⟨-, -, whole⟩ | ⟨error, -⟩
      · exact whole
      · exact absurd (error.symm.trans noError) (by decide)
    · intro error other held
      cases held
      rcases holds with ⟨noError, -⟩ | ⟨-, broken⟩
      · exact absurd (error.symm.trans noError) (by decide)
      · exact broken
    · simp only [zipped.2, List.forall_mem_append, ended, forall_prop_of_false incomplete, and_true]

/-! ## One call -/

/-- The first payload of a broken unit is not in the buffer that a new unit or a flush
ends. -/
def BrokenGone (this : Ts2es) : Prop :=
  this.pesError = true → ∀ buf, this.buf = some buf → buf.size = 0

def Drops (conversion : Conversion) : Ts2esCall → Prop
  | .put pkt _ _ => StartsUnit pkt → BrokenGone conversion.this ∧
      (hasPesHeader pkt.payload = false → payloadBytes pkt < conversion.this.pesLen ∨
        conversion.this.pesLen = 0)
  | .flush => BrokenGone conversion.this

theorem accepted_bytes {pkt : TsPacket} (headers : ¬tsSize - 4 < payloadBytes pkt) :
    payloadBytes pkt = pkt.payload.length := by
  rw [pkt.payload_length]
  unfold payloadBytes TsPacket.payloadSize at *
  have offset : pkt.payloadOffset ≤ 260 := by
    unfold TsPacket.payloadOffset
    have byte := (pkt.cell 4).toNat_lt
    split <;> omega
  unfold tsSize at *
  omega

/-- The buffer that is held holds no byte of a broken unit exactly if the first payload
of one is not in it. -/
theorem held_unbroken_iff {conversion : Conversion} (sound : conversion.Sound)
    {buf : BufElement} (held : conversion.this.buf = some buf) {other : BufElement}
    (written : Written other conversion.copied) :
    Unbroken (other, conversion.copied) ↔ (conversion.this.pesError = true → buf.size = 0) := by
  cases error : conversion.this.pesError with
  | false =>
      refine iff_of_true ⟨written, ?_⟩ (fun raised => nomatch raised)
      intro fragment member
      exact Or.inr (sound.whole error buf held fragment member)
  | true =>
      obtain ⟨unstripped, payload, copied, broken⟩ := sound.broken error buf held
      have length := (sound.held buf held).length
      rw [copied, unstripped] at length
      have size : buf.size = payload.length := by
        simpa [fragmentBytes] using length
      constructor
      · intro unbroken _
        rcases unbroken.whole ⟨payload, payload⟩ (by rw [copied]; exact List.mem_singleton_self _)
          with empty | headed
        · rw [size, show payload = [] from empty]
          rfl
        · exact absurd (broken.symm.trans headed) (by decide)
      · intro gone
        refine ⟨written, ?_⟩
        intro fragment member
        simp only [copied, List.mem_singleton] at member
        left
        rw [member]
        apply List.eq_nil_of_length_eq_zero
        have none_left := gone rfl
        show payload.length = 0
        omega

theorem broken_gone_iff {conversion : Conversion} (sound : conversion.Sound)
    {Ends : BufElement → BufElement}
    (written : ∀ buf copied, Written buf copied → Written (Ends buf) copied) :
    (∀ buf, conversion.this.buf = some buf → Unbroken (Ends buf, conversion.copied)) ↔
      BrokenGone conversion.this := by
  constructor
  · intro unbroken error buf held
    exact (held_unbroken_iff sound held (written _ _ (sound.held buf held))).mp
      (unbroken buf held) error
  · intro gone buf held
    exact (held_unbroken_iff sound held (written _ _ (sound.held buf held))).mpr
      fun error => gone error buf held

theorem written_flush {buf : BufElement} {copied : List Fragment} (written : Written buf copied) :
    Written { buf with frameEnd := true, pts := 0 } copied :=
  ⟨written.length, written.bytes, written.stripped⟩

theorem flush_sound {conversion : Conversion} (sound : conversion.Sound) :
    conversion.flush.Sound ∧
      (AllUnbroken conversion.flush ↔ AllUnbroken conversion ∧ BrokenGone conversion.this) := by
  refine ⟨⟨(fun _ held => nomatch held), (fun _ held => nomatch held), sound.unit,
    (fun _ _ held => nomatch held), (fun _ _ held => nomatch held)⟩, ?_⟩
  rw [← broken_gone_iff sound fun _ _ => written_flush]
  unfold AllUnbroken Conversion.flush Ts2es.flush
  rw [List.forall_mem_append]
  cases conversion.this.buf <;> simp

theorem ended_unbroken_iff {conversion : Conversion} (sound : conversion.Sound)
    (pool : PoolBuffer) :
    (∀ last, (conversion.this.newPayloadUnit pool).2 = some last →
        Unbroken (last, conversion.ended)) ↔ BrokenGone conversion.this := by
  rw [← broken_gone_iff sound fun _ _ written => written.frame_end]
  unfold Ts2es.newPayloadUnit Conversion.ended
  cases held : conversion.this.buf with
  | some buf => simp
  | none =>
      have empty : Unbroken ({ BufElement.alloc pool with frameEnd := true }, []) :=
        ⟨(written_alloc pool).frame_end, fun _ member => nomatch member⟩
      cases (conversion.this.firstPusiSeen && !conversion.this.frameEndSent) <;> simp [empty]

theorem start_sound {conversion : Conversion} (sound : conversion.Sound) {pkt : TsPacket}
    (starts : StartsUnit pkt) (pools : Pools) (roomy : tsSize ≤ pools.next.maxSize) :
    ∃ after, conversion.copy (conversion.this.newPayloadUnit pools.frameEnd).1
        (.alloc pools.next) pkt (conversion.this.newPayloadUnit pools.frameEnd).2
        conversion.ended [] pkt.payload = some after ∧ after.Sound ∧
      (AllUnbroken after ↔ AllUnbroken conversion ∧ BrokenGone conversion.this ∧
        (hasPesHeader pkt.payload = false → payloadBytes pkt < conversion.this.pesLen ∨
          conversion.this.pesLen = 0)) := by
  have bytes := accepted_bytes starts.headers
  have short := payload_short pkt
  obtain ⟨filled, moved, fresh⟩ := fresh_memory pools.next roomy short
  have written := (written_alloc pools.next).copy_behind ⟨pkt.payload, pkt.payload⟩ moved
  have started : ∀ parsed,
      (conversion.this.newPayloadUnit pools.frameEnd).1.parseMemory filled = some parsed →
      (conversion.this.newPayloadUnit pools.frameEnd).1.parseStartMemory pkt filled =
        some parsed := by
    intro parsed ran
    rw [Ts2es.parseStartMemory, if_pos starts.starts, ran]
  rcases parse_memory_cases (conversion.this.newPayloadUnit pools.frameEnd).1 fresh
    (by unfold tsSize at *; omega) with ⟨broken, ran⟩ | ⟨whole, fields, stripped, -, ran⟩
  · obtain ⟨after, copied, afterSound, unbroken⟩ := copy_sound conversion
      (conversion.this.newPayloadUnit pools.frameEnd).2 conversion.ended
      moved (started _ ran) written rfl
      (Or.inr ⟨rfl, fresh.content, pkt.payload, rfl, broken⟩)
    refine ⟨after, copied, afterSound, ?_⟩
    rw [unbroken, ended_unbroken_iff sound, forall_prop_of_true broken]
    apply and_congr_right'
    apply and_congr_right'
    show (0 < conversion.this.pesLen ∧ conversion.this.pesLen ≤ payloadBytes pkt → _) ↔ _
    constructor
    · intro own
      by_contra counted
      have some_bytes : pkt.payload ≠ [] := by
        apply List.ne_nil_of_length_pos
        omega
      rcases (own (by omega)).whole ⟨pkt.payload, pkt.payload⟩ (List.mem_singleton_self _)
        with empty | headed
      · exact some_bytes empty
      · exact absurd (broken.symm.trans headed) (by decide)
    · intro uncounted complete
      omega
  · obtain ⟨after, copied, afterSound, unbroken⟩ := copy_sound conversion
      (conversion.this.newPayloadUnit pools.frameEnd).2 conversion.ended
      moved (started _ ran) (written.strip fresh.content stripped) rfl
      (Or.inl ⟨rfl, whole, by simpa using whole⟩)
    refine ⟨after, copied, afterSound, ?_⟩
    rw [unbroken, ended_unbroken_iff sound]
    apply and_congr_right'
    apply and_congr_right'
    refine iff_of_true ?_ fun broken => absurd (broken.symm.trans whole) (by decide)
    intro _
    refine ⟨written.strip fresh.content stripped, ?_⟩
    intro fragment member
    rw [List.mem_singleton.mp member]
    exact Or.inr whole

/-- What continues a unit with its whole header stays free of broken units. -/
theorem continued_copy {conversion : Conversion} {this : Ts2es} {buf : BufElement}
    {pkt : TsPacket} (result : Option BufElement) (before : List Fragment) {copied : List Fragment}
    (noError : this.pesError = false) (seen : this.firstPusiSeen = true)
    (headed : hasPesHeader conversion.unit = true) (continued : pkt.payloadStart = false)
    (written : Written buf copied) (room : ∃ filled, buf.copyBehind pkt.payload = some filled)
    (whole : ∀ fragment ∈ copied, hasPesHeader fragment.unit = true)
    (free : ∀ last, result = some last → Unbroken (last, before)) :
    ∃ after, conversion.copy this buf pkt result before copied conversion.unit = some after ∧
      after.Sound ∧ (AllUnbroken after ↔ AllUnbroken conversion) := by
  obtain ⟨filled, moved⟩ := room
  have started : this.parseStartMemory pkt filled = some (this, filled) := by
    rw [Ts2es.parseStartMemory, continued, if_neg Bool.false_ne_true]
  have longer := written.copy_behind ⟨conversion.unit, pkt.payload⟩ moved
  have all : ∀ fragment ∈ copied ++ [⟨conversion.unit, pkt.payload⟩],
      hasPesHeader fragment.unit = true := by
    rw [List.forall_mem_append, List.forall_mem_singleton]
    exact ⟨whole, headed⟩
  obtain ⟨after, ran, afterSound, unbroken⟩ := copy_sound conversion result before moved started
    longer seen (Or.inl ⟨noError, headed, all⟩)
  refine ⟨after, ran, afterSound, unbroken.trans (and_iff_left ⟨free, ?_⟩)⟩
  intro _
  exact ⟨longer, fun fragment member => Or.inr (all fragment member)⟩

theorem continue_unit_sound {conversion : Conversion} (sound : conversion.Sound)
    (noError : conversion.this.pesError = false) {pkt : TsPacket}
    (continued : pkt.payloadStart = false) (pool : PoolBuffer) (roomy : tsSize ≤ pool.maxSize) :
    ∃ after, conversion.continueUnit pkt pool = some after ∧ after.Sound ∧
      (AllUnbroken after ↔ AllUnbroken conversion) := by
  have short := payload_short pkt
  obtain ⟨fresh, freshMoved, -⟩ := fresh_memory pool roomy short
  unfold Conversion.continueUnit
  cases held : conversion.this.buf with
  | some buf =>
      have seen := sound.seen buf held
      have headed := sound.unit noError seen
      have whole := sound.whole noError buf held
      have written := sound.held buf held
      dsimp only
      by_cases large : conversion.this.splitLarge buf = true
      · rw [if_pos large]
        refine continued_copy (some buf) conversion.copied noError seen headed continued
          (written_alloc pool) ⟨fresh, freshMoved⟩ (fun _ member => nomatch member) ?_
        intro last same
        cases same
        exact ⟨written, fun fragment member => Or.inr (whole fragment member)⟩
      · rw [if_neg large]
        exact continued_copy none [] noError seen headed continued written
          (written.copies (Bool.eq_false_iff.mpr large) short) whole fun _ same => nomatch same
  | none =>
      dsimp only
      by_cases seen : conversion.this.firstPusiSeen = true
      · rw [if_pos seen]
        exact continued_copy none [] noError seen (sound.unit noError seen) continued
          (written_alloc pool) ⟨fresh, freshMoved⟩ (fun _ member => nomatch member)
          fun _ same => nomatch same
      · rw [if_neg seen]
        exact ⟨conversion, rfl, sound, Iff.rfl⟩

theorem put_starts (conversion : Conversion) {pkt : TsPacket} (starts : StartsUnit pkt)
    (pools : Pools) :
    conversion.put pkt pools =
      conversion.copy (conversion.this.newPayloadUnit pools.frameEnd).1 (.alloc pools.next) pkt
        (conversion.this.newPayloadUnit pools.frameEnd).2 conversion.ended [] pkt.payload := by
  unfold Conversion.put
  rw [if_neg (by rw [starts.noError]; exact Bool.false_ne_true),
    if_neg (by rw [starts.payload]; exact Bool.false_ne_true), if_neg starts.headers,
    if_neg (by rw [starts.starts, Bool.not_true, Bool.and_false]; exact Bool.false_ne_true),
    if_pos starts.starts]

theorem put_call_sound {conversion : Conversion} (sound : conversion.Sound) (pkt : TsPacket)
    (pools : Pools) (roomy : tsSize ≤ pools.next.maxSize) :
    ∃ after, conversion.put pkt pools = some after ∧ after.Sound ∧
      (AllUnbroken after ↔
        AllUnbroken conversion ∧ Drops conversion (.put pkt pools roomy)) := by
  by_cases unit : StartsUnit pkt
  · obtain ⟨after, ran, afterSound, unbroken⟩ := start_sound sound unit pools roomy
    rw [put_starts conversion unit]
    refine ⟨after, ran, afterSound, unbroken.trans (and_congr_right' ?_)⟩
    exact ⟨fun both _ => both, fun onward => onward unit⟩
  have idle : AllUnbroken conversion ↔
      AllUnbroken conversion ∧ Drops conversion (.put pkt pools roomy) :=
    (and_iff_left fun starts => absurd starts unit).symm
  unfold Conversion.put
  by_cases damaged : pkt.hasError = true
  · rw [if_pos damaged]
    exact ⟨conversion, rfl, sound, idle⟩
  rw [if_neg damaged]
  by_cases empty : (!pkt.hasPayload) = true
  · rw [if_pos empty]
    exact ⟨conversion, rfl, sound, idle⟩
  rw [if_neg empty]
  by_cases headers : tsSize - 4 < payloadBytes pkt
  · rw [if_pos headers]
    exact ⟨conversion, rfl, sound, idle⟩
  rw [if_neg headers]
  have continued : pkt.payloadStart = false := by
    apply Bool.eq_false_iff.mpr
    intro starts
    exact unit ⟨Bool.eq_false_iff.mpr damaged, by simpa using empty, headers, starts⟩
  rw [continued, Bool.not_false, Bool.and_true, if_neg Bool.false_ne_true]
  by_cases broken : conversion.this.pesError = true
  · rw [if_pos broken]
    exact ⟨_, rfl, ⟨(fun _ held => nomatch held), (fun _ held => nomatch held), sound.unit,
      (fun _ _ held => nomatch held), (fun _ _ held => nomatch held)⟩, idle⟩
  · rw [if_neg broken]
    obtain ⟨after, ran, afterSound, unbroken⟩ :=
      continue_unit_sound sound (Bool.eq_false_iff.mpr broken) continued pools.next roomy
    exact ⟨after, ran, afterSound, unbroken.trans idle⟩

theorem perform_sound {conversion : Conversion} (sound : conversion.Sound) (call : Ts2esCall) :
    ∃ after, conversion.perform call = some after ∧ after.Sound ∧
      (AllUnbroken after ↔ AllUnbroken conversion ∧ Drops conversion call) := by
  cases call with
  | flush => exact ⟨_, rfl, flush_sound sound⟩
  | put pkt pools roomy => exact put_call_sound sound pkt pools roomy

/-! ## A whole run -/

theorem init_sound (streamType : Nat) : (conversionInit streamType).Sound :=
  ⟨(fun _ held => nomatch held), (fun _ held => nomatch held), (fun _ seen => nomatch seen),
    (fun _ _ held => nomatch held), (fun error => nomatch error)⟩

/-- After every call of the run no byte of a broken unit has left the converter. -/
def DropsBroken (streamType : Nat) (calls : List Ts2esCall) : Prop :=
  ∀ count ≤ calls.length, ∃ conversion,
    Machine.follow Conversion.perform (conversionInit streamType) (calls.take count) =
      some conversion ∧ AllUnbroken conversion

theorem run_conversion (streamType : Nat) (calls : List Ts2esCall) :
    ∃ conversion, Machine.follow Conversion.perform (conversionInit streamType) calls =
      some conversion ∧ conversion.Sound := by
  suffices onward : ∀ conversion : Conversion, conversion.Sound →
      ∃ after, Machine.follow Conversion.perform conversion calls = some after ∧ after.Sound from
    onward _ (init_sound streamType)
  induction calls with
  | nil => exact fun conversion sound => ⟨conversion, rfl, sound⟩
  | cons call calls ih =>
      intro conversion sound
      obtain ⟨next, performed, nextSound, -⟩ := perform_sound sound call
      rw [Machine.follow, performed, Option.bind_some]
      exact ih next nextSound

theorem drops_broken_iff (streamType : Nat) (calls : List Ts2esCall) :
    DropsBroken streamType calls ↔ ∀ (count : Nat) (within : count < calls.length)
      (conversion : Conversion),
      Machine.follow Conversion.perform (conversionInit streamType) (calls.take count) =
        some conversion → Drops conversion calls[count] := by
  have exactly : ∀ conversion call next, conversion.Sound ∧ AllUnbroken conversion →
      Conversion.perform conversion call = some next →
      (next.Sound ∧ AllUnbroken next ↔ Drops conversion call) := by
    rintro conversion call next ⟨sound, unbroken⟩ performed
    obtain ⟨after, ran, afterSound, afterUnbroken⟩ := perform_sound sound call
    obtain rfl := Option.some.inj (ran.symm.trans performed)
    rw [and_iff_right afterSound, afterUnbroken, and_iff_right unbroken]
  have progress : ∀ conversion call, conversion.Sound ∧ AllUnbroken conversion →
      ∃ next, Conversion.perform conversion call = some next := by
    rintro conversion call ⟨sound, -⟩
    obtain ⟨after, ran, -⟩ := perform_sound sound call
    exact ⟨after, ran⟩
  have initially : (conversionInit streamType).Sound ∧ AllUnbroken (conversionInit streamType) :=
    ⟨init_sound streamType, fun _ member => nomatch member⟩
  have run := @Machine.follow_progress_iff _ _ Conversion.perform
    (fun conversion => conversion.Sound ∧ AllUnbroken conversion) Drops _ initially progress
    exactly calls
  rw [← run]
  apply forall_congr'
  intro count
  apply forall_congr'
  intro within
  obtain ⟨conversion, reached, sound⟩ := run_conversion streamType (calls.take count)
  constructor
  · rintro ⟨other, reachedOther, unbroken⟩
    obtain rfl := Option.some.inj (reached.symm.trans reachedOther)
    exact ⟨_, reached, sound, unbroken⟩
  · rintro ⟨other, reachedOther, -, unbroken⟩
    exact ⟨other, reachedOther, unbroken⟩

/-! ## The unit after a broken one -/

def StartsPes (pkt : TsPacket) : Prop := StartsUnit pkt ∧ hasPesHeader pkt.payload = true

namespace Conversion

def behind (conversion : Conversion) (earlier : List (BufElement × List Fragment)) : Conversion :=
  { conversion with returned := earlier ++ conversion.returned }

def endedBy (conversion : Conversion) (pool : PoolBuffer) : List (BufElement × List Fragment) :=
  (conversion.this.newPayloadUnit pool).2.toList.map fun buf => (buf, conversion.ended)

end Conversion

theorem copy_behind_returned (conversion : Conversion)
    (earlier : List (BufElement × List Fragment)) (this : Ts2es) (buf : BufElement)
    (pkt : TsPacket) (result : Option BufElement) (before copied : List Fragment)
    (unit : List UInt8) :
    (conversion.behind earlier).copy this buf pkt result before copied unit =
      (conversion.copy this buf pkt result before copied unit).map fun after =>
        after.behind earlier := by
  unfold Conversion.copy Conversion.behind
  rw [Option.map_map]
  apply congrFun
  apply congrArg
  funext next
  simp only [Function.comp_apply, List.append_assoc]

theorem perform_behind (conversion : Conversion) (earlier : List (BufElement × List Fragment))
    (call : Ts2esCall) :
    (conversion.behind earlier).perform call =
      (conversion.perform call).map fun after => after.behind earlier := by
  cases call with
  | flush =>
      unfold Conversion.perform Conversion.flush Conversion.behind
      simp only [Option.map_some, List.append_assoc]
  | put pkt pools roomy =>
      have kept : (conversion.behind earlier).this = conversion.this := rfl
      have ended : (conversion.behind earlier).ended = conversion.ended := rfl
      show (conversion.behind earlier).put pkt pools = (conversion.put pkt pools).map _
      unfold Conversion.put
      rw [kept, ended]
      split_ifs
      · rfl
      · rfl
      · rfl
      · rfl
      · exact copy_behind_returned _ _ _ _ _ _ _ _ _
      · unfold Conversion.continueUnit
        rw [kept]
        cases conversion.this.buf with
        | some buf =>
            dsimp only
            split_ifs
            · exact copy_behind_returned _ _ _ _ _ _ _ _ _
            · exact copy_behind_returned _ _ _ _ _ _ _ _ _
        | none =>
            dsimp only
            split_ifs
            · exact copy_behind_returned _ _ _ _ _ _ _ _ _
            · rfl

theorem follow_behind (earlier : List (BufElement × List Fragment)) (calls : List Ts2esCall)
    (conversion : Conversion) :
    Machine.follow Conversion.perform (conversion.behind earlier) calls =
      (Machine.follow Conversion.perform conversion calls).map fun after =>
        after.behind earlier := by
  induction calls generalizing conversion with
  | nil => rfl
  | cons call calls ih =>
      rw [Machine.follow, Machine.follow, perform_behind]
      cases conversion.perform call with
      | none => rfl
      | some next => exact ih next

theorem copy_memory_types {this next : Ts2es} {buf : BufElement} {pkt : TsPacket}
    {result : Option BufElement} {out : List BufElement}
    (moved : this.copyMemory buf pkt result = some (next, out)) :
    next.streamType = this.streamType ∧ next.video = this.video := by
  simp only [Ts2es.copyMemory, Option.bind_eq_bind, Option.bind_eq_some_iff] at moved
  obtain ⟨filled, -, parsed, started, completed⟩ := moved
  have same : parsed.1.streamType = this.streamType ∧ parsed.1.video = this.video := by
    unfold Ts2es.parseStartMemory at started
    split at started
    · obtain ⟨found, -, rfl⟩ := Option.map_eq_some_iff.mp started
      cases found <;> exact ⟨rfl, rfl⟩
    · cases started
      exact ⟨rfl, rfl⟩
  rcases check_complete_cases parsed.1 parsed.2 (payloadBytes pkt) result with
    ⟨-, outcome⟩ | ⟨-, left, outcome⟩
  · rw [outcome] at completed
    cases completed
    exact same
  · rw [outcome] at completed
    cases completed
    exact same

theorem copy_types {conversion after : Conversion} {this : Ts2es} {buf : BufElement}
    {pkt : TsPacket} {result : Option BufElement} {before copied : List Fragment}
    {unit : List UInt8}
    (ran : conversion.copy this buf pkt result before copied unit = some after) :
    after.this.streamType = this.streamType ∧ after.this.video = this.video := by
  obtain ⟨next, moved, rfl⟩ := Option.map_eq_some_iff.mp ran
  exact copy_memory_types moved

theorem perform_types {conversion after : Conversion} {call : Ts2esCall}
    (performed : conversion.perform call = some after) :
    after.this.streamType = conversion.this.streamType ∧
      after.this.video = conversion.this.video := by
  cases call with
  | flush =>
      cases performed
      exact ⟨rfl, rfl⟩
  | put pkt pools roomy =>
      replace performed : conversion.put pkt pools = some after := performed
      unfold Conversion.put at performed
      split_ifs at performed
      · cases performed
        exact ⟨rfl, rfl⟩
      · cases performed
        exact ⟨rfl, rfl⟩
      · cases performed
        exact ⟨rfl, rfl⟩
      · cases performed
        exact ⟨rfl, rfl⟩
      · have types := copy_types performed
        exact types
      · unfold Conversion.continueUnit at performed
        split at performed
        · split_ifs at performed
          · have types := copy_types performed
            exact types
          · exact copy_types performed
        · split_ifs at performed
          · exact copy_types performed
          · cases performed
            exact ⟨rfl, rfl⟩

theorem follow_types (calls : List Ts2esCall) {conversion after : Conversion}
    (reached : Machine.follow Conversion.perform conversion calls = some after) :
    after.this.streamType = conversion.this.streamType ∧
      after.this.video = conversion.this.video := by
  induction calls generalizing conversion with
  | nil =>
      cases reached
      exact ⟨rfl, rfl⟩
  | cons call calls ih =>
      obtain ⟨next, performed, onward⟩ := Option.bind_eq_some_iff.mp reached
      have first := perform_types performed
      have rest := ih onward
      exact ⟨rest.1.trans first.1, rest.2.trans first.2⟩

theorem check_complete_result (this : Ts2es) (buf : BufElement) (bytes : Nat)
    (result : Option BufElement) :
    this.checkComplete buf bytes result = ((this.checkComplete buf bytes none).1,
      result.toList ++ (this.checkComplete buf bytes none).2) := by
  unfold Ts2es.checkComplete
  split_ifs <;> simp

theorem zip_result (result : Option BufElement) (before copied : List Fragment)
    (out : List BufElement) :
    (result.toList ++ out).zip ((result.map fun _ => before).toList ++ [copied]) =
      result.toList.map (fun first => (first, before)) ++ out.zip [copied] := by
  cases result <;> rfl

/-- A unit that starts with its whole PES header leaves nothing of the state before it. -/
theorem start_alone {conversion other : Conversion}
    (type : other.this.streamType = conversion.this.streamType)
    (video : other.this.video = conversion.this.video) (nothing : other.returned = [])
    {pkt : TsPacket} {pools : Pools} (roomy : tsSize ≤ pools.next.maxSize)
    (idle : (other.this.newPayloadUnit pools.frameEnd).2 = none) (starts : StartsPes pkt) :
    ∃ alone, other.perform (.put pkt pools roomy) = some alone ∧
      conversion.perform (.put pkt pools roomy) =
        some (alone.behind (conversion.returned ++ conversion.endedBy pools.frameEnd)) := by
  have short := payload_short pkt
  obtain ⟨filled, moved, fresh⟩ := fresh_memory pools.next roomy short
  obtain ⟨broken, -⟩ | ⟨-, fields, -, ran, parsed⟩ := parse_memory_cases
    (conversion.this.newPayloadUnit pools.frameEnd).1 fresh (by unfold tsSize at *; omega)
  · exact absurd (broken.symm.trans starts.2) (by decide)
  have copies : ∀ (this : Ts2es) (result : Option BufElement),
      this.streamType = conversion.this.streamType → this.video = conversion.this.video →
      this.copyMemory (.alloc pools.next) pkt result =
        some (Ts2es.checkComplete { this with pesError := false, pesLen := fields.pesLen }
          (filled.strip fields) (payloadBytes pkt) result) := by
    intro this result sameType sameVideo
    have own : this.parseMemory filled =
        some ({ this with pesError := false, pesLen := fields.pesLen }, filled.strip fields) := by
      unfold Ts2es.parseMemory
      rw [fresh.size, Int.toNat_natCast, sameType, sameVideo]
      replace ran : (parsePesHeader conversion.this.streamType conversion.this.video
        pkt.payload.length).run filled.memory = some (some fields) := ran
      rw [ran]
      rfl
    unfold Ts2es.copyMemory Ts2es.parseStartMemory
    rw [moved, Option.bind_eq_bind, Option.bind_some, if_pos starts.1.starts, own]
    rfl
  show ∃ alone, other.put pkt pools = some alone ∧ conversion.put pkt pools = _
  rw [put_starts other starts.1, put_starts conversion starts.1]
  unfold Conversion.copy
  rw [copies (other.this.newPayloadUnit pools.frameEnd).1 _ type video,
    copies (conversion.this.newPayloadUnit pools.frameEnd).1 _ rfl rfl, idle, nothing,
    check_complete_result _ _ _ (conversion.this.newPayloadUnit pools.frameEnd).2]
  have same : ({ (other.this.newPayloadUnit pools.frameEnd).1 with
      pesError := false, pesLen := fields.pesLen } : Ts2es) =
      { (conversion.this.newPayloadUnit pools.frameEnd).1 with
        pesError := false, pesLen := fields.pesLen } := by
    unfold Ts2es.newPayloadUnit
    simp only [type, video]
  rw [same]
  refine ⟨_, rfl, ?_⟩
  unfold Conversion.behind Conversion.endedBy
  simp only [Option.map_some, zip_result, List.append_assoc]
  rfl

/-- A unit that starts with its whole PES header, with all that follows it, is delivered
as if nothing had arrived before it, behind the buffer that it ends. -/
def DeliversAlone (streamType : Nat) (calls : List Ts2esCall) : Prop :=
  ∀ (count : Nat) (within : count < calls.length) (pkt : TsPacket) (pools : Pools)
    (roomy : tsSize ≤ pools.next.maxSize), calls[count] = .put pkt pools roomy → StartsPes pkt →
    ∃ before alone,
      Machine.follow Conversion.perform (conversionInit streamType) (calls.take count) =
        some before ∧
      Machine.follow Conversion.perform (conversionInit streamType) (calls.drop count) =
        some alone ∧
      Machine.follow Conversion.perform (conversionInit streamType) calls =
        some (alone.behind (before.returned ++ before.endedBy pools.frameEnd))

theorem delivers_alone (streamType : Nat) (calls : List Ts2esCall) :
    DeliversAlone streamType calls := by
  intro count within pkt pools roomy called starts
  obtain ⟨before, reached, -⟩ := run_conversion streamType (calls.take count)
  obtain ⟨type, video⟩ := follow_types _ reached
  obtain ⟨first, firstRan, startRan⟩ := start_alone type.symm video.symm rfl roomy rfl starts
  obtain ⟨alone, aloneRan, -⟩ := run_conversion streamType (calls.drop count)
  refine ⟨before, alone, reached, aloneRan, ?_⟩
  have whole := Machine.follow_append Conversion.perform (calls.take count) (calls.drop count)
    (conversionInit streamType)
  rw [List.take_append_drop, reached, Option.bind_some] at whole
  rw [whole]
  rw [List.drop_eq_getElem_cons within, called, Machine.follow] at aloneRan ⊢
  rw [firstRan, Option.bind_some] at aloneRan
  rw [startRan, Option.bind_some, follow_behind, aloneRan, Option.map_some]

/-- Broken units are dropped and the others delivered as if they had never arrived
exactly if the first payload of a broken unit neither completes the length left from
before it nor is still held when the next unit starts or the converter is flushed. -/
theorem broken_dropped_iff (streamType : Nat) (calls : List Ts2esCall) :
    DropsBroken streamType calls ∧ DeliversAlone streamType calls ↔
      ∀ (count : Nat) (within : count < calls.length) (conversion : Conversion),
        Machine.follow Conversion.perform (conversionInit streamType) (calls.take count) =
          some conversion → Drops conversion calls[count] := by
  rw [← drops_broken_iff]
  exact and_iff_left (delivers_alone streamType calls)

def startlessThenPicture : List Ts2esCall :=
  [.put (.startingWith [0x47, 0x40, 0x64, 0x10] 0xaa) emptyPools (by decide),
    .put longPicture.first.1 emptyPools (by decide)]

theorem startless_payload_returned :
    ¬(DropsBroken iso13818Video startlessThenPicture ∧
      DeliversAlone iso13818Video startlessThenPicture) := by
  rintro ⟨drops, -⟩
  obtain ⟨conversion, reached, unbroken⟩ := drops 2 (Nat.le_refl 2)
  have returned : (Machine.follow Conversion.perform (conversionInit iso13818Video)
      startlessThenPicture).map (fun conversion => conversion.returned.any fun entry =>
        entry.2.any fun fragment => !fragment.payload.isEmpty && !hasPesHeader fragment.unit) =
      some true := by
    decide +kernel
  replace reached : Machine.follow Conversion.perform (conversionInit iso13818Video)
    startlessThenPicture = some conversion := reached
  rw [reached, Option.map_some, Option.some.injEq, List.any_eq_true] at returned
  obtain ⟨entry, member, broken⟩ := returned
  obtain ⟨fragment, inside, bytes⟩ := List.any_eq_true.mp broken
  rcases (unbroken entry member).whole fragment inside with empty | headed
  · simp [empty] at bytes
  · simp [headed] at bytes

end Xineliboutput.Ts
