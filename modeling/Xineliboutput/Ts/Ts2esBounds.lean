import Mathlib.Data.List.Induction
import Xineliboutput.Ts.PesBounds

/-!
# Buffers for arbitrary packets

A payload unit is parsed in a fresh buffer that holds nothing but the payload of
its first packet, so whether a run of calls stays inside its buffers is decided by
these payloads one by one.
-/

namespace Xineliboutput.Ts

open Xineliboutput.Foundation

set_option autoImplicit false

/-! ## Buffers -/

namespace BufElement

structure WellFormed (buf : BufElement) : Prop where
  nonneg : 0 ≤ buf.size
  reach : buf.content + buf.size ≤ buf.maxSize

/-- No more than the payload of a packet has been stripped. -/
structure Sound (buf : BufElement) : Prop extends WellFormed buf where
  stripped : buf.content ≤ tsSize - 4

end BufElement

structure Fresh (filled : BufElement) (pool : PoolBuffer) (data : List UInt8) : Prop where
  maxSize : filled.maxSize = pool.maxSize
  content : filled.content = 0
  size : filled.size = data.length
  valid : filled.valid = Memory.ofList data

theorem append_written (buf : BufElement) {data : List UInt8} {mem : Block UInt8 buf.maxSize}
    (nonneg : 0 ≤ buf.size)
    (written : buf.mem.overwrite (buf.content + buf.size.toNat) data = some mem) :
    buf.append data = some { buf with mem, size := buf.size + data.length } := by
  unfold BufElement.append
  rw [if_pos nonneg, written]
  rfl

theorem fresh_append (pool : PoolBuffer) {data : List UInt8} (short : data.length ≤ tsSize - 4) :
    ∃ filled, (BufElement.alloc pool).append data = some filled ∧ Fresh filled pool data := by
  have roomy := pool.roomy
  obtain ⟨mem, written⟩ := Option.isSome_iff_exists.mp
    ((Block.overwrite_is_some pool.mem 0 data).mpr (by omega))
  refine ⟨_, append_written (.alloc pool) (Int.le_refl 0) written, rfl, rfl, Int.zero_add _, ?_⟩
  funext position
  have cells := Block.overwrite_cells written
  rw [List.take_zero, List.nil_append] at cells
  simp only [BufElement.valid, BufElement.alloc, Block.read, Memory.ofList, cells, Nat.zero_add]
  by_cases inside : position < data.length
  · rw [if_pos (by omega), List.getElem?_append_left inside]
  · rw [if_neg (by omega), List.getElem?_eq_none (by omega)]

theorem append_sound {this : Ts2es} {buf : BufElement} (sound : buf.Sound)
    (room : this.splitLarge buf = false) {data : List UInt8} (short : data.length ≤ tsSize - 4) :
    ∃ filled, buf.append data = some filled ∧ filled.Sound := by
  have nonneg := sound.nonneg
  have reach := sound.reach
  have stripped := sound.stripped
  have notLarge : ¬(buf.maxSize : Int) - 2 * tsSize ≤ buf.size := by
    intro large
    unfold Ts2es.splitLarge at room
    rw [decide_eq_true large, Bool.or_true] at room
    cases room
  unfold tsSize at *
  obtain ⟨mem, written⟩ := Option.isSome_iff_exists.mp
    ((Block.overwrite_is_some buf.mem (buf.content + buf.size.toNat) data).mpr (by omega))
  refine ⟨_, append_written buf nonneg written, ⟨?_, ?_⟩, stripped⟩
  · show 0 ≤ buf.size + data.length
    omega
  · show buf.content + (buf.size + data.length) ≤ buf.maxSize
    omega

/-! ## The parser in a call -/

theorem parse_pes_fresh (this : Ts2es) {filled : BufElement} {pool : PoolBuffer}
    {data : List UInt8} (fresh : Fresh filled pool data) :
    this.parsePes filled =
      ((parsePesHeader this.streamType this.video data.length).run (Memory.ofList data)).map
        fun parsed => match parsed with
          | none => ({ this with pesError := true }, filled)
          | some fields =>
              ({ this with pesError := false, pesLen := fields.pesLen }, filled.strip fields) := by
  unfold Ts2es.parsePes
  rw [fresh.size, fresh.valid]
  rfl

/-! ## One call -/

/-- A property of the buffer that is held and of those that are returned. -/
def Holds (P : BufElement → Prop) (this : Ts2es) (out : List BufElement) : Prop :=
  (∀ buf, this.buf = some buf → P buf) ∧ ∀ buf ∈ out, P buf

theorem sound_frame_end {buf : BufElement} (sound : buf.Sound) :
    BufElement.Sound { buf with frameEnd := true } :=
  ⟨⟨sound.nonneg, sound.reach⟩, sound.stripped⟩

theorem check_complete_stream_type (this : Ts2es) (buf : BufElement) (bytes : Nat)
    (result : Option BufElement) :
    (this.checkComplete buf bytes result).1.streamType = this.streamType := by
  unfold Ts2es.checkComplete
  split_ifs <;> rfl

theorem check_complete_sound {this : Ts2es} {buf : BufElement} (bytes : Nat)
    {result : Option BufElement} (sound : buf.Sound)
    (resultSound : ∀ ended, result = some ended → ended.Sound) :
    Holds BufElement.Sound (this.checkComplete buf bytes result).1
      (this.checkComplete buf bytes result).2 := by
  have returned : ∀ ended ∈ result.toList, ended.Sound := by
    intro ended member
    exact resultSound ended (Option.mem_toList.mp member)
  unfold Ts2es.checkComplete
  split_ifs
  · refine ⟨(fun held same => nomatch same), ?_⟩
    intro ended member
    rcases List.mem_append.mp member with before | last
    · exact returned ended before
    · rw [List.mem_singleton.mp last]
      exact sound_frame_end sound
  · refine ⟨?_, returned⟩
    intro held same
    cases same
    exact sound
  · refine ⟨?_, returned⟩
    intro held same
    cases same
    exact sound

theorem check_complete_well_formed {this : Ts2es} {buf : BufElement} {bytes : Nat}
    {result : Option BufElement}
    (holds : Holds BufElement.WellFormed (this.checkComplete buf bytes result).1
      (this.checkComplete buf bytes result).2) : buf.WellFormed := by
  unfold Ts2es.checkComplete at holds
  split_ifs at holds
  · have last := holds.2 { buf with frameEnd := true }
      (List.mem_append_right _ (List.mem_singleton_self _))
    exact ⟨last.nonneg, last.reach⟩
  · exact holds.1 buf rfl
  · exact holds.1 buf rfl

theorem payload_short (pkt : TsPacket) : pkt.payload.length ≤ tsSize - 4 := by
  have lower := pkt.payload_offset_lower
  rw [pkt.payload_length]
  omega

theorem fresh_sound {filled : BufElement} {pool : PoolBuffer} {data : List UInt8}
    (fresh : Fresh filled pool data) (short : data.length ≤ tsSize - 4) : filled.Sound := by
  have roomy := pool.roomy
  have size := fresh.size
  have content := fresh.content
  have maxSize := fresh.maxSize
  refine ⟨⟨?_, ?_⟩, ?_⟩ <;> omega

theorem strip_sound {filled : BufElement} {pool : PoolBuffer} {data : List UInt8}
    (fresh : Fresh filled pool data) (short : data.length ≤ tsSize - 4) {fields : PesFields}
    (inside : fields.strip ≤ data.length) : (filled.strip fields).Sound := by
  have roomy := pool.roomy
  have size := fresh.size
  have content := fresh.content
  have maxSize := fresh.maxSize
  refine ⟨⟨?_, ?_⟩, ?_⟩ <;> simp only [BufElement.strip] <;> omega

theorem unit_sound (this : Ts2es) {pkt : TsPacket} (pool : PoolBuffer)
    {result : Option BufElement} (starts : pkt.payloadStart = true)
    (fits : HeaderFits this.streamType pkt.payload)
    (resultSound : ∀ ended, result = some ended → ended.Sound) :
    ∃ next out, this.copyPayload (.alloc pool) pkt result = some (next, out) ∧
      next.streamType = this.streamType ∧ Holds BufElement.Sound next out := by
  have short := payload_short pkt
  obtain ⟨filled, appended, fresh⟩ := fresh_append pool short
  obtain ⟨parsed, ran, inside⟩ :=
    (header_inside_iff this.streamType this.video pkt.payload).mpr fits
  unfold Ts2es.copyPayload Ts2es.parseStart
  simp only [appended, starts, if_true, Option.bind_eq_bind, Option.bind_some,
    parse_pes_fresh this fresh, ran, Option.map_some]
  cases parsed with
  | none =>
      exact ⟨_, _, rfl, check_complete_stream_type _ _ _ _,
        check_complete_sound _ (fresh_sound fresh short) resultSound⟩
  | some fields =>
      exact ⟨_, _, rfl, check_complete_stream_type _ _ _ _,
        check_complete_sound _ (strip_sound fresh short (inside fields rfl)) resultSound⟩

theorem unit_fits (this : Ts2es) {next : Ts2es} {pkt : TsPacket} {pool : PoolBuffer}
    {result : Option BufElement} {out : List BufElement} (starts : pkt.payloadStart = true)
    (copied : this.copyPayload (.alloc pool) pkt result = some (next, out))
    (holds : Holds BufElement.WellFormed next out) : HeaderFits this.streamType pkt.payload := by
  obtain ⟨filled, appended, fresh⟩ := fresh_append pool (payload_short pkt)
  apply (header_inside_iff this.streamType this.video pkt.payload).mp
  unfold Ts2es.copyPayload Ts2es.parseStart at copied
  simp only [appended, starts, if_true, Option.bind_eq_bind, Option.bind_some,
    parse_pes_fresh this fresh] at copied
  obtain ⟨after, parsedMap, completed⟩ := Option.bind_eq_some_iff.mp copied
  obtain ⟨parsed, ran, same⟩ := Option.map_eq_some_iff.mp parsedMap
  refine ⟨parsed, ran, ?_⟩
  rintro fields rfl
  cases same
  have pair := Option.some.inj completed
  obtain rfl := congrArg Prod.fst pair
  obtain rfl := congrArg Prod.snd pair
  have nonneg := (check_complete_well_formed holds).nonneg
  have size := fresh.size
  simp only [BufElement.strip] at nonneg
  omega

theorem continued_sound (this : Ts2es) {pkt : TsPacket} {buf filled : BufElement}
    {result : Option BufElement} (continued : pkt.payloadStart = false)
    (appended : buf.append pkt.payload = some filled) (sound : filled.Sound)
    (resultSound : ∀ ended, result = some ended → ended.Sound) :
    ∃ next out, this.copyPayload buf pkt result = some (next, out) ∧
      next.streamType = this.streamType ∧ Holds BufElement.Sound next out := by
  unfold Ts2es.copyPayload Ts2es.parseStart
  simp only [appended, continued, Bool.false_eq_true, if_false, Option.bind_eq_bind,
    Option.bind_some]
  exact ⟨_, _, rfl, check_complete_stream_type _ _ _ _, check_complete_sound _ sound resultSound⟩

theorem continue_sound {this : Ts2es} (sound : ∀ buf, this.buf = some buf → buf.Sound)
    {pkt : TsPacket} (continued : pkt.payloadStart = false) (pool : PoolBuffer) :
    ∃ next out, this.continueUnit pkt pool = some (next, out) ∧
      next.streamType = this.streamType ∧ Holds BufElement.Sound next out := by
  have short := payload_short pkt
  obtain ⟨filled, appended, fresh⟩ := fresh_append pool short
  unfold Ts2es.continueUnit
  cases held : this.buf with
  | none =>
      dsimp only
      by_cases seen : this.firstPusiSeen = true
      · rw [if_pos seen]
        exact continued_sound this continued appended (fresh_sound fresh short)
          fun _ same => nomatch same
      · rw [if_neg seen]
        exact ⟨this, [], rfl, rfl, sound, (fun _ member => nomatch member)⟩
  | some buf =>
      have bufSound := sound buf held
      dsimp only
      by_cases large : this.splitLarge buf = true
      · rw [if_pos large]
        refine continued_sound { this with buf := none } continued appended
          (fresh_sound fresh short) ?_
        intro ended same
        cases same
        exact bufSound
      · rw [if_neg large]
        obtain ⟨longer, appendedHeld, longerSound⟩ :=
          append_sound bufSound (by simpa using large) short
        exact continued_sound this continued appendedHeld longerSound fun _ same => nomatch same

/-- A packet that passes the checks of `ts2es_put` and starts a payload unit. -/
structure StartsUnit (pkt : TsPacket) : Prop where
  noError : pkt.hasError = false
  payload : pkt.hasPayload = true
  headers : ¬tsSize - 4 < payloadBytes pkt
  starts : pkt.payloadStart = true

theorem put_sound {this : Ts2es} (sound : ∀ buf, this.buf = some buf → buf.Sound)
    (pkt : TsPacket) (pools : Pools)
    (fits : StartsUnit pkt → HeaderFits this.streamType pkt.payload) :
    ∃ next out, ts2esPut this pkt pools = some (next, out) ∧
      next.streamType = this.streamType ∧ Holds BufElement.Sound next out := by
  have unchanged : Holds BufElement.Sound this [] := ⟨sound, (fun _ member => nomatch member)⟩
  unfold ts2esPut
  by_cases damaged : pkt.hasError = true
  · rw [if_pos damaged]
    exact ⟨this, [], rfl, rfl, unchanged⟩
  rw [if_neg damaged]
  by_cases empty : (!pkt.hasPayload) = true
  · rw [if_pos empty]
    exact ⟨this, [], rfl, rfl, unchanged⟩
  rw [if_neg empty]
  by_cases headers : tsSize - 4 < payloadBytes pkt
  · rw [if_pos headers]
    exact ⟨this, [], rfl, rfl, unchanged⟩
  rw [if_neg headers]
  by_cases broken : (this.pesError && !pkt.payloadStart) = true
  · rw [if_pos broken]
    exact ⟨{ this with buf := none }, [], rfl, rfl, (fun _ held => nomatch held),
      (fun _ member => nomatch member)⟩
  rw [if_neg broken]
  by_cases starts : pkt.payloadStart = true
  · rw [if_pos starts]
    have header := fits ⟨by simpa using damaged, by simpa using empty, headers, starts⟩
    refine unit_sound (this.newPayloadUnit pools.frameEnd).1 pools.next starts header ?_
    intro ended same
    obtain ⟨last, lastSame, rfl⟩ := Option.map_eq_some_iff.mp same
    apply sound_frame_end
    split at lastSame
    · cases lastSame
      exact sound _ ‹_›
    · split at lastSame
      · cases lastSame
        exact ⟨⟨Int.le_refl _, by simp [BufElement.alloc]⟩, Nat.zero_le _⟩
      · cases lastSame
  rw [if_neg starts]
  exact continue_sound sound (by simpa using starts) pools.next

theorem put_fits {this next : Ts2es} {pkt : TsPacket} {pools : Pools} {out : List BufElement}
    (put : ts2esPut this pkt pools = some (next, out))
    (holds : Holds BufElement.WellFormed next out) (starts : StartsUnit pkt) :
    HeaderFits this.streamType pkt.payload := by
  unfold ts2esPut at put
  rw [if_neg (by rw [starts.noError]; exact Bool.false_ne_true),
    if_neg (by rw [starts.payload]; exact Bool.false_ne_true), if_neg starts.headers,
    if_neg (by rw [starts.starts, Bool.not_true, Bool.and_false]; exact Bool.false_ne_true),
    if_pos starts.starts] at put
  exact unit_fits (this.newPayloadUnit pools.frameEnd).1 starts.starts put holds

/-! ## Runs of calls -/

def put (this : Ts2es) (call : TsPacket × Pools) : Option (Ts2es × List BufElement) :=
  ts2esPut this call.1 call.2

/-- After every call of the run nothing has been read outside the valid part of a
buffer or copied elsewhere than behind it, and the buffers that have been returned
and the one that is held are well-formed. -/
def StaysWellFormed (streamType : Nat) (calls : List (TsPacket × Pools)) : Prop :=
  ∀ count ≤ calls.length, ∃ this labels,
    Machine.drive put (ts2esInit streamType) (calls.take count) = some (this, labels) ∧
    Holds BufElement.WellFormed this (labels.flatMap Prod.snd)

theorem run_sound {streamType : Nat} (calls : List (TsPacket × Pools))
    (fits : ∀ call ∈ calls, StartsUnit call.1 → HeaderFits streamType call.1.payload) :
    ∃ this labels, Machine.drive put (ts2esInit streamType) calls = some (this, labels) ∧
      this.streamType = streamType ∧
      Holds BufElement.Sound this (labels.flatMap Prod.snd) := by
  induction calls using List.reverseRecOn with
  | nil =>
      exact ⟨ts2esInit streamType, [], rfl, rfl, (fun _ held => nomatch held),
        (fun _ member => nomatch member)⟩
  | append_singleton calls call ih =>
      obtain ⟨this, labels, driven, type, held, returned⟩ :=
        ih fun call member => fits call (List.mem_append_left _ member)
      obtain ⟨next, out, called, nextType, nextHeld, nextReturned⟩ :=
        put_sound held call.1 call.2 (by
          rw [type]
          exact fits call (List.mem_append_right _ (List.mem_singleton_self _)))
      refine ⟨next, labels ++ [(call, out)],
        Machine.drive_snoc.mpr ⟨this, labels, out, driven, called, rfl⟩, nextType.trans type,
        nextHeld, ?_⟩
      intro buf member
      rw [List.flatMap_append] at member
      rcases List.mem_append.mp member with earlier | last
      · exact returned buf earlier
      · exact nextReturned buf (by simpa using last)

theorem copy_stream_type {this next : Ts2es} {buf : BufElement} {pkt : TsPacket}
    {result : Option BufElement} {out : List BufElement}
    (copied : this.copyPayload buf pkt result = some (next, out)) :
    next.streamType = this.streamType := by
  simp only [Ts2es.copyPayload, Option.bind_eq_bind, Option.bind_eq_some_iff] at copied
  obtain ⟨filled, -, parsed, parsing, completed⟩ := copied
  obtain rfl := congrArg Prod.fst (Option.some.inj completed)
  rw [check_complete_stream_type]
  unfold Ts2es.parseStart at parsing
  split at parsing
  · obtain ⟨fields, -, rfl⟩ := Option.map_eq_some_iff.mp parsing
    cases fields <;> rfl
  · cases parsing
    rfl

theorem put_stream_type {this next : Ts2es} {call : TsPacket × Pools} {out : List BufElement}
    (called : put this call = some (next, out)) : next.streamType = this.streamType := by
  unfold put ts2esPut at called
  split at called
  · cases called
    rfl
  split at called
  · cases called
    rfl
  split at called
  · cases called
    rfl
  split at called
  · cases called
    rfl
  split at called
  · exact (copy_stream_type called).trans rfl
  unfold Ts2es.continueUnit at called
  split at called
  · split at called <;> exact (copy_stream_type called).trans rfl
  · split at called
    · exact copy_stream_type called
    · cases called
      rfl

theorem drive_stream_type {streamType : Nat} (calls : List (TsPacket × Pools)) {this : Ts2es}
    {labels : List ((TsPacket × Pools) × List BufElement)}
    (driven : Machine.drive put (ts2esInit streamType) calls = some (this, labels)) :
    this.streamType = streamType := by
  induction calls using List.reverseRecOn generalizing this labels with
  | nil =>
      cases driven
      rfl
  | append_singleton calls call ih =>
      obtain ⟨middle, before, out, earlier, called, -⟩ := Machine.drive_snoc.mp driven
      rw [put_stream_type called, ih earlier]

/-- A run stays inside its buffers exactly if the first payload of every payload
unit is long enough for what is read and stripped of it. -/
theorem stays_well_formed_iff (streamType : Nat) (calls : List (TsPacket × Pools)) :
    StaysWellFormed streamType calls ↔
      ∀ call ∈ calls, StartsUnit call.1 → HeaderFits streamType call.1.payload := by
  constructor
  · intro stays call member starts
    obtain ⟨count, within, rfl⟩ := List.mem_iff_getElem.mp member
    obtain ⟨this, labels, driven, held, returned⟩ := stays (count + 1) within
    rw [List.take_succ_eq_append_getElem within] at driven
    obtain ⟨middle, before, out, earlier, called, rfl⟩ := Machine.drive_snoc.mp driven
    rw [← drive_stream_type _ earlier]
    refine put_fits called ⟨held, fun buf member => returned buf ?_⟩ starts
    simp only [List.flatMap_append, List.flatMap_cons, List.flatMap_nil, List.append_nil]
    exact List.mem_append_right _ member
  · intro fits count within
    obtain ⟨this, labels, driven, -, held, returned⟩ := run_sound (calls.take count)
      fun call member => fits call (List.mem_of_mem_take member)
    exact ⟨this, labels, driven, fun buf same => (held buf same).toWellFormed,
      fun buf member => (returned buf member).toWellFormed⟩

/-- Private stream 1 with two bytes of an AC3 substream header in its first packet. -/
def shortSubstream : TsPacket :=
  .startingWith ([0x47, 0x40, 0x64, 0x30, 172] ++ List.replicate 172 0xff ++
    [0, 0, 1, 0xbd, 0, 0, 0x80, 0, 0, 0x80, 0]) 0

def emptyPools : Pools where
  frameEnd := ⟨2048, .filled 0, by decide⟩
  next := ⟨2048, .filled 0, by decide⟩

theorem short_substream_returns_negative_size :
    ¬StaysWellFormed iso13818PesPrivate
      [(shortSubstream, emptyPools), (shortSubstream, emptyPools)] := by
  intro stays
  obtain ⟨this, labels, driven, -, returned⟩ := stays 2 (by decide)
  have sizes : (Machine.drive put (ts2esInit iso13818PesPrivate)
      [(shortSubstream, emptyPools), (shortSubstream, emptyPools)]).map
      (fun result => (result.2.flatMap Prod.snd).map BufElement.size) = some [-2] := by
    decide +kernel
  rw [show [(shortSubstream, emptyPools), (shortSubstream, emptyPools)] =
    [(shortSubstream, emptyPools), (shortSubstream, emptyPools)].take 2 from rfl, driven,
    Option.map_some, Option.some.injEq] at sizes
  have member : (-2 : Int) ∈ (labels.flatMap Prod.snd).map BufElement.size := by
    rw [sizes]
    exact List.mem_singleton_self _
  obtain ⟨buf, inside, size⟩ := List.mem_map.mp member
  have nonneg := (returned buf inside).nonneg
  omega

end Xineliboutput.Ts
