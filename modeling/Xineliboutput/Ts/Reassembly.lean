import Xineliboutput.Ts.PesCarrying

/-!
# Reassembly of PES packets

From one PES packet to the next the converter holds the last buffer of the one
before, or has returned it as the end of its frame. The length that a PES packet
gives is counted down only if it leaves more than twelve bytes of payload.
-/

namespace Xineliboutput.Ts

open Xineliboutput.Foundation

set_option autoImplicit false

/-! ## The first packet of a PES packet -/

def PesPacket.measured (pes : PesPacket) : Bool := pes.known && decide (12 < pes.payload.length)

section Header

variable {pes : PesPacket} {payload : List UInt8}

theorem header_byte (headed : pes.header <+: payload) {index : Nat} (inside : index < 9) :
    Memory.ofList payload index = some (pes.header.getD index 0) := by
  have sized := pes.headerSized
  apply Memory.of_list_prefix headed
  rw [Memory.ofList, List.getD_eq_getElem?_getD, List.getElem?_eq_getElem (by omega)]
  rfl

theorem not_private (pes : PesPacket) : pes.header.getD 3 0 ≠ privateStream1 := by
  intro same
  have streamId := pes.streamId
  rw [same] at streamId
  revert streamId
  decide

theorem fragment_pts (headed : pes.header <+: payload) {found : Int}
    (ran : (pesGetPts payload.length).run (Memory.ofList payload) = some found) :
    (if found < 0 then 0 else found) = pes.pts := by
  have sized := pes.headerSized
  have longer := headed.length_le
  obtain ⟨own, ownRan⟩ := Option.isSome_iff_exists.mp
    (timestamp_ends 0x80 (by omega : 9 ≤ pes.header.length) (by decide : 9 + 4 ≤ 13)
      (Memory.ofList pes.header) fun position => (Memory.of_list_extent pes.header position).mpr)
  have same : own = found := by
    by_cases long : 13 < pes.header.length
    · have scans : pesGetPts pes.header.length = pesGetPts payload.length := by
        have alsoLong : 13 < payload.length := by omega
        simp only [pesGetPts, timestampAt, if_pos long, if_pos alsoLong]
      have grown := (pesGetPts pes.header.length).grows (Memory.of_list_prefix headed) own ownRan
      rw [scans, ran] at grown
      exact (Option.some.inj grown).symm
    · have untimed : ¬pes.header.getD 7 0 &&& 0x80 ≠ 0 := fun timed => long (pes.timed timed)
      unfold pesGetPts at ran
      simp only [timestampAt, Scan.run_bind, Scan.run_fetch, Scan.run_ite, Scan.run_pure,
        header_byte headed (by decide : 3 < 9), header_byte headed (by decide : 6 < 9),
        header_byte headed (by decide : 7 < 9), Option.bind_some, if_neg untimed, ite_self,
        Option.some.injEq] at ran
      simp only [timestampAt, Scan.run_bind, Scan.run_fetch, Scan.run_ite, Scan.run_pure,
        header_byte (List.prefix_refl pes.header) (by decide : 3 < 9),
        header_byte (List.prefix_refl pes.header) (by decide : 6 < 9), Option.bind_some,
        if_neg long, ite_self, Option.some.injEq] at ownRan
      rw [← ran, ← ownRan]
  rw [← same, PesPacket.pts, show pesGetPts pes.header.length =
    timestampAt 9 13 0x80 pes.header.length from rfl, ownRan]

theorem fragment_length (pes : PesPacket) :
    (if pes.header.length + 6 < word (pes.header.getD 4 0) (pes.header.getD 5 0) then
        word (pes.header.getD 4 0) (pes.header.getD 5 0) + 6 else 0) =
      if pes.measured then pes.header.length + pes.payload.length else 0 := by
  rcases pes.sized with unknown | known
  · have unmeasured : pes.measured = false := by
      rw [PesPacket.measured, show pes.known = false from decide_eq_false (not_not.mpr unknown),
        Bool.false_and]
    rw [unmeasured, if_neg (by omega), if_neg Bool.false_ne_true]
  · have sized := pes.headerSized
    have field : pes.known = true := by
      unfold PesPacket.known
      simp only [ne_eq, decide_not, Bool.not_eq_true', decide_eq_false_iff_not]
      omega
    unfold PesPacket.measured
    rw [field, Bool.true_and, known]
    by_cases long : 12 < pes.payload.length
    · rw [if_pos (by omega), if_pos (decide_eq_true long)]
    · rw [if_neg (by omega), if_neg (by simpa using long)]

/-- What is parsed in the first fragment of a PES packet without a substream header. -/
theorem fragment_parse {streamType : Nat} (type : streamType ≠ hdmvAudio80Pcm) (video : Bool)
    (headed : pes.header <+: payload) :
    ∃ fields, (parsePesHeader streamType video payload.length).run (Memory.ofList payload) =
        some (some fields) ∧
      fields.pesLen = (if pes.measured then pes.header.length + pes.payload.length else 0) ∧
      fields.pts = pes.pts ∧ fields.strip = pes.header.length := by
  have sized := pes.headerSized
  have longer := headed.length_le
  have fieldLast : Memory.ofList payload 8 = some pes.headerDataLength :=
    Memory.of_list_prefix headed 8 _ pes.lengthField
  obtain ⟨packetLength, found, decoderInfo0, lengthRead, ptsRead, run⟩ :=
    complete_header_run streamType video (pes.start.trans headed)
      (header_byte headed (by decide : 3 < 9)) fieldLast (by omega)
  have given : packetLength = word (pes.header.getD 4 0) (pes.header.getD 5 0) := by
    have own := list_word pes.header 4 (by omega)
    have grown := (fetchWord 4).grows (Memory.of_list_prefix headed) _ own
    rw [lengthRead] at grown
    exact Option.some.inj grown
  rw [run]
  unfold parseSubstream
  rw [if_neg type, if_pos (not_private pes), Scan.run_pure, Option.map_some, ← sized, given,
    fragment_length]
  exact ⟨_, rfl, rfl, fragment_pts headed ptsRead, rfl⟩

end Header

/-! ## The converter during a PES packet -/

structure Ready (streamType : Nat) (this : Ts2es) : Prop where
  type : this.streamType = streamType
  idle : this.buf = none → this.firstPusiSeen = false ∨ this.frameEndSent = true
  sound : ∀ buf, this.buf = some buf → buf.Sound

/-- Inside a PES packet of which `left` bytes are to come. -/
structure Filling (streamType : Nat) (measured : Bool) (left : Nat) (buf : BufElement)
    (this : Ts2es) : Prop where
  type : this.streamType = streamType
  held : this.buf = some buf
  sound : buf.Sound
  unflagged : buf.frameEnd = false
  noError : this.pesError = false
  pesLen : this.pesLen = if measured then left else 0

theorem Filling.ready {streamType left : Nat} {measured : Bool} {buf : BufElement} {this : Ts2es}
    (filling : Filling streamType measured left buf this) : Ready streamType this := by
  refine ⟨filling.type, ?_, ?_⟩
  · intro empty
    rw [filling.held] at empty
    cases empty
  · intro other same
    rw [filling.held] at same
    cases same
    exact filling.sound

/-- A PES packet is complete with its last byte if its length is counted down;
otherwise its buffer is held. -/
theorem complete_cases (this : Ts2es) (buf : BufElement) (bytes : Nat)
    (result : Option BufElement) {streamType left : Nat} {measured : Bool}
    (type : this.streamType = streamType)
    (noError : this.pesError = false) (pesLen : this.pesLen = if measured then left else 0)
    (positive : 0 < left) (within : bytes ≤ left) (sound : buf.Sound)
    (unflagged : buf.frameEnd = false) :
    ((measured = true ∧ bytes = left) ∧ (this.checkComplete buf bytes result).1.buf = none ∧
        Ready streamType (this.checkComplete buf bytes result).1 ∧
        (this.checkComplete buf bytes result).2 =
          result.toList ++ [{ buf with frameEnd := true }]) ∨
      (¬(measured = true ∧ bytes = left) ∧
        Filling streamType measured (left - bytes) buf (this.checkComplete buf bytes result).1 ∧
        (this.checkComplete buf bytes result).2 = result.toList) := by
  unfold Ts2es.checkComplete
  cases measured with
  | false =>
      right
      rw [if_neg Bool.false_ne_true] at pesLen
      rw [pesLen, if_neg (Nat.lt_irrefl 0)]
      exact ⟨fun both => Bool.noConfusion both.1,
        ⟨type, rfl, sound, unflagged, noError, rfl⟩, rfl⟩
  | true =>
      rw [if_pos rfl] at pesLen
      rw [pesLen, if_pos positive]
      by_cases complete : left ≤ bytes
      · left
        rw [if_pos complete]
        exact ⟨⟨rfl, Nat.le_antisymm within complete⟩, rfl,
          ⟨type, fun _ => Or.inr rfl, (fun _ held => nomatch held)⟩, rfl⟩
      · right
        rw [if_neg complete]
        exact ⟨fun both => complete (Nat.le_of_eq both.2.symm),
          ⟨type, rfl, sound, unflagged, noError, rfl⟩, rfl⟩

theorem payload_bytes {pkt : TsPacket} (headers : pkt.payloadOffset < tsSize) :
    payloadBytes pkt = pkt.payload.length := by
  rw [payloadBytes, TsPacket.payloadSize, pkt.payload_length]
  unfold tsSize at *
  omega

def endedFrame (held : Option BufElement) : List BufElement :=
  (held.map fun buf => { buf with frameEnd := true }).toList

theorem new_unit_ends {streamType : Nat} {this : Ts2es} (ready : Ready streamType this)
    (pool : PoolBuffer) :
    (this.newPayloadUnit pool).2.toList = endedFrame this.buf := by
  unfold Ts2es.newPayloadUnit endedFrame
  cases held : this.buf with
  | some buf => rfl
  | none =>
      have idle := ready.idle held
      have quiet : (this.firstPusiSeen && !this.frameEndSent) = false := by
        rcases idle with unseen | sent
        · rw [unseen, Bool.false_and]
        · rw [sent, Bool.not_true, Bool.and_false]
      rw [quiet]
      rfl

/-- The first packet of a PES packet: its buffer `buf` holds the data behind the header. -/
theorem first_packet {streamType : Nat} (type : streamType ≠ hdmvAudio80Pcm) {this : Ts2es}
    (ready : Ready streamType this) (carried : CarriedPes) :
    ∃ next out buf, put this carried.first = some (next, out) ∧
      buf.data = carried.first.1.payload.drop carried.pes.header.length ∧
      buf.pts = carried.pes.pts ∧ buf.frameEnd = false ∧
      (((carried.pes.measured = true ∧ carried.first.1.payload.length =
            carried.pes.header.length + carried.pes.payload.length) ∧ next.buf = none ∧
          Ready streamType next ∧
          out = endedFrame this.buf ++ [{ buf with frameEnd := true }]) ∨
        (¬(carried.pes.measured = true ∧ carried.first.1.payload.length =
            carried.pes.header.length + carried.pes.payload.length) ∧
          Filling streamType carried.pes.measured
            (carried.pes.header.length + carried.pes.payload.length -
              carried.first.1.payload.length) buf next ∧
          out = endedFrame this.buf)) := by
  have short := payload_short carried.first.1
  have sized := carried.pes.headerSized
  have lengths := congrArg List.length carried.carried
  rw [List.length_append, List.length_append] at lengths
  obtain ⟨filled, appended, fresh⟩ := fresh_append carried.first.2.next short
  obtain ⟨data, -, frameEnd⟩ := alloc_append appended
  have filledSound := fresh_sound fresh short
  obtain ⟨fields, parsed, pesLen, pts, strip⟩ :=
    fragment_parse type this.video carried.headed
  have longer := carried.headed.length_le
  have stripped : fields.strip ≤ carried.first.1.payload.length := by omega
  have bytes := payload_bytes carried.headers
  have outcome := complete_cases
    { (this.newPayloadUnit carried.first.2.frameEnd).1 with
      pesError := false, pesLen := fields.pesLen }
    (filled.strip fields) carried.first.1.payload.length
    (this.newPayloadUnit carried.first.2.frameEnd).2 ready.type rfl pesLen (by omega) (by omega)
    (strip_sound fresh short stripped) frameEnd
  rw [new_unit_ends ready] at outcome
  refine ⟨_, _, filled.strip fields, ?_, ?_, pts, frameEnd, outcome⟩
  · unfold put ts2esPut
    rw [if_neg (by rw [carried.noError]; exact Bool.false_ne_true),
      if_neg (by rw [carried.payload]; exact Bool.false_ne_true),
      if_neg (by rw [bytes]; omega),
      if_neg (by rw [carried.starts, Bool.not_true, Bool.and_false]; exact Bool.false_ne_true),
      if_pos carried.starts]
    unfold Ts2es.copyPayload Ts2es.parseStart
    simp only [appended, carried.starts, if_true, Option.bind_eq_bind, Option.bind_some,
      parse_pes_fresh _ fresh]
    rw [show (this.newPayloadUnit carried.first.2.frameEnd).1.streamType = streamType from
      ready.type, show (this.newPayloadUnit carried.first.2.frameEnd).1.video = this.video from rfl,
      parsed, bytes]
    rfl
  · rw [strip_data filledSound.toWellFormed, data, strip]

/-! ## The packets that continue it -/

/-- A continuing packet fills the held buffer, or splits it off and fills a new one. -/
theorem next_packet {streamType left : Nat} {measured : Bool} {buf : BufElement} {this : Ts2es}
    (filling : Filling streamType measured left buf this) {call : TsPacket × Pools}
    (continued : ContinuesUnit call.1) (within : call.1.payload.length ≤ left) :
    ∃ next out front filled, put this call = some (next, out) ∧ filled.frameEnd = false ∧
      ((front = [] ∧ filled.data = buf.data ++ call.1.payload ∧ filled.pts = buf.pts) ∨
        (front = [buf] ∧ filled.data = call.1.payload ∧ filled.pts = 0)) ∧
      (((measured = true ∧ call.1.payload.length = left) ∧ next.buf = none ∧
          Ready streamType next ∧ out = front ++ [{ filled with frameEnd := true }]) ∨
        (¬(measured = true ∧ call.1.payload.length = left) ∧
          Filling streamType measured (left - call.1.payload.length) filled next ∧
          out = front)) := by
  have short := payload_short call.1
  have bytes := payload_bytes continued.headers
  have some_bytes : 0 < call.1.payload.length := by
    rw [call.1.payload_length]
    exact Nat.sub_pos_of_lt continued.headers
  have accepted : put this call = this.continueUnit call.1 call.2.next := by
    unfold put ts2esPut
    rw [if_neg (by rw [continued.noError]; exact Bool.false_ne_true),
      if_neg (by rw [continued.payload]; exact Bool.false_ne_true),
      if_neg (by rw [bytes]; omega),
      if_neg (by rw [filling.noError, Bool.false_and]; exact Bool.false_ne_true),
      if_neg (by rw [continued.starts]; exact Bool.false_ne_true)]
  have copies : ∀ (other : Ts2es) (target filled : BufElement) (result : Option BufElement),
      target.append call.1.payload = some filled →
      other.copyPayload target call.1 result =
        some (other.checkComplete filled call.1.payload.length result) := by
    intro other target filled result appended
    unfold Ts2es.copyPayload Ts2es.parseStart
    simp only [appended, continued.starts, Bool.false_eq_true, if_false, Option.bind_eq_bind,
      Option.bind_some, bytes]
  rw [accepted, Ts2es.continueUnit, filling.held]
  dsimp only
  by_cases large : this.splitLarge buf = true
  · obtain ⟨filled, appended, fresh⟩ := fresh_append call.2.next short
    obtain ⟨data, pts, frameEnd⟩ := alloc_append appended
    rw [if_pos large, copies _ _ filled _ appended]
    exact ⟨_, _, [buf], filled, rfl, frameEnd, Or.inr ⟨rfl, data, pts⟩,
      complete_cases { this with buf := none } filled _ (some buf) filling.type filling.noError
        filling.pesLen (by omega) within (fresh_sound fresh short) frameEnd⟩
  · obtain ⟨filled, appended, sound⟩ :=
      append_sound filling.sound (Bool.eq_false_iff.mpr large) short
    obtain ⟨data, pts, frameEnd⟩ := append_spec filling.sound.toWellFormed appended
    rw [filling.unflagged] at frameEnd
    rw [if_neg large, copies _ _ filled _ appended]
    exact ⟨_, _, [], filled, rfl, frameEnd, Or.inl ⟨rfl, data, pts⟩,
      complete_cases this filled _ none filling.type filling.noError filling.pesLen (by omega)
        within sound frameEnd⟩

def payloads (calls : List (TsPacket × Pools)) : List UInt8 :=
  calls.flatMap fun call => call.1.payload

/-- The rest of a PES packet: its buffers form a chain, whose last one is returned
at the end of the frame or still held. -/
theorem rest_packets {streamType : Nat} {measured : Bool} (calls : List (TsPacket × Pools))
    (continued : ∀ call ∈ calls, ContinuesUnit call.1) {buf : BufElement} {this : Ts2es}
    (filling : Filling streamType measured (payloads calls).length buf this)
    (unfinished : measured = true → calls ≠ []) :
    ∃ next labels, Machine.drive put this calls = some (next, labels) ∧
      Ready streamType next ∧
      Chain (buf.data ++ payloads calls) buf.pts
        (labels.flatMap Prod.snd ++ next.buf.toList) measured ∧
      (next.buf = none ↔ measured = true) := by
  induction calls generalizing buf this with
  | nil =>
      have unmeasured : measured = false := by
        cases measured with
        | false => rfl
        | true => exact absurd rfl (unfinished rfl)
      refine ⟨this, [], rfl, filling.ready, ?_, ?_⟩
      · rw [filling.held, unmeasured]
        exact .last (List.append_nil _).symm rfl filling.unflagged
      · rw [filling.held, unmeasured]
        simp
  | cons call calls ih =>
      have member := List.forall_mem_cons.mp continued
      have whole : payloads (call :: calls) = call.1.payload ++ payloads calls := rfl
      have nonempty : call.1.payload ≠ [] := by
        apply List.ne_nil_of_length_pos
        rw [call.1.payload_length]
        exact Nat.sub_pos_of_lt member.1.headers
      rw [whole, List.length_append] at filling
      obtain ⟨next, out, front, filled, called, unflagged, placed, outcome⟩ :=
        next_packet filling member.1 (by omega)
      -- a chain of the buffer filled now is one of the buffer held before
      have extend : ∀ {content : List UInt8} {buffers : List BufElement} {ended : Bool},
          Chain (filled.data ++ content) filled.pts buffers ended →
          Chain (buf.data ++ (call.1.payload ++ content)) buf.pts (front ++ buffers) ended := by
        intro content buffers ended chain
        rcases placed with ⟨rfl, data, pts⟩ | ⟨rfl, data, pts⟩
        · rw [data, pts, List.append_assoc] at chain
          exact chain
        · rw [data, pts] at chain
          exact .split rfl filling.unflagged chain (by simp [nonempty])
      rw [Machine.drive, called, whole]
      rcases outcome with ⟨⟨measured', complete⟩, empty, ready, rfl⟩ | ⟨incomplete, onward, rfl⟩
      · have last : calls = [] := by
          cases calls with
          | nil => rfl
          | cons later calls =>
              have more := (List.forall_mem_cons.mp member.2).1.headers
              have length : 0 < later.1.payload.length := by
                rw [later.1.payload_length]
                exact Nat.sub_pos_of_lt more
              rw [show payloads (later :: calls) = later.1.payload ++ payloads calls from rfl,
                List.length_append] at complete
              omega
        subst last
        refine ⟨next, [(call, front ++ [{ filled with frameEnd := true }])], rfl, ready, ?_, ?_⟩
        · rw [empty, measured']
          simp only [List.flatMap_cons, List.flatMap_nil, Option.toList_none, List.append_nil]
          have last : Chain (filled.data ++ []) filled.pts [{ filled with frameEnd := true }] true :=
            .last (List.append_nil _).symm rfl rfl
          exact extend last
        · rw [empty, measured']
          simp
      · rw [Nat.add_sub_cancel_left] at onward
        obtain ⟨final, labels, driven, ready, chain, held⟩ := ih member.2 onward (by
          intro measured' nothing
          subst nothing
          exact incomplete ⟨measured', by simp [payloads]⟩)
        simp only [driven, Option.map_some]
        refine ⟨final, (call, out) :: labels, rfl, ready, ?_, held⟩
        rw [List.flatMap_cons, List.append_assoc]
        exact extend chain

/-! ## A whole PES packet -/

/-- A PES packet returns the buffer held before as the end of its frame. Its own
buffers form a chain, whose last one is held unless the length was counted down. -/
theorem one_pes {streamType : Nat} (type : streamType ≠ hdmvAudio80Pcm) {this : Ts2es}
    (ready : Ready streamType this) (carried : CarriedPes) :
    ∃ next labels early, Machine.drive put this carried.calls = some (next, labels) ∧
      Ready streamType next ∧ labels.flatMap Prod.snd = endedFrame this.buf ++ early ∧
      Chain carried.pes.payload carried.pes.pts (early ++ next.buf.toList) carried.pes.measured ∧
      (next.buf = none ↔ carried.pes.measured = true) := by
  have lengths := congrArg List.length carried.carried
  rw [List.length_append, List.length_append] at lengths
  have longer := carried.headed.length_le
  have behind : carried.first.1.payload.drop carried.pes.header.length ++ payloads carried.rest =
      carried.pes.payload := by
    have dropped := congrArg (List.drop carried.pes.header.length) carried.carried
    rw [List.drop_append_of_le_length longer, List.drop_left] at dropped
    exact dropped
  obtain ⟨next, out, buf, called, data, pts, unflagged, outcome⟩ := first_packet type ready carried
  rw [CarriedPes.calls, Machine.drive, called]
  rcases outcome with ⟨⟨measured, complete⟩, empty, onward, rfl⟩ | ⟨incomplete, filling, rfl⟩
  · have none_left : carried.rest = [] := by
      cases same : carried.rest with
      | nil => rfl
      | cons later rest =>
          have more := (carried.continued later (same ▸ List.mem_cons_self)).headers
          have length : 0 < later.1.payload.length := by
            rw [later.1.payload_length]
            exact Nat.sub_pos_of_lt more
          rw [same, List.flatMap_cons, List.length_append] at lengths
          omega
    rw [none_left] at behind ⊢
    refine ⟨next, [(carried.first, _)], [{ buf with frameEnd := true }], rfl, onward, ?_, ?_, ?_⟩
    · rw [List.flatMap_cons, List.flatMap_nil, List.append_nil]
    · rw [empty, measured]
      refine .last ?_ pts rfl
      rw [← behind, show payloads [] = [] from rfl, List.append_nil, ← data]
      rfl
    · rw [empty, measured]
      simp
  · have left : carried.pes.header.length + carried.pes.payload.length -
        carried.first.1.payload.length = (payloads carried.rest).length := by
      unfold payloads
      omega
    rw [left] at filling
    obtain ⟨final, labels, driven, onward, chain, held⟩ :=
      rest_packets carried.rest carried.continued filling (by
        intro measured nothing
        refine incomplete ⟨measured, ?_⟩
        rw [nothing, List.flatMap_nil, List.length_nil] at lengths
        exact lengths)
    rw [data, pts, behind] at chain
    simp only [driven, Option.map_some]
    exact ⟨final, _, labels.flatMap Prod.snd, rfl, onward, List.flatMap_cons, chain, held⟩

/-! ## A sequence of PES packets -/

theorem Chain.end_last {content : List UInt8} {pts : Int} {early : List BufElement}
    {buf : BufElement} {ended : Bool} (chain : Chain content pts (early ++ [buf]) ended) :
    Chain content pts (early ++ [{ buf with frameEnd := true }]) true := by
  generalize whole : early ++ [buf] = buffers at chain
  induction chain generalizing early with
  | last data time flag =>
      obtain ⟨rfl, same⟩ := List.append_eq_singleton_iff.mp whole |>.resolve_right (by simp)
      cases same
      exact .last data time rfl
  | @split first content pts buffers ended time flag onward filled ih =>
      cases early with
      | nil =>
          cases whole
          cases onward
      | cons head early =>
          rw [List.cons_append, List.cons.injEq] at whole
          obtain ⟨rfl, whole⟩ := whole
          exact .split time flag (ih whole) filled

theorem Chain.end_held {content : List UInt8} {pts : Int} {early : List BufElement}
    {held : Option BufElement} {ended : Bool}
    (chain : Chain content pts (early ++ held.toList) ended) (returned : held = none ↔ ended = true) :
    Chain content pts (early ++ endedFrame held) true := by
  cases held with
  | none =>
      rw [returned.mp rfl] at chain
      exact chain
  | some buf => exact chain.end_last

/-- The buffer held at first is returned, and then those of the PES packets. -/
theorem run_reassembles {streamType : Nat} (type : streamType ≠ hdmvAudio80Pcm)
    (carried : CarriedPes) (rest : List CarriedPes) {this : Ts2es} (ready : Ready streamType this) :
    ∃ final labels buffers,
      Machine.drive put this ((carried :: rest).flatMap CarriedPes.calls) = some (final, labels) ∧
      labels.flatMap Prod.snd = endedFrame this.buf ++ buffers ∧
      Reassembled PesPacket.measured (carried :: rest) (buffers ++ final.buf.toList) := by
  obtain ⟨next, labels, early, driven, onward, returned, chain, held⟩ := one_pes type ready carried
  induction rest generalizing carried this next labels early with
  | nil =>
      refine ⟨next, labels, early, ?_, returned, .last chain⟩
      rw [List.flatMap_cons, List.flatMap_nil, List.append_nil]
      exact driven
  | cons following rest ih =>
      obtain ⟨_, _, _, driven', onward', returned', chain', held'⟩ := one_pes type onward following
      obtain ⟨final, more, buffers, rest_driven, rest_returned, others⟩ :=
        ih following onward _ _ _ driven' onward' returned' chain' held'
      refine ⟨final, labels ++ more, early ++ endedFrame next.buf ++ buffers, ?_, ?_, ?_⟩
      · rw [List.flatMap_cons]
        exact Machine.drive_append driven rest_driven
      · rw [List.flatMap_append, returned, rest_returned]
        simp only [List.append_assoc]
      · rw [List.append_assoc]
        exact .more (chain.end_held held) others

theorem init_ready (streamType : Nat) : Ready streamType (ts2esInit streamType) := by
  refine ⟨rfl, fun _ => Or.inl rfl, ?_⟩
  intro buf held
  cases held

theorem Chain.last_flag {content : List UInt8} {pts : Int} {buffers : List BufElement} {ended : Bool}
    (chain : Chain content pts buffers ended) :
    ∃ buf, buffers.getLast? = some buf ∧ buf.frameEnd = ended := by
  induction chain with
  | last data time flag => exact ⟨_, rfl, flag⟩
  | @split buf content pts buffers ended time flag onward filled ih =>
      obtain ⟨last, same, flagged⟩ := ih
      refine ⟨last, ?_, flagged⟩
      rw [List.getLast?_cons, same]
      rfl

theorem Reassembled.last_flag {complete : PesPacket → Bool} {carried : List CarriedPes}
    {buffers : List BufElement} (reassembled : Reassembled complete carried buffers)
    {last : CarriedPes} (ends : carried.getLast? = some last) :
    ∃ buf, buffers.getLast? = some buf ∧ buf.frameEnd = complete last.pes := by
  induction reassembled with
  | none => cases ends
  | last chain =>
      cases ends
      exact chain.last_flag
  | @more carried next rest buffers onward chain others ih =>
      rw [List.getLast?_cons_cons] at ends
      obtain ⟨buf, same, flagged⟩ := ih ends
      refine ⟨buf, ?_, flagged⟩
      rw [List.getLast?_append, same]
      rfl

theorem Reassembled.congr {complete other : PesPacket → Bool} {carried : List CarriedPes}
    {buffers : List BufElement} (reassembled : Reassembled complete carried buffers)
    (agree : ∀ last, carried.getLast? = some last → complete last.pes = other last.pes) :
    Reassembled other carried buffers := by
  induction reassembled with
  | none => exact .none
  | last chain =>
      rw [agree _ List.getLast?_singleton] at chain
      exact .last chain
  | more chain others ih => exact .more chain (ih fun last ends => agree last ends)

/-- The buffers are those of the PES packets exactly if the last one, where its length
is known, has more than twelve bytes of payload. -/
theorem reassembles_all_iff {streamType : Nat} (type : streamType ≠ hdmvAudio80Pcm)
    (carried : List CarriedPes) :
    ReassemblesAll streamType carried ↔
      ∀ last, carried.getLast? = some last → last.pes.known = true →
        12 < last.pes.payload.length := by
  cases carried with
  | nil =>
      constructor
      · intro _ last ends
        cases ends
      · intro _
        exact ⟨_, _, rfl, .none⟩
  | cons carried rest =>
      obtain ⟨final, labels, buffers, driven, returned, reassembled⟩ :=
        run_reassembles type carried rest (init_ready streamType)
      rw [show endedFrame (ts2esInit streamType).buf = [] from rfl, List.nil_append] at returned
      constructor
      · rintro ⟨other, otherLabels, otherDriven, known⟩ last ends given
        rw [driven, Option.some.injEq, Prod.mk.injEq] at otherDriven
        obtain ⟨rfl, rfl⟩ := otherDriven
        rw [returned] at known
        obtain ⟨buf, same, flagged⟩ := reassembled.last_flag ends
        obtain ⟨buf', same', flagged'⟩ := known.last_flag ends
        rw [same, Option.some.injEq] at same'
        subst same'
        rw [flagged, given, PesPacket.measured, given, Bool.true_and] at flagged'
        exact of_decide_eq_true flagged'
      · intro long
        refine ⟨final, labels, driven, ?_⟩
        rw [returned]
        apply reassembled.congr
        intro last ends
        unfold PesPacket.measured
        cases known : last.pes.known with
        | false => rfl
        | true => exact decide_eq_true (long last ends known)

abbrev iso13818Video : Nat := 0x02

def shortPicture : CarriedPes where
  pes :=
    { header := [0, 0, 1, 0xe0, 0, 7, 0x80, 0, 0]
      payload := [0, 0, 1, 0xb7]
      headerDataLength := 0
      start := by decide
      streamId := by decide
      lengthField := by decide
      headerSized := by decide
      timed := by decide
      sized := by decide }
  first := (.startingWith ([0x47, 0x40, 0x64, 0x30, 170] ++ List.replicate 170 0xff ++
    [0, 0, 1, 0xe0, 0, 7, 0x80, 0, 0] ++ [0, 0, 1, 0xb7]) 0, emptyPools)
  rest := []
  noError := by decide
  payload := by decide
  headers := by decide
  starts := by decide
  continued := by simp
  headed := by decide +kernel
  carried := by decide +kernel

/-- A picture of eighteen bytes, whose PES packet gives its length. -/
def longPicture : CarriedPes where
  pes :=
    { header := [0, 0, 1, 0xe0, 0, 21, 0x80, 0, 0]
      payload := List.replicate 18 0xb8
      headerDataLength := 0
      start := by decide
      streamId := by decide
      lengthField := by decide
      headerSized := by decide
      timed := by decide
      sized := by decide }
  first := (.startingWith ([0x47, 0x40, 0x64, 0x30, 156] ++ List.replicate 156 0xff ++
    [0, 0, 1, 0xe0, 0, 21, 0x80, 0, 0] ++ List.replicate 18 0xb8) 0, emptyPools)
  rest := []
  noError := by decide
  payload := by decide
  headers := by decide
  starts := by decide
  continued := by simp
  headed := by decide +kernel
  carried := by decide +kernel

theorem reassembles_two_pictures :
    iso13818Video ≠ hdmvAudio80Pcm ∧ ReassemblesAll iso13818Video [shortPicture, longPicture] := by
  refine ⟨by decide, (reassembles_all_iff (by decide) _).mpr ?_⟩
  intro last ends _
  cases ends
  decide

theorem short_picture_stays_open : ¬ReassemblesAll iso13818Video [shortPicture] := by
  rintro ⟨final, labels, driven, reassembled⟩
  obtain ⟨buf, same, flagged⟩ := reassembled.last_flag rfl
  have flags : (Machine.drive put (ts2esInit iso13818Video) [shortPicture.first]).map
      (fun result => (result.2.flatMap Prod.snd ++ result.1.buf.toList).map BufElement.frameEnd) =
        some [false] := by
    decide +kernel
  have calls : [shortPicture].flatMap CarriedPes.calls = [shortPicture.first] := rfl
  rw [← calls, driven, Option.map_some, Option.some.injEq] at flags
  have member : buf.frameEnd ∈ [false] := by
    rw [← flags]
    exact List.mem_map_of_mem (List.mem_of_getLast? same)
  rw [List.mem_singleton.mp member] at flagged
  exact absurd flagged (by decide)

end Xineliboutput.Ts
