import Xineliboutput.Tcp.Reader

/-!
# The TCP reader gives back the packets written

However the stream is cut into `recv` results and whatever calls return early in
between, what has been read of the next packet determines the reader's state. The
one packet that may go wrong has the position of a control message and no payload:
its first byte is then looked for behind the end of what was received.
-/

namespace Xineliboutput.Tcp

open Xineliboutput.Foundation Xineliboutput.StreamHeaders Xineliboutput.Client

set_option autoImplicit false

/-- What the caller gets of a packet. -/
inductive Output where
  | packet (pos : Nat) (stream : UInt8) (payload : List UInt8)
  | control (payload : List UInt8)
  deriving DecidableEq

def isControlData : List UInt8 → Bool
  | [] => false
  | first :: _ => first != 0 && first != 0x47

def TcpPacket.output (packet : TcpPacket) : Output :=
  if packet.pos = controlPos ∧ isControlData packet.payload then .control packet.payload
  else .packet packet.pos packet.stream.byte packet.payload

def output? (label : ReadOperation × ReadEffect) : Option Output :=
  match label.2 with
  | .delivered content =>
      some (.packet (hostPos content) (headerStream content) (content.drop tcpHeaderSize))
  | .control payload _ => some (.control payload)
  | .tooSmall | .returned | .going => none

def outputs (labels : List (ReadOperation × ReadEffect)) : List Output :=
  labels.filterMap output?

/-- Exactly the packets that have arrived whole have come out, in order, and no
packet was refused. -/
def ReadInOrder (packets : List TcpPacket) (labels : List (ReadOperation × ReadEffect))
    (reader : TcpReader) : Prop :=
  (∀ operation, (operation, ReadEffect.tooSmall) ∉ labels) ∧
    ∃ done rest part, packets = done ++ rest ∧ outputs labels = done.map TcpPacket.output ∧
      streamOf rest = part ++ reader.wire ∧
      ∀ next ∈ rest.head?, part.length < next.size

/-! ## The header in host byte order -/

def TcpPacket.hostHeader (packet : TcpPacket) : List UInt8 :=
  littleEndian 8 packet.pos ++ (littleEndian 4 packet.payload.length ++ [packet.stream.byte])

@[simp] theorem host_header_length (packet : TcpPacket) :
    packet.hostHeader.length = tcpHeaderSize := by
  simp [TcpPacket.hostHeader, tcpHeaderSize]

structure Fits (maxSize : Nat) (packet : TcpPacket) : Prop where
  pos : packet.pos < 2 ^ 64
  size : packet.size + tcpHeaderSize < maxSize

theorem Fits.payload {maxSize : Nat} {packet : TcpPacket} (fits : Fits maxSize packet)
    (small : maxSize < 2 ^ 31) : packet.payload.length < 2 ^ 32 := by
  have size := fits.size
  simp only [TcpPacket.size] at size
  omega

theorem swap_header (packet : TcpPacket) (posFits : packet.pos < 2 ^ 64)
    (lengthFits : packet.payload.length < 2 ^ 32) :
    swapHeader packet.header = packet.hostHeader := by
  have pos := header_pos_read packet [] posFits
  have length := header_len_read packet [] lengthFits
  rw [List.append_nil] at pos length
  rw [swapHeader, pos, length, TcpPacket.hostHeader, List.append_assoc]
  rfl

theorem host_fields (packet : TcpPacket) (rest : List UInt8) (posFits : packet.pos < 2 ^ 64)
    (lengthFits : packet.payload.length < 2 ^ 32) :
    hostPos (packet.hostHeader ++ rest) = packet.pos ∧
      hostLen (packet.hostHeader ++ rest) = packet.payload.length ∧
      headerStream (packet.hostHeader ++ rest) = packet.stream.byte := by
  have layout : packet.hostHeader ++ rest = littleEndian 8 packet.pos ++
      (littleEndian 4 packet.payload.length ++ (packet.stream.byte :: rest)) := by
    simp [TcpPacket.hostHeader]
  rw [layout]
  refine ⟨?_, ?_, rfl⟩
  · rw [hostPos, List.take_left' (little_endian_length _ _)]
    exact little_endian_value_encode 8 _ posFits
  · rw [hostLen, List.drop_left' (little_endian_length _ _),
      List.take_left' (little_endian_length _ _)]
    exact little_endian_value_encode 4 _ lengthFits

/-- What the buffer holds of a packet of which `count` bytes have been read. -/
def TcpPacket.readPart (packet : TcpPacket) (count : Nat) : List UInt8 :=
  if count < tcpHeaderSize then packet.header.take count
  else packet.hostHeader ++ packet.payload.take (count - tcpHeaderSize)

theorem read_part_length (packet : TcpPacket) {count : Nat} (inside : count ≤ packet.size) :
    (packet.readPart count).length = count := by
  simp only [TcpPacket.size] at inside
  by_cases inHeader : count < tcpHeaderSize
  · rw [TcpPacket.readPart, if_pos inHeader, List.length_take, TcpPacket.header_length]
    omega
  · rw [TcpPacket.readPart, if_neg inHeader, List.length_append, List.length_take,
      host_header_length]
    omega

theorem read_part_header (packet : TcpPacket) (tail : List UInt8) {count more : Nat}
    (inside : count + more < tcpHeaderSize) :
    packet.readPart count ++ (packet.bytes.drop count ++ tail).take more =
      packet.readPart (count + more) := by
  have long : count + more ≤ packet.header.length := by
    rw [TcpPacket.header_length]
    omega
  rw [TcpPacket.readPart, if_pos (by omega), TcpPacket.readPart, if_pos inside, TcpPacket.bytes,
    List.drop_append_of_le_length (by omega), List.append_assoc,
    List.take_append_of_le_length (by rw [List.length_drop]; omega), ← List.take_add]

theorem read_part_header_end (packet : TcpPacket) (tail : List UInt8) {count more : Nat}
    (inside : count < tcpHeaderSize) (ends : count + more = tcpHeaderSize) :
    packet.readPart count ++ (packet.bytes.drop count ++ tail).take more = packet.header := by
  have long : count + more = packet.header.length := by rw [TcpPacket.header_length, ends]
  rw [TcpPacket.readPart, if_pos inside, TcpPacket.bytes,
    List.drop_append_of_le_length (by omega), List.append_assoc,
    List.take_append_of_le_length (by rw [List.length_drop]; omega), ← List.take_add, long,
    List.take_length]

theorem read_part_payload (packet : TcpPacket) (tail : List UInt8) {count more : Nat}
    (behind : tcpHeaderSize ≤ count) (inside : count + more ≤ packet.size) :
    packet.readPart count ++ (packet.bytes.drop count ++ tail).take more =
      packet.readPart (count + more) := by
  have bytes : packet.bytes.drop count = packet.payload.drop (count - tcpHeaderSize) := by
    rw [TcpPacket.bytes, List.drop_append, List.drop_of_length_le (by simpa using behind),
      List.nil_append, TcpPacket.header_length]
  have room : more ≤ (packet.payload.drop (count - tcpHeaderSize)).length := by
    rw [List.length_drop]
    simp only [TcpPacket.size] at inside
    omega
  rw [TcpPacket.readPart, if_neg (by omega), TcpPacket.readPart, if_neg (by omega), bytes,
    List.take_append_of_le_length room, List.append_assoc, ← List.take_add]
  congr 3
  omega

/-- `todo` while `count` bytes of the packet have been read. -/
def TcpPacket.todo (packet : TcpPacket) (count : Nat) : Nat :=
  if count < tcpHeaderSize then tcpHeaderSize else packet.size

theorem read_part_size (packet : TcpPacket) :
    packet.readPart packet.size = packet.hostHeader ++ packet.payload := by
  rw [TcpPacket.readPart, if_neg (by simp [TcpPacket.size]), TcpPacket.size,
    Nat.add_sub_cancel_left, List.take_length]

/-! ## One round of the loop -/

namespace TcpReader

theorem arrived_cases (reader : TcpReader) (packet : TcpPacket) (tail : List UInt8)
    (buffer : ReadBuffer) {count more : Nat} (fits : Fits reader.maxSize packet)
    (small : reader.maxSize < 2 ^ 31) (unread : count < packet.size) (some_bytes : 0 < more)
    (bound : more ≤ packet.todo count - count)
    (received : buffer.received =
      packet.readPart count ++ (packet.bytes.drop count ++ tail).take more) :
    (count + more < packet.size ∧
      ∃ after : ReadBuffer, after.received = packet.readPart (count + more) ∧
        after.beyond = buffer.beyond ∧
        reader.arrived buffer (packet.todo count) =
          ({ reader with readBuffer := some after, todo := some (packet.todo (count + more)) },
            .going)) ∨
    (count + more = packet.size ∧
      ∃ after : ReadBuffer, after.received = packet.hostHeader ++ packet.payload ∧
        after.beyond = buffer.beyond ∧
        reader.arrived buffer (packet.todo count) = reader.complete after) := by
  have lengthFits := fits.payload small
  have room := fits.size
  have whole : packet.size = tcpHeaderSize + packet.payload.length := rfl
  by_cases inHeader : count < tcpHeaderSize
  · have todo : packet.todo count = tcpHeaderSize := if_pos inHeader
    rw [todo] at bound ⊢
    by_cases ends : count + more = tcpHeaderSize
    · -- the last byte of the header: it is swapped, and `todo` grows by the payload
      rw [read_part_header_end packet tail inHeader ends] at received
      have swapped : swapHeader buffer.received = packet.hostHeader := by
        rw [received]
        exact swap_header packet fits.pos lengthFits
      have hostLength : hostLen packet.hostHeader = packet.payload.length := by
        have fields := host_fields packet [] fits.pos lengthFits
        rw [List.append_nil] at fields
        exact fields.2.1
      have atHeader : buffer.received.length = tcpHeaderSize := by
        rw [received, TcpPacket.header_length]
      simp only [arrived, if_pos atHeader, swapped, hostLength, host_header_length, ← whole]
      rw [if_neg (by omega)]
      by_cases payload : packet.payload = []
      · apply Or.inr
        refine ⟨by rw [whole, payload, List.length_nil]; exact ends, ⟨packet.hostHeader,
          buffer.beyond⟩, by simp [payload], rfl, ?_⟩
        rw [if_pos (by rw [whole, payload]; exact Nat.le_refl _)]
      · have some_payload : 0 < packet.payload.length := List.length_pos_iff.mpr payload
        apply Or.inl
        refine ⟨by omega, ⟨packet.hostHeader, buffer.beyond⟩, ?_, rfl, ?_⟩
        · simp [TcpPacket.readPart, ends]
        · rw [if_neg (by omega), ends, TcpPacket.todo, if_neg (Nat.lt_irrefl _)]
    · have within : count + more < tcpHeaderSize := by omega
      rw [read_part_header packet tail within] at received
      have length : buffer.received.length = count + more := by
        rw [received, read_part_length packet (by omega)]
      apply Or.inl
      refine ⟨by omega, buffer, received, rfl, ?_⟩
      rw [arrived, if_neg (by omega), if_neg (by omega), TcpPacket.todo, if_pos within]
  · have todo : packet.todo count = packet.size := if_neg inHeader
    rw [todo] at bound ⊢
    rw [read_part_payload packet tail (by omega) (by omega)] at received
    have length : buffer.received.length = count + more := by
      rw [received, read_part_length packet (by omega)]
    by_cases ends : count + more = packet.size
    · apply Or.inr
      refine ⟨ends, buffer, ?_, rfl, ?_⟩
      · rw [received, ends, read_part_size]
      · rw [arrived, if_neg (by omega), if_pos (by omega)]
    · apply Or.inl
      refine ⟨by omega, buffer, received, rfl, ?_⟩
      rw [arrived, if_neg (by omega), if_neg (by omega), TcpPacket.todo, if_neg (by omega)]

/-- A packet with the position of a control message and nothing in it. -/
def Ambiguous (packet : TcpPacket) : Prop := packet.pos = controlPos ∧ packet.payload = []

instance (packet : TcpPacket) : Decidable (Ambiguous packet) :=
  inferInstanceAs (Decidable (_ ∧ _))

theorem complete_output (reader : TcpReader) (packet : TcpPacket) (buffer : ReadBuffer)
    (posFits : packet.pos < 2 ^ 64) (lengthFits : packet.payload.length < 2 ^ 32)
    (clear : ¬ Ambiguous packet)
    (received : buffer.received = packet.hostHeader ++ packet.payload) :
    ∃ discardIndexDs effect, reader.complete buffer =
        ({ reader with
            readBuffer := none, todo := none, discardIndexDs := discardIndexDs }, effect) ∧
      effect ≠ .tooSmall ∧ ∀ operation, output? (operation, effect) = some packet.output := by
  obtain ⟨pos, -, stream⟩ := host_fields packet packet.payload posFits lengthFits
  have payload : (packet.hostHeader ++ packet.payload).drop tcpHeaderSize = packet.payload :=
    List.drop_left' (host_header_length packet)
  have decides : (hostPos buffer.received = controlPos ∧
      !dataIsTs (buffer.received.drop tcpHeaderSize ++ buffer.beyond) ∧
      (buffer.received.drop tcpHeaderSize ++ buffer.beyond).getD 0 0 ≠ 0) ↔
      (packet.pos = controlPos ∧ isControlData packet.payload) := by
    rw [received, pos, payload]
    apply and_congr_right
    intro control
    cases bytes : packet.payload with
    | nil => exact absurd ⟨control, bytes⟩ clear
    | cons first rest =>
        simp only [dataIsTs, isControlData, List.cons_append, List.getD_cons_zero,
          Bool.not_eq_true', beq_eq_false_iff_ne, Bool.and_eq_true, bne_iff_ne]
        exact And.comm
  rw [complete]
  by_cases control : packet.pos = controlPos ∧ isControlData packet.payload
  · rw [if_pos (decides.mpr control)]
    refine ⟨_, _, rfl, by simp, ?_⟩
    intro operation
    simp only [output?, received, payload, TcpPacket.output, if_pos control]
  · rw [if_neg (fun holds => control (decides.mp holds))]
    refine ⟨reader.discardIndexDs, _, rfl, by simp, ?_⟩
    intro operation
    simp only [output?, received, payload, TcpPacket.output, if_neg control, pos, stream]

/-! ## Runs -/

def received (reader : TcpReader) : List UInt8 :=
  match reader.readBuffer with
  | none => []
  | some buffer => buffer.received

/-- `count` bytes of the first of the remaining packets have been read. -/
def HalfRead (reader : TcpReader) (count : Nat) : List TcpPacket → Prop
  | [] => count = 0 ∧ reader.received = [] ∧ reader.wire = []
  | packet :: later => count < packet.size ∧ reader.received = packet.readPart count ∧
      reader.wire = packet.bytes.drop count ++ streamOf later ∧
      (reader.readBuffer.isSome → ∀ todo ∈ reader.todo, todo = packet.todo count)

structure Reading (packets : List TcpPacket) (maxSize : Nat)
    (labels : List (ReadOperation × ReadEffect)) (reader : TcpReader)
    (done rest : List TcpPacket) (count : Nat) : Prop where
  split : packets = done ++ rest
  outputs : Tcp.outputs labels = done.map TcpPacket.output
  accepted : ∀ operation, (operation, ReadEffect.tooSmall) ∉ labels
  size : reader.maxSize = maxSize
  half : reader.HalfRead count rest
  waiting : ∀ todo ∈ reader.todo, rest = [] → todo = tcpHeaderSize

theorem outputs_snoc (labels : List (ReadOperation × ReadEffect))
    (label : ReadOperation × ReadEffect) :
    outputs (labels ++ [label]) = outputs labels ++ (output? label).toList := by
  cases found : output? label with
  | none => simp [outputs, found]
  | some output => simp [outputs, found]

theorem accepted_snoc {labels : List (ReadOperation × ReadEffect)} {operation : ReadOperation}
    {effect : ReadEffect} (before : ∀ operation, (operation, ReadEffect.tooSmall) ∉ labels)
    (fine : effect ≠ .tooSmall) :
    ∀ other, (other, ReadEffect.tooSmall) ∉ labels ++ [(operation, effect)] := by
  intro other member
  rcases List.mem_append.mp member with earlier | last
  · exact before other earlier
  · exact fine (Prod.mk.inj (List.mem_singleton.mp last)).2.symm

theorem half_read_entry {reader : TcpReader} {count : Nat} {packet : TcpPacket}
    {later : List TcpPacket} (half : reader.HalfRead count (packet :: later))
    (posFits : packet.pos < 2 ^ 64) (lengthFits : packet.payload.length < 2 ^ 32)
    (some_buffer : reader.readBuffer.isSome) : reader.entryTodo = packet.todo count := by
  obtain ⟨buffer, held⟩ := Option.isSome_iff_exists.mp some_buffer
  obtain ⟨inside, received, -, -⟩ := half
  simp only [TcpReader.received, held] at received
  have length : buffer.received.length = count := by
    rw [received, read_part_length packet (by omega)]
  simp only [entryTodo, held, length, TcpPacket.todo]
  by_cases inHeader : count < tcpHeaderSize
  · rw [if_neg (by omega), if_pos inHeader]
  · have fields := host_fields packet (packet.payload.take (count - tcpHeaderSize)) posFits
      lengthFits
    rw [if_pos (by omega), if_neg inHeader, received, TcpPacket.readPart, if_neg inHeader,
      fields.2.1, TcpPacket.size]

theorem nothing_read_entry {reader : TcpReader} (nothing : reader.received = []) :
    reader.entryTodo = tcpHeaderSize := by
  unfold TcpReader.received at nothing
  unfold entryTodo
  cases held : reader.readBuffer with
  | none => rfl
  | some buffer =>
      rw [held] at nothing
      simp only at nothing
      simp [nothing, tcpHeaderSize]

theorem half_read_allocate {reader : TcpReader} {count : Nat} {packet : TcpPacket}
    {later : List TcpPacket} (half : reader.HalfRead count (packet :: later)) {kept : Nat}
    (calling : reader.todo = some kept) (memory : List UInt8) :
    ∃ buffer : ReadBuffer, reader.allocate memory kept = (buffer, packet.todo count) ∧
      buffer.received = packet.readPart count := by
  obtain ⟨inside, received, -, todo⟩ := half
  unfold TcpReader.received at received
  unfold allocate
  cases held : reader.readBuffer with
  | none =>
      rw [held] at received
      have zero : count = 0 := by
        have length := congrArg List.length received
        rw [read_part_length packet (by omega)] at length
        exact length.symm
      refine ⟨⟨[], memory⟩, ?_, received⟩
      rw [zero]
      rfl
  | some buffer =>
      rw [held] at received todo
      refine ⟨buffer, ?_, received⟩
      rw [todo rfl kept calling]

theorem allocate_received (reader : TcpReader) (memory : List UInt8) (kept : Nat) :
    (reader.allocate memory kept).1.received = reader.received := by
  unfold allocate TcpReader.received
  cases reader.readBuffer <;> rfl

theorem half_read_start {reader : TcpReader} (empty : reader.readBuffer = none)
    (rest : List TcpPacket) (wire : reader.wire = streamOf rest) : reader.HalfRead 0 rest := by
  have nothing : reader.received = [] := by rw [TcpReader.received, empty]
  cases rest with
  | nil => exact ⟨rfl, nothing, wire⟩
  | cons packet later =>
      exact ⟨packet.size_pos, nothing, wire, by simp [empty]⟩

theorem half_read_kept {reader : TcpReader} {count : Nat} {rest : List TcpPacket}
    (half : reader.HalfRead count rest) {buffer : ReadBuffer}
    (same : buffer.received = reader.received) :
    HalfRead { reader with readBuffer := some buffer, todo := none } count rest := by
  have received :
      TcpReader.received { reader with readBuffer := some buffer, todo := none } =
        reader.received := same
  cases rest with
  | nil => exact ⟨half.1, received.trans half.2.1, half.2.2⟩
  | cons packet later =>
      exact ⟨half.1, received.trans half.2.1, half.2.2.1, by simp⟩

section Reading

variable {packets : List TcpPacket} {maxSize : Nat} {reader next : TcpReader}
  {labels : List (ReadOperation × ReadEffect)} {done rest : List TcpPacket} {count : Nat}

theorem Reading.silent (reading : Reading packets maxSize labels reader done rest count)
    {operation : ReadOperation} {effect : ReadEffect} {now : Nat}
    (quiet : effect = .going ∨ effect = .returned) (size : next.maxSize = reader.maxSize)
    (half : next.HalfRead now rest)
    (waiting : ∀ todo ∈ next.todo, rest = [] → todo = tcpHeaderSize) :
    Reading packets maxSize (labels ++ [(operation, effect)]) next done rest now where
  split := reading.split
  outputs := by
    rw [outputs_snoc, reading.outputs]
    rcases quiet with rfl | rfl <;> simp [output?]
  accepted := accepted_snoc reading.accepted (by rcases quiet with rfl | rfl <;> simp)
  size := size.trans reading.size
  half := half
  waiting := waiting

theorem Reading.enter (small : maxSize < 2 ^ 31) (fits : ∀ packet ∈ packets, Fits maxSize packet)
    (reading : Reading packets maxSize labels reader done rest count) (discardIndex : Nat) :
    Reading packets maxSize (labels ++ [(.enter discardIndex, .going)])
      { reader with todo := some reader.entryTodo } done rest count := by
  have halfRead := reading.half
  refine reading.silent (.inl rfl) rfl ?_ ?_
  · cases rest with
    | nil => exact halfRead
    | cons packet later =>
        refine ⟨halfRead.1, halfRead.2.1, halfRead.2.2.1, ?_⟩
        intro some_buffer todo member
        have fit := fits packet (by simp [reading.split])
        rw [← Option.some.inj member]
        exact half_read_entry halfRead fit.pos (fit.payload small) some_buffer
  · intro todo member none_left
    subst none_left
    rw [← Option.some.inj member]
    exact nothing_read_entry halfRead.2.1

theorem Reading.bytes (small : maxSize < 2 ^ 31) (fits : ∀ packet ∈ packets, Fits maxSize packet)
    (clear : ∀ packet ∈ packets, ¬ Ambiguous packet) {packet : TcpPacket}
    {later : List TcpPacket}
    (reading : Reading packets maxSize labels reader done (packet :: later) count)
    {buffer : ReadBuffer} (part : buffer.received = packet.readPart count) {more : Nat}
    (nonempty : 0 < more) (bound : more ≤ packet.todo count - count) {operation : ReadOperation}
    {effect : ReadEffect}
    (arrives : arrived { reader with wire := reader.wire.drop more }
      ⟨buffer.received ++ reader.wire.take more, buffer.beyond.drop more⟩ (packet.todo count) =
        (next, effect)) :
    ∃ done rest count,
      Reading packets maxSize (labels ++ [(operation, effect)]) next done rest count := by
  obtain ⟨inside, -, wire, -⟩ := reading.half
  have member_of : packet ∈ packets := by simp [reading.split]
  have fit : Fits reader.maxSize packet := reading.size ▸ fits packet member_of
  have todoBound : packet.todo count ≤ packet.size := by
    unfold TcpPacket.todo TcpPacket.size
    split <;> omega
  have wireAfter (within : count + more ≤ packet.size) :
      reader.wire.drop more = packet.bytes.drop (count + more) ++ streamOf later := by
    rw [wire, List.drop_append_of_le_length, List.drop_drop]
    rw [List.length_drop, TcpPacket.bytes_length]
    omega
  rcases arrived_cases { reader with wire := reader.wire.drop more } packet (streamOf later)
    ⟨buffer.received ++ reader.wire.take more, buffer.beyond.drop more⟩ fit
    (reading.size ▸ small) inside nonempty bound (by rw [part, wire]) with
    ⟨unread, after, afterReceived, -, result⟩ | ⟨whole, after, afterReceived, -, result⟩
  · rw [result] at arrives
    obtain ⟨rfl, rfl⟩ := Prod.mk.inj arrives
    refine ⟨done, packet :: later, count + more, reading.silent (.inl rfl) rfl ?_ (by simp)⟩
    refine ⟨unread, afterReceived, wireAfter (by omega), ?_⟩
    intro _ todo member
    exact (Option.some.inj member).symm
  · obtain ⟨discardIndexDs, ends, completed, fine, out⟩ := complete_output
      { reader with wire := reader.wire.drop more } packet after fit.pos
      (fit.payload (reading.size ▸ small)) (clear packet member_of) afterReceived
    rw [result, completed] at arrives
    obtain ⟨rfl, rfl⟩ := Prod.mk.inj arrives
    have spent : packet.bytes.drop packet.size = [] :=
      List.drop_of_length_le (Nat.le_of_eq packet.bytes_length)
    have onward := wireAfter (by omega)
    rw [whole, spent, List.nil_append] at onward
    exact ⟨done ++ [packet], later, 0, {
      split := by rw [reading.split, List.append_assoc]; rfl
      outputs := by
        rw [outputs_snoc, reading.outputs, out]
        simp
      accepted := accepted_snoc reading.accepted fine
      size := reading.size
      half := half_read_start rfl later onward
      waiting := by simp }⟩

/-- Every step of a call keeps what is known of the packet that is being read. -/
theorem perform_reading {operation : ReadOperation} {effect : ReadEffect}
    (small : maxSize < 2 ^ 31) (fits : ∀ packet ∈ packets, Fits maxSize packet)
    (clear : ∀ packet ∈ packets, ¬ Ambiguous packet)
    (reading : Reading packets maxSize labels reader done rest count)
    (performed : reader.perform operation = some (next, effect)) :
    ∃ done rest count,
      Reading packets maxSize (labels ++ [(operation, effect)]) next done rest count := by
  have halfRead := reading.half
  cases operation with
  | enter discardIndex =>
      simp only [perform] at performed
      split at performed
      · simp at performed
      · split at performed
        all_goals obtain ⟨rfl, rfl⟩ := Prod.mk.inj (Option.some.inj performed)
        · exact ⟨done, rest, count, reading.silent (.inr rfl) rfl halfRead reading.waiting⟩
        · exact ⟨done, rest, count, reading.enter small fits discardIndex⟩
  | returnIdle =>
      simp only [perform] at performed
      split at performed
      · simp at performed
      · obtain ⟨rfl, rfl⟩ := Prod.mk.inj (Option.some.inj performed)
        refine ⟨done, rest, count, reading.silent (.inr rfl) rfl ?_ (by simp)⟩
        cases rest with
        | nil => exact halfRead
        | cons packet later => exact ⟨halfRead.1, halfRead.2.1, halfRead.2.2.1, by simp⟩
  | noBuffer =>
      simp only [perform] at performed
      split at performed
      · obtain ⟨rfl, rfl⟩ := Prod.mk.inj (Option.some.inj performed)
        exact ⟨done, rest, count, reading.silent (.inl rfl) rfl halfRead reading.waiting⟩
      all_goals simp at performed
  | ready memory answer =>
      simp only [perform] at performed
      split at performed
      · simp at performed
      · rename_i kept calling
        have received := reader.allocate_received memory kept
        cases answer with
        | bytes more =>
            simp only at performed
            split at performed
            · rename_i some_bytes
              obtain ⟨nonempty, bound, available⟩ := some_bytes
              cases rest with
              | nil =>
                  rw [halfRead.2.2, List.length_nil] at available
                  omega
              | cons packet later =>
                  obtain ⟨buffer, allocated, part⟩ := half_read_allocate halfRead calling memory
                  have length : buffer.received.length = count := by
                    rw [part, read_part_length packet (Nat.le_of_lt halfRead.1)]
                  rw [allocated] at performed bound
                  simp only [length] at bound
                  exact reading.bytes small fits clear part nonempty bound
                    (Option.some.inj performed)
            · simp at performed
        | again | gone =>
            obtain ⟨rfl, rfl⟩ := Prod.mk.inj (Option.some.inj performed)
            exact ⟨done, rest, count,
              reading.silent (.inr rfl) rfl (half_read_kept halfRead received) (by simp)⟩

end Reading

theorem run_reading {packets : List TcpPacket} {maxSize : Nat}
    {labels : List (ReadOperation × ReadEffect)} {reader : TcpReader} (small : maxSize < 2 ^ 31)
    (fits : ∀ packet ∈ packets, Fits maxSize packet)
    (clear : ∀ packet ∈ packets, ¬ Ambiguous packet)
    (run : (machine maxSize packets).Run labels reader) :
    ∃ done rest count, Reading packets maxSize labels reader done rest count := by
  refine run.invariant (fun labels reader =>
    ∃ done rest count, Reading packets maxSize labels reader done rest count) ?_ ?_
  · rintro reader rfl
    exact ⟨[], packets, 0, {
      split := rfl
      outputs := rfl
      accepted := by simp
      size := rfl
      half := half_read_start rfl packets rfl
      waiting := by simp [new] }⟩
  · rintro labels reader ⟨operation, effect⟩ next ⟨done, rest, count, reading⟩ performed
    exact perform_reading small fits clear reading performed

theorem Reading.in_order {packets : List TcpPacket} {maxSize : Nat}
    {labels : List (ReadOperation × ReadEffect)} {reader : TcpReader}
    {done rest : List TcpPacket} {count : Nat}
    (reading : Reading packets maxSize labels reader done rest count) :
    ReadInOrder packets labels reader := by
  refine ⟨reading.accepted, done, rest, ?_⟩
  have half := reading.half
  cases rest with
  | nil =>
      refine ⟨[], reading.split, reading.outputs, ?_, by simp⟩
      rw [half.2.2]
      rfl
  | cons packet later =>
      obtain ⟨inside, -, wire, -⟩ := half
      refine ⟨packet.bytes.take count, reading.split, reading.outputs, ?_, ?_⟩
      · rw [wire, ← List.append_assoc, List.take_append_drop]
        rfl
      · intro next member
        obtain rfl : packet = next := Option.some.inj member
        rw [List.length_take]
        omega

/-! ## The packet that may go wrong -/

structure Idle (reader : TcpReader) (maxSize : Nat) (wire : List UInt8) : Prop where
  empty : reader.readBuffer = none
  outside : reader.todo = none
  size : reader.maxSize = maxSize
  coming : reader.wire = wire

theorem complete_idle (reader : TcpReader) (buffer : ReadBuffer) :
    Idle (reader.complete buffer).1 reader.maxSize reader.wire := by
  unfold complete
  simp only
  split <;> exact ⟨rfl, rfl, rfl, rfl⟩

/-- `recv` answers with all of the given bytes. -/
theorem ready_step (packets : List TcpPacket) (maxSize : Nat) (reader : TcpReader)
    (memory : List UInt8) (buffer : ReadBuffer) (todo : Nat) {kept : Nat}
    (calling : reader.todo = some kept)
    (allocated : reader.allocate memory kept = (buffer, todo)) {bytes tail : List UInt8}
    (coming : reader.wire = bytes ++ tail) (nonempty : bytes ≠ [])
    (bound : bytes.length ≤ todo - buffer.received.length) :
    (machine maxSize packets).step reader
      (.ready memory (.bytes bytes.length),
        (arrived { reader with wire := tail }
          ⟨buffer.received ++ bytes, buffer.beyond.drop bytes.length⟩ todo).2)
      (arrived { reader with wire := tail }
        ⟨buffer.received ++ bytes, buffer.beyond.drop bytes.length⟩ todo).1 := by
  have some_bytes : 0 < bytes.length := List.length_pos_iff.mpr nonempty
  have available : bytes.length ≤ reader.wire.length := by simp [coming]
  show reader.perform (.ready memory (.bytes bytes.length)) = some (_, _)
  simp only [perform, calling, allocated]
  rw [if_pos ⟨some_bytes, bound, available⟩, coming, List.take_left' rfl, List.drop_left' rfl]

theorem enter_step (packets : List TcpPacket) {maxSize : Nat} {reader : TcpReader}
    {wire : List UInt8} (idle : Idle reader maxSize wire) :
    (machine maxSize packets).step reader (.enter reader.discardIndexDs, .going)
      { reader with todo := some tcpHeaderSize } := by
  simp [machine, perform, idle.outside, entryTodo, idle.empty]

theorem header_nonempty (packet : TcpPacket) : packet.header ≠ [] := by
  intro empty
  have length := congrArg List.length empty
  rw [TcpPacket.header_length] at length
  exact absurd length (by decide)

theorem reads_packet {packets : List TcpPacket} {maxSize : Nat}
    {labels : List (ReadOperation × ReadEffect)} {reader : TcpReader}
    (run : (machine maxSize packets).Run labels reader) (small : maxSize < 2 ^ 31)
    {packet : TcpPacket} {tail : List UInt8} (fits : Fits maxSize packet)
    (idle : Idle reader maxSize (packet.bytes ++ tail)) :
    ∃ labels reader, (machine maxSize packets).Run labels reader ∧ Idle reader maxSize tail := by
  obtain ⟨empty, outside, size, coming⟩ := idle
  subst size
  have whole : packet.size = tcpHeaderSize + packet.payload.length := rfl
  rw [TcpPacket.bytes, List.append_assoc] at coming
  have entered := run.snoc (enter_step packets ⟨empty, outside, rfl, coming⟩)
  have headerStep := ready_step packets reader.maxSize
    { reader with todo := some tcpHeaderSize } [] ⟨[], []⟩ tcpHeaderSize rfl
    (by simp only [allocate, empty]) coming (header_nonempty packet)
    (Nat.le_of_eq (TcpPacket.header_length packet))
  have headerRead := entered.snoc headerStep
  have first : [] ++ packet.header =
      packet.readPart 0 ++ (packet.bytes.drop 0 ++ tail).take tcpHeaderSize := by
    rw [List.drop_zero, TcpPacket.bytes, List.append_assoc,
      List.take_left' (TcpPacket.header_length packet)]
    rfl
  rcases arrived_cases
    { reader with todo := some tcpHeaderSize, wire := packet.payload ++ tail } packet tail
    ⟨[] ++ packet.header, [].drop packet.header.length⟩ fits small packet.size_pos
    (show 0 < tcpHeaderSize by decide) (Nat.le_refl _) first with
    ⟨unread, after, afterReceived, -, result⟩ | ⟨ends, after, -, -, result⟩
  · have inPayload : packet.todo (0 + tcpHeaderSize) = packet.size := by
      rw [Nat.zero_add, TcpPacket.todo, if_neg (Nat.lt_irrefl _)]
    have behindHeader : packet.todo tcpHeaderSize = packet.size := by
      rw [TcpPacket.todo, if_neg (Nat.lt_irrefl _)]
    rw [inPayload] at result
    have halfway := (congrArg Prod.fst result) ▸ headerRead
    have length : after.received.length = tcpHeaderSize := by
      rw [afterReceived, read_part_length packet (by omega), Nat.zero_add]
    have payloadStep := ready_step packets reader.maxSize
      { reader with
        readBuffer := some after, todo := some packet.size, wire := packet.payload ++ tail }
      [] after packet.size rfl rfl rfl
      (List.length_pos_iff.mp (by omega)) (by rw [length]; omega)
    have payloadRead := halfway.snoc payloadStep
    have second : after.received ++ packet.payload =
        packet.readPart tcpHeaderSize ++
          (packet.bytes.drop tcpHeaderSize ++ tail).take packet.payload.length := by
      rw [afterReceived, Nat.zero_add, TcpPacket.bytes,
        List.drop_left' (TcpPacket.header_length packet), List.take_left' rfl]
    rcases arrived_cases
      { reader with readBuffer := some after, todo := some packet.size, wire := tail } packet tail
      ⟨after.received ++ packet.payload, after.beyond.drop packet.payload.length⟩ fits small
      (show tcpHeaderSize < packet.size by omega)
      (show 0 < packet.payload.length by omega) (by rw [behindHeader]; omega) second with
      ⟨partly, -⟩ | ⟨-, final, -, -, completed⟩
    · omega
    · rw [behindHeader] at completed
      refine ⟨_, _, (congrArg Prod.fst completed) ▸ payloadRead, ?_⟩
      exact complete_idle _ final
  · have payload : packet.payload = [] := List.length_eq_zero_iff.mp (by omega)
    refine ⟨_, _, (congrArg Prod.fst result) ▸ headerRead, ?_⟩
    have after_idle := complete_idle
      { reader with todo := some tcpHeaderSize, wire := packet.payload ++ tail } after
    exact ⟨after_idle.empty, after_idle.outside, after_idle.size,
      after_idle.coming.trans (by rw [payload]; rfl)⟩

theorem reads_packets {packets : List TcpPacket} {maxSize : Nat} (small : maxSize < 2 ^ 31)
    (before : List TcpPacket) (fits : ∀ packet ∈ before, Fits maxSize packet)
    {labels : List (ReadOperation × ReadEffect)} {reader : TcpReader} {tail : List UInt8}
    (run : (machine maxSize packets).Run labels reader)
    (idle : Idle reader maxSize (streamOf before ++ tail)) :
    ∃ labels reader, (machine maxSize packets).Run labels reader ∧ Idle reader maxSize tail := by
  induction before generalizing labels reader with
  | nil => exact ⟨labels, reader, run, idle⟩
  | cons packet before ih =>
      rw [stream_of_cons, List.append_assoc] at idle
      obtain ⟨nextLabels, next, onward, nextIdle⟩ := reads_packet run small (fits packet (by simp))
        idle
      exact ih (fun other member => fits other (by simp [member])) onward nextIdle

/-- What lies in memory behind an ambiguous packet may make it a control message. -/
theorem ambiguous_read_as_control {packets : List TcpPacket} {maxSize : Nat}
    (small : maxSize < 2 ^ 31) {packet : TcpPacket} (fits : Fits maxSize packet)
    (ambiguous : Ambiguous packet) {labels : List (ReadOperation × ReadEffect)}
    {reader : TcpReader} {tail : List UInt8} (run : (machine maxSize packets).Run labels reader)
    (idle : Idle reader maxSize (packet.bytes ++ tail)) :
    ∃ labels reader, (machine maxSize packets).Run labels reader ∧
      Output.control [] ∈ outputs labels := by
  obtain ⟨empty, outside, size, coming⟩ := idle
  subst size
  obtain ⟨position, payload⟩ := ambiguous
  have whole : packet.size = tcpHeaderSize := by rw [TcpPacket.size, payload]; rfl
  have headerOnly : packet.bytes = packet.header := by
    rw [TcpPacket.bytes, payload, List.append_nil]
  rw [headerOnly] at coming
  have entered := run.snoc (enter_step packets ⟨empty, outside, rfl, coming⟩)
  let memory : List UInt8 := List.replicate 13 0 ++ [1]
  have headerStep := ready_step packets reader.maxSize
    { reader with todo := some tcpHeaderSize } memory ⟨[], memory⟩ tcpHeaderSize rfl
    (by simp only [allocate, empty]) coming (header_nonempty packet)
    (Nat.le_of_eq (TcpPacket.header_length packet))
  have headerRead := entered.snoc headerStep
  have first : [] ++ packet.header =
      packet.readPart 0 ++ (packet.bytes.drop 0 ++ tail).take tcpHeaderSize := by
    rw [List.drop_zero, headerOnly, List.take_left' (TcpPacket.header_length packet)]
    rfl
  rcases arrived_cases { reader with todo := some tcpHeaderSize, wire := tail } packet tail
    ⟨[] ++ packet.header, memory.drop packet.header.length⟩ fits small packet.size_pos
    (show 0 < tcpHeaderSize by decide) (Nat.le_refl _) first with
    ⟨unread, -⟩ | ⟨-, after, afterReceived, afterBeyond, result⟩
  · omega
  · refine ⟨_, _, headerRead, ?_⟩
    have stale : after.beyond = [1] := by
      rw [afterBeyond, TcpPacket.header_length]
      rfl
    have pos : hostPos after.received = controlPos := by
      rw [afterReceived, (host_fields packet _ fits.pos (fits.payload small)).1, position]
    have nothing : after.received.drop tcpHeaderSize = [] := by
      rw [afterReceived, payload, List.append_nil]
      exact List.drop_of_length_le (Nat.le_of_eq (host_header_length packet))
    have effect := congrArg Prod.snd result
    rw [complete, if_pos ⟨pos, by rw [nothing, stale]; decide⟩] at effect
    rw [outputs_snoc]
    apply List.mem_append_right
    rw [output?]
    have same : (arrived { reader with todo := some tcpHeaderSize, wire := tail }
        ⟨[] ++ packet.header, memory.drop packet.header.length⟩ tcpHeaderSize).2 =
          .control [] [1] := by
      rw [nothing, stale] at effect
      exact effect
    simp only at same ⊢
    rw [same]
    simp

theorem output_not_empty_control (packet : TcpPacket) : packet.output ≠ .control [] := by
  intro same
  unfold TcpPacket.output at same
  split at same
  · rename_i control
    have nothing : packet.payload = [] := by simpa using same
    rw [nothing] at control
    exact absurd control.2 (by decide)
  · simp at same

/-- Packets come back as they were written, in order, in every run, just if none
of them has the position of a control message and no payload. -/
theorem reads_in_order_iff (maxSize : Nat) (packets : List TcpPacket) (small : maxSize < 2 ^ 31)
    (fits : ∀ packet ∈ packets, Fits maxSize packet) :
    (∀ labels reader, (machine maxSize packets).Run labels reader →
      ReadInOrder packets labels reader) ↔
    ∀ packet ∈ packets, ¬ (packet.pos = controlPos ∧ packet.payload = []) := by
  constructor
  · intro inOrder packet member ambiguous
    obtain ⟨before, after, split⟩ := List.append_of_mem member
    have begun : (machine maxSize packets).Run [] (new maxSize (streamOf packets)) := .start rfl
    have idle : Idle (new maxSize (streamOf packets)) maxSize
        (streamOf before ++ (packet.bytes ++ streamOf after)) :=
      ⟨rfl, rfl, rfl, by rw [new, split, stream_of_append, stream_of_cons]⟩
    obtain ⟨labels, reader, run, behind⟩ := reads_packets small before
      (fun other inBefore => fits other (by simp [split, inBefore])) begun idle
    obtain ⟨allLabels, final, whole, wrong⟩ := ambiguous_read_as_control small
      (fits packet member) ambiguous run behind
    obtain ⟨-, done, rest, part, -, out, -⟩ := inOrder allLabels final whole
    rw [out] at wrong
    obtain ⟨other, -, same⟩ := List.mem_map.mp wrong
    exact output_not_empty_control other same
  · intro clear labels reader run
    obtain ⟨done, rest, count, reading⟩ := run_reading small fits clear run
    exact reading.in_order

/-- A frame and a command, the header cut in two and a call given up in between. -/
theorem reads_in_order_media_and_control :
    ∃ labels reader, (machine 100 [⟨.sidVdr, 7, [0x47, 1]⟩,
        ⟨.sidControl, controlPos, [0x42, 0x0d, 0x0a]⟩]).Run labels reader ∧
      outputs labels = [.packet 7 StreamId.sidVdr.byte [0x47, 1], .control [0x42, 0x0d, 0x0a]] ∧
      ReadInOrder [⟨.sidVdr, 7, [0x47, 1]⟩, ⟨.sidControl, controlPos, [0x42, 0x0d, 0x0a]⟩]
        labels reader := by
  have run := Machine.Run.drive (machine 100 [⟨.sidVdr, 7, [0x47, 1]⟩,
      ⟨.sidControl, controlPos, [0x42, 0x0d, 0x0a]⟩])
    [.enter 0, .ready (List.replicate 16 0) (.bytes 9), .returnIdle, .enter 0,
      .ready [] (.bytes 4), .ready [] (.bytes 2),
      .enter 0, .ready (List.replicate 16 0) (.bytes 13), .ready [] (.bytes 3)]
    (fun _ _ _ _ _ performed => performed) (.start rfl) rfl
  refine ⟨_, _, run, by decide +kernel,
    (reads_in_order_iff 100 _ (by decide) ?_).mpr (by decide) _ _ run⟩
  intro packet member
  rcases List.mem_pair.mp member with rfl | rfl
  · exact ⟨by decide, by decide⟩
  · exact ⟨by decide, by decide⟩

/-- The first byte of a packet without payload is looked for behind its header. -/
theorem empty_packet_read_as_control :
    ¬ ∀ (maxSize : Nat) (packets : List TcpPacket), maxSize < 2 ^ 31 →
      (∀ packet ∈ packets, Fits maxSize packet) →
        ∀ labels reader, (machine maxSize packets).Run labels reader →
          ReadInOrder packets labels reader := by
  intro claimed
  have run := Machine.Run.drive (machine 100 [⟨.sidControl, controlPos, []⟩])
    [.enter 0, .ready (List.replicate 13 0 ++ [1]) (.bytes 13)]
    (fun _ _ _ _ _ performed => performed) (.start rfl) rfl
  obtain ⟨-, done, rest, part, -, out, -⟩ := claimed 100 [⟨.sidControl, controlPos, []⟩]
    (by decide) (by
      intro packet member
      rw [List.mem_singleton.mp member]
      exact ⟨by decide, by decide⟩) _ _ run
  have wrong : Output.control [] ∈ done.map TcpPacket.output := by
    rw [← out]
    decide
  obtain ⟨packet, -, same⟩ := List.mem_map.mp wrong
  exact output_not_empty_control packet same

end TcpReader
end Xineliboutput.Tcp
