import Xineliboutput.Tcp.Reader

/-!
# A header with any length

`vdr_plugin_read_block_tcp` keeps what is still to be read in an `int`, to which it
adds the unsigned length of the header, and sums wrap at 32 bits. This reader computes
as the code does, asks `recv` for a number of bytes at a place of the buffer, and ends
with the packet that the header begins: returned, taken as control data or refused,
or the connection is gone and the caller stops reading.
-/

namespace Xineliboutput.Tcp

open Xineliboutput.Foundation Xineliboutput.StreamHeaders Xineliboutput.Client

set_option autoImplicit false

/-- An `int`. -/
def int32 (value : Int) : Int := Int.bmod value (2 ^ 32)

/-- An `int` where a `size_t` is wanted. -/
def sizeT (value : Int) : Nat := (value % 2 ^ 64).toNat

theorem int32_small {value : Int} (above : -2 ^ 31 ≤ value) (below : value < 2 ^ 31) :
    int32 value = value := by
  apply Int.bmod_eq_of_le <;> omega

theorem int32_carry {value : Int} (above : 2 ^ 31 ≤ value) (below : value < 2 ^ 31 + 2 ^ 32) :
    int32 value = value - 2 ^ 32 := by
  rw [int32, Int.bmod_def]
  split <;> omega

theorem size_t_natural {value : Int} (above : 0 ≤ value) (below : value < 2 ^ 64) :
    (sizeT value : Int) = value := by
  rw [sizeT, Int.emod_eq_of_lt above below, Int.toNat_of_nonneg above]

/-- `recv` may store `count` bytes from `offset` of the buffer on. -/
structure RecvRequest where
  offset : Nat
  count : Nat
  deriving DecidableEq

def RecvRequest.Inside (request : RecvRequest) (maxSize : Nat) : Prop :=
  request.offset + request.count ≤ maxSize

instance (request : RecvRequest) (maxSize : Nat) : Decidable (request.Inside maxSize) :=
  inferInstanceAs (Decidable (_ ≤ _))

structure IntReader where
  readBuffer : Option ReadBuffer
  /-- `todo` of the call that is running. -/
  todo : Option Int
  maxSize : Nat
  discardIndexDs : Nat
  wire : List UInt8
  /-- Reading for this header is over. -/
  ended : Bool

abbrev RecvEffect := Option RecvRequest × ReadEffect

namespace IntReader

def new (maxSize : Nat) (wire : List UInt8) : IntReader where
  readBuffer := none
  todo := none
  maxSize := maxSize
  discardIndexDs := 0
  wire := wire
  ended := false

/-- `todo` at the entry of a call. -/
def entryTodo (reader : IntReader) : Int :=
  match reader.readBuffer with
  | some buffer =>
      if tcpHeaderSize ≤ buffer.received.length then
        int32 (tcpHeaderSize + hostLen buffer.received)
      else tcpHeaderSize
  | none => tcpHeaderSize

def allocate (reader : IntReader) (memory : List UInt8) (todo : Int) : ReadBuffer × Int :=
  match reader.readBuffer with
  | some buffer => (buffer, todo)
  | none => (⟨[], memory⟩, tcpHeaderSize)

/-- "Buffer complete" -/
def complete (reader : IntReader) (buffer : ReadBuffer) : IntReader × ReadEffect :=
  let data := buffer.received.drop tcpHeaderSize ++ buffer.beyond
  if hostPos buffer.received = controlPos ∧ !dataIsTs data ∧ data.getD 0 0 ≠ 0 then
    ({ reader with
        readBuffer := none
        todo := none
        discardIndexDs := discardIndexAfter reader.discardIndexDs data
        ended := true },
      .control (buffer.received.drop tcpHeaderSize) buffer.beyond)
  else
    ({ reader with readBuffer := none, todo := none, ended := true }, .delivered buffer.received)

/-- The rest of a round of the loop, once `recv` has appended some bytes. -/
def arrived (reader : IntReader) (buffer : ReadBuffer) (todo : Int) : IntReader × ReadEffect :=
  if buffer.received.length = tcpHeaderSize then
    let swapped := { buffer with received := swapHeader buffer.received }
    let todo := int32 (todo + hostLen swapped.received)
    if (reader.maxSize : Int) ≤ int32 (todo + swapped.received.length) then
      ({ reader with readBuffer := some swapped, todo := none, ended := true }, .tooSmall)
    else if todo ≤ swapped.received.length then reader.complete swapped
    else ({ reader with readBuffer := some swapped, todo := some todo }, .going)
  else if todo ≤ buffer.received.length then reader.complete buffer
  else ({ reader with readBuffer := some buffer, todo := some todo }, .going)

/-- What `recv` is asked for. -/
def request (buffer : ReadBuffer) (todo : Int) : RecvRequest where
  offset := buffer.received.length
  count := sizeT (int32 (todo - buffer.received.length))

/-- One step, as in `TcpReader.perform`. -/
def perform (reader : IntReader) : ReadOperation → Option (IntReader × RecvEffect)
  | .enter discardIndex =>
      match reader.todo with
      | some _ => none
      | none =>
          if discardIndex < reader.discardIndexDs then some (reader, none, .returned)
          else some ({ reader with todo := some reader.entryTodo }, none, .going)
  | .returnIdle =>
      match reader.todo with
      | none => none
      | some _ => some ({ reader with todo := none }, none, .returned)
  | .noBuffer =>
      match reader.todo, reader.readBuffer with
      | some _, none => some (reader, none, .going)
      | some _, some _ | none, none | none, some _ => none
  | .ready memory answer =>
      match reader.todo with
      | none => none
      | some kept =>
          let (buffer, todo) := reader.allocate memory kept
          let asked := request buffer todo
          match answer with
          | .bytes count =>
              if 0 < count ∧ count ≤ asked.count ∧ count ≤ reader.wire.length then
                let (next, effect) := arrived { reader with wire := reader.wire.drop count }
                  ⟨buffer.received ++ reader.wire.take count, buffer.beyond.drop count⟩ todo
                some (next, some asked, effect)
              else none
          | .again =>
              some ({ reader with readBuffer := some buffer, todo := none }, some asked, .returned)
          | .gone =>
              some ({ reader with readBuffer := some buffer, todo := none, ended := true },
                some asked, .returned)

/-- Any calls with any answers of the system, until reading for the first header is over. -/
def machine (maxSize : Nat) (wire : List UInt8) :
    Machine IntReader (ReadOperation × RecvEffect) where
  initial reader := reader = new maxSize wire
  step reader label next :=
    reader.ended = false ∧ reader.perform label.1 = some (next, label.2)

end IntReader

/-- Nothing is stored behind the buffer, a packet that is returned has the length that the
header gives, and a length that does not fit has been refused once the header is there. -/
structure ReadsInside (maxSize : Nat) (header rest : List UInt8)
    (labels : List (ReadOperation × RecvEffect)) (reader : IntReader) : Prop where
  stored : ∀ operation request effect, (operation, some request, effect) ∈ labels →
    request.Inside maxSize
  returned : ∀ operation request content, (operation, request, ReadEffect.delivered content) ∈
    labels → content.length = tcpHeaderSize + headerLen header
  refused : maxSize < tcpHeaderSize + headerLen header → reader.wire.length ≤ rest.length →
    ∃ operation request, (operation, request, ReadEffect.tooSmall) ∈ labels

/-! ## The length of the header -/

@[simp] theorem swap_header_length {content : List UInt8}
    (whole : content.length = tcpHeaderSize) : (swapHeader content).length = tcpHeaderSize := by
  simp only [tcpHeaderSize] at whole
  simp [swapHeader, tcpHeaderSize, whole]

theorem header_len_lt {header : List UInt8} (whole : header.length = tcpHeaderSize) :
    headerLen header < 2 ^ 32 := by
  have width : ((header.drop 8).take 4).length = 4 := by
    simp only [tcpHeaderSize] at whole
    simp [whole]
  have bound := big_endian_value_lt ((header.drop 8).take 4)
  rw [width] at bound
  exact bound

theorem host_len_swapped {header : List UInt8} (whole : header.length = tcpHeaderSize) :
    hostLen (swapHeader header) = headerLen header := by
  rw [hostLen, swapHeader, List.append_assoc, List.drop_left' (little_endian_length _ _),
    List.take_left' (little_endian_length _ _)]
  exact little_endian_value_encode 4 _ (header_len_lt whole)

theorem host_len_append {content : List UInt8} (whole : tcpHeaderSize ≤ content.length)
    (more : List UInt8) : hostLen (content ++ more) = hostLen content := by
  simp only [tcpHeaderSize] at whole
  rw [hostLen, List.drop_append_of_le_length (by omega),
    List.take_append_of_le_length (by rw [List.length_drop]; omega)]
  rfl

/-! ## Lengths that the sums take -/

def Manageable (maxSize : Nat) (header : List UInt8) : Prop :=
  headerLen header < 2 ^ 31 - 2 * tcpHeaderSize ∨ tcpHeaderSize + headerLen header ≤ maxSize

instance (maxSize : Nat) (header : List UInt8) : Decidable (Manageable maxSize header) :=
  inferInstanceAs (Decidable (_ ∨ _))

section Sums

variable {maxSize : Nat} {header : List UInt8}

theorem Manageable.todo (manageable : Manageable maxSize header) (bounded : maxSize < 2 ^ 31) :
    int32 (tcpHeaderSize + headerLen header) = tcpHeaderSize + headerLen header := by
  simp only [Manageable, tcpHeaderSize] at manageable ⊢
  apply int32_small <;> omega

theorem Manageable.fits (manageable : Manageable maxSize header) (bounded : maxSize < 2 ^ 31)
    (passed : ¬ (maxSize : Int) ≤
      int32 (int32 (tcpHeaderSize + headerLen header) + tcpHeaderSize)) :
    tcpHeaderSize + headerLen header ≤ maxSize := by
  rw [manageable.todo bounded] at passed
  cases manageable with
  | inl small =>
      simp only [tcpHeaderSize] at small passed ⊢
      rw [int32_small (by omega) (by omega)] at passed
      omega
  | inr fits => exact fits

theorem unmanageable_passes (whole : header.length = tcpHeaderSize)
    (room : 2 * tcpHeaderSize ≤ maxSize) (bounded : maxSize < 2 ^ 31)
    (unmanageable : ¬ Manageable maxSize header) :
    int32 (int32 (tcpHeaderSize + headerLen header) + tcpHeaderSize) < maxSize := by
  have bound := header_len_lt whole
  simp only [Manageable, tcpHeaderSize] at *
  rcases Nat.lt_or_ge (13 + headerLen header) (2 ^ 31) with small | large
  · -- `todo` is right, and the second sum is negative
    have todo : int32 ((13 : Nat) + headerLen header) = (13 : Nat) + headerLen header :=
      int32_small (by omega) (by omega)
    rw [todo, int32_carry (by omega) (by omega)]
    omega
  · -- `todo` itself is negative or less than the header
    have todo : int32 ((13 : Nat) + headerLen header) = (13 : Nat) + headerLen header - 2 ^ 32 :=
      int32_carry (by omega) (by omega)
    rw [todo, int32_small (by omega) (by omega)]
    omega

end Sums

/-! ## What has been read for a header -/

namespace IntReader

def received (reader : IntReader) : List UInt8 :=
  match reader.readBuffer with
  | none => []
  | some buffer => buffer.received

/-- `todo` once `count` bytes have been read. -/
def todoAt (header : List UInt8) (count : Nat) : Int :=
  if count < tcpHeaderSize then tcpHeaderSize else tcpHeaderSize + headerLen header

/-- The bytes read are a part of the header, or the header in host byte order and a part
of a payload that fits. -/
inductive Part (maxSize : Nat) (header content : List UInt8) : Prop where
  | header (short : content.length < tcpHeaderSize)
      (same : content = header.take content.length)
  | payload (whole : tcpHeaderSize ≤ content.length) (len : hostLen content = headerLen header)
      (unread : content.length < tcpHeaderSize + headerLen header)
      (fits : tcpHeaderSize + headerLen header ≤ maxSize)

structure Underway (maxSize : Nat) (header rest : List UInt8) (reader : IntReader) : Prop where
  size : reader.maxSize = maxSize
  part : Part maxSize header reader.received
  wire : reader.wire = (header ++ rest).drop reader.received.length
  todo : reader.readBuffer.isSome → ∀ todo ∈ reader.todo,
    todo = todoAt header reader.received.length

inductive Outcome (maxSize : Nat) (header rest : List UInt8) (next : IntReader) :
    ReadEffect → Prop where
  | going (underway : Underway maxSize header rest next) : Outcome maxSize header rest next .going
  | returned (underway : Underway maxSize header rest next) :
      Outcome maxSize header rest next .returned
  | tooSmall (ended : next.ended = true) : Outcome maxSize header rest next .tooSmall
  | delivered {content : List UInt8} (ended : next.ended = true)
      (fits : tcpHeaderSize + headerLen header ≤ maxSize)
      (length : content.length = tcpHeaderSize + headerLen header) :
      Outcome maxSize header rest next (.delivered content)
  | control {payload beyond : List UInt8} (ended : next.ended = true)
      (fits : tcpHeaderSize + headerLen header ≤ maxSize) :
      Outcome maxSize header rest next (.control payload beyond)

section Underway

variable {maxSize : Nat} {header rest : List UInt8} {reader : IntReader}

theorem Part.todo_fits {content : List UInt8} (part : Part maxSize header content)
    (room : tcpHeaderSize ≤ maxSize) :
    (content.length : Int) < todoAt header content.length ∧
      todoAt header content.length ≤ maxSize := by
  cases part with
  | header short same =>
      rw [todoAt, if_pos short]
      omega
  | payload whole len unread fits =>
      rw [todoAt, if_neg (by omega)]
      omega

/-- `recv` is asked for the missing bytes of the header or of the packet. -/
theorem Part.request {buffer : ReadBuffer} (part : Part maxSize header buffer.received)
    (room : tcpHeaderSize ≤ maxSize) (bounded : maxSize < 2 ^ 31) :
    ((request buffer (todoAt header buffer.received.length)).count : Int) =
      todoAt header buffer.received.length - buffer.received.length := by
  have bounds := part.todo_fits room
  rw [IntReader.request, int32_small (by omega) (by omega), size_t_natural (by omega) (by omega)]

theorem Part.request_inside {buffer : ReadBuffer} (part : Part maxSize header buffer.received)
    (room : tcpHeaderSize ≤ maxSize) (bounded : maxSize < 2 ^ 31) :
    (IntReader.request buffer (todoAt header buffer.received.length)).Inside maxSize := by
  have asked := part.request room bounded
  have bounds := part.todo_fits room
  have offset : (IntReader.request buffer (todoAt header buffer.received.length)).offset =
      buffer.received.length := rfl
  rw [RecvRequest.Inside, offset]
  omega

theorem complete_outcome (buffer : ReadBuffer)
    (fits : tcpHeaderSize + headerLen header ≤ maxSize)
    (length : buffer.received.length = tcpHeaderSize + headerLen header) :
    Outcome maxSize header rest (reader.complete buffer).1 (reader.complete buffer).2 := by
  unfold complete
  simp only
  split
  · exact .control rfl fits
  · exact .delivered rfl fits length

/-- The entry of a call finds the same `todo` again. -/
theorem Underway.entry (underway : Underway maxSize header rest reader)
    (manageable : Manageable maxSize header) (bounded : maxSize < 2 ^ 31)
    (held : reader.readBuffer.isSome) :
    reader.entryTodo = todoAt header reader.received.length := by
  have part := underway.part
  unfold received at part ⊢
  unfold entryTodo
  cases buffered : reader.readBuffer with
  | none => simp [buffered] at held
  | some buffer =>
      rw [buffered] at part
      simp only at part ⊢
      cases part with
      | header short same => rw [todoAt, if_pos short, if_neg (by omega)]
      | payload whole len unread fits =>
          rw [if_pos whole, len, manageable.todo bounded, todoAt, if_neg (by omega)]

theorem Underway.allocated (underway : Underway maxSize header rest reader) {kept : Int}
    (calling : reader.todo = some kept) (memory : List UInt8) :
    (reader.allocate memory kept).1.received = reader.received ∧
      (reader.allocate memory kept).2 = todoAt header reader.received.length := by
  have todo := underway.todo
  unfold received at todo ⊢
  unfold allocate
  cases buffered : reader.readBuffer with
  | none => exact ⟨rfl, rfl⟩
  | some buffer =>
      rw [buffered] at todo
      exact ⟨rfl, todo rfl kept calling⟩

/-- The bytes that arrive belong to the header, end it, or belong to the payload. -/
theorem Underway.arrived_outcome (underway : Underway maxSize header rest reader)
    (manageable : Manageable maxSize header) (bounded : maxSize < 2 ^ 31)
    (whole : header.length = tcpHeaderSize) {buffer : ReadBuffer}
    (same : buffer.received = reader.received) {more : Nat} (some_bytes : 0 < more)
    (asked : (buffer.received.length : Int) + more ≤ todoAt header buffer.received.length)
    (available : more ≤ reader.wire.length) :
    let result := arrived { reader with wire := reader.wire.drop more }
      ⟨buffer.received ++ reader.wire.take more, buffer.beyond.drop more⟩
      (todoAt header buffer.received.length)
    Outcome maxSize header rest result.1 result.2 := by
  have length : (buffer.received ++ reader.wire.take more).length =
      buffer.received.length + more := by
    rw [List.length_append, List.length_take, Nat.min_eq_left available]
  have wire : reader.wire.drop more =
      (header ++ rest).drop (buffer.received.length + more) := by
    rw [underway.wire, List.drop_drop, same]
  have size := underway.size
  have part := underway.part
  rw [← same] at part
  cases part with
  | header short taken =>
      rw [todoAt, if_pos short] at asked ⊢
      have onward : buffer.received ++ reader.wire.take more =
          header.take (buffer.received.length + more) := by
        rw [underway.wire, ← same, List.drop_append_of_le_length (by omega),
          List.take_append_of_le_length (by rw [List.length_drop]; omega), List.take_add, ← taken]
      rw [onward] at length ⊢
      by_cases ends : buffer.received.length + more = tcpHeaderSize
      · -- the last byte of the header: it is swapped, and `todo` grows by the length in it
        have complete : header.take (buffer.received.length + more) = header := by
          rw [ends, ← whole, List.take_length]
        have swapped := swap_header_length whole
        rw [complete, arrived, if_pos whole]
        simp only [host_len_swapped whole, swapped]
        split
        · exact .tooSmall rfl
        · rename_i passed
          have fits := manageable.fits bounded (by rwa [size] at passed)
          rw [manageable.todo bounded]
          split
          · apply complete_outcome _ fits
            simp only [swapped]
            omega
          · apply Outcome.going
            exact {
              size := size
              part := .payload (Nat.le_of_eq swapped.symm) (host_len_swapped whole)
                (by simp only [received, swapped]; omega) fits
              wire := by simp only [received, swapped, wire, ends]
              todo := by simp [received, swapped, todoAt] }
      · rw [arrived, if_neg (by simp only [length]; omega), if_neg (by simp only [length]; omega)]
        apply Outcome.going
        exact {
          size := size
          part := .header (by simp only [received, length]; omega)
            (by simp only [received, length])
          wire := by simp only [received, length, wire]
          todo := by
            simp only [received, length, todoAt]
            rw [if_pos (by omega)]
            simp }
  | payload atLeast len unread fits =>
      rw [todoAt, if_neg (by omega)] at asked ⊢
      have hostLength := host_len_append atLeast (reader.wire.take more)
      rw [arrived, if_neg (by simp only [length]; omega)]
      split
      · rename_i complete
        simp only [length] at complete
        apply complete_outcome _ fits
        simp only [length]
        omega
      · rename_i incomplete
        simp only [length] at incomplete
        apply Outcome.going
        exact {
          size := size
          part := .payload (by simp only [received, length]; omega) (hostLength.trans len)
            (by simp only [received, length]; omega) fits
          wire := by simp only [received, length, wire]
          todo := by
            simp only [received, length, todoAt]
            rw [if_neg (by omega)]
            simp }

theorem Underway.perform_outcome (underway : Underway maxSize header rest reader)
    (manageable : Manageable maxSize header) (room : tcpHeaderSize ≤ maxSize)
    (bounded : maxSize < 2 ^ 31) (whole : header.length = tcpHeaderSize)
    {operation : ReadOperation} {next : IntReader} {request : Option RecvRequest}
    {effect : ReadEffect} (performed : reader.perform operation = some (next, request, effect)) :
    (∀ asked, request = some asked → asked.Inside maxSize) ∧
      Outcome maxSize header rest next effect := by
  cases operation with
  | enter discardIndex =>
      simp only [perform] at performed
      split at performed
      · simp at performed
      · split at performed
        all_goals
          simp only [Option.some.injEq, Prod.mk.injEq] at performed
          obtain ⟨rfl, rfl, rfl⟩ := performed
        · exact ⟨by simp, .returned underway⟩
        · have entry := underway.entry manageable bounded
          exact ⟨by simp, .going { underway with
            todo := fun held todo member => (Option.some.inj member).symm.trans (entry held) }⟩
  | returnIdle =>
      simp only [perform] at performed
      split at performed
      · simp at performed
      · simp only [Option.some.injEq, Prod.mk.injEq] at performed
        obtain ⟨rfl, rfl, rfl⟩ := performed
        exact ⟨by simp, .returned { underway with todo := by simp }⟩
  | noBuffer =>
      simp only [perform] at performed
      split at performed
      · simp only [Option.some.injEq, Prod.mk.injEq] at performed
        obtain ⟨rfl, rfl, rfl⟩ := performed
        exact ⟨by simp, .going underway⟩
      all_goals simp at performed
  | ready memory answer =>
      simp only [perform] at performed
      split at performed
      · simp at performed
      · rename_i kept calling
        have allocated := underway.allocated calling memory
        generalize given : reader.allocate memory kept = allocation at allocated performed
        obtain ⟨buffer, todo⟩ := allocation
        obtain ⟨same, todoIs⟩ := allocated
        simp only at same todoIs performed
        have part : Part maxSize header buffer.received := same ▸ underway.part
        rw [← same] at todoIs
        subst todoIs
        have inside := part.request_inside room bounded
        cases answer with
        | bytes more =>
            simp only at performed
            split at performed
            · rename_i some_bytes
              simp only [Option.some.injEq, Prod.mk.injEq] at performed
              obtain ⟨rfl, rfl, rfl⟩ := performed
              have asked := part.request room bounded
              have bounds := part.todo_fits room
              exact ⟨fun _ chosen => Option.some.inj chosen ▸ inside,
                underway.arrived_outcome manageable bounded whole same some_bytes.1
                  (by omega) some_bytes.2.2⟩
            · simp at performed
        | again | gone =>
            simp only [Option.some.injEq, Prod.mk.injEq] at performed
            obtain ⟨rfl, rfl, rfl⟩ := performed
            exact ⟨fun _ chosen => Option.some.inj chosen ▸ inside, .returned {
              size := underway.size
              part := part
              wire := by simp only [received, same, underway.wire]
              todo := by simp }⟩

theorem Underway.header_missing (underway : Underway maxSize header rest reader)
    (whole : header.length = tcpHeaderSize)
    (unfit : maxSize < tcpHeaderSize + headerLen header) : rest.length < reader.wire.length := by
  rw [underway.wire, List.length_drop, List.length_append]
  cases underway.part with
  | header short same => omega
  | payload atLeast len unread fits => omega

end Underway

/-! ## Runs -/

section Runs

variable {maxSize : Nat} {header rest : List UInt8}
  {labels : List (ReadOperation × RecvEffect)} {reader next : IntReader}

theorem new_underway (maxSize : Nat) (header rest : List UInt8) :
    Underway maxSize header rest (new maxSize (header ++ rest)) where
  size := rfl
  part := .header (by simp [received, new, tcpHeaderSize]) (by simp [received, new])
  wire := by simp [received, new]
  todo := by simp [new]

theorem reads_inside_snoc (inside : ReadsInside maxSize header rest labels reader)
    (whole : header.length = tcpHeaderSize) {operation : ReadOperation}
    {request : Option RecvRequest} {effect : ReadEffect}
    (asked : ∀ asked, request = some asked → asked.Inside maxSize)
    (outcome : Outcome maxSize header rest next effect) :
    ReadsInside maxSize header rest (labels ++ [(operation, request, effect)]) next where
  stored := by
    intro other one ends member
    rcases List.mem_append.mp member with earlier | last
    · exact inside.stored other one ends earlier
    · simp only [List.mem_singleton, Prod.mk.injEq] at last
      exact asked one last.2.1.symm
  returned := by
    intro other one content member
    rcases List.mem_append.mp member with earlier | last
    · exact inside.returned other one content earlier
    · simp only [List.mem_singleton, Prod.mk.injEq] at last
      obtain ⟨-, -, rfl⟩ := last
      cases outcome with
      | delivered ended fits length => exact length
  refused := by
    intro unfit read
    cases outcome with
    | going underway | returned underway =>
        have missing := underway.header_missing whole unfit
        omega
    | tooSmall ended => exact ⟨operation, request, by simp⟩
    | delivered ended fits length => omega
    | control ended fits => omega

theorem run_reads_inside (manageable : Manageable maxSize header)
    (whole : header.length = tcpHeaderSize) (room : tcpHeaderSize ≤ maxSize)
    (bounded : maxSize < 2 ^ 31) (run : (machine maxSize (header ++ rest)).Run labels reader) :
    ReadsInside maxSize header rest labels reader ∧
      (reader.ended = false → Underway maxSize header rest reader) := by
  apply run.invariant (fun labels reader => ReadsInside maxSize header rest labels reader ∧
    (reader.ended = false → Underway maxSize header rest reader))
  · intro start begins
    cases begins
    have underway := new_underway maxSize header rest
    refine ⟨⟨by simp, by simp, ?_⟩, fun _ => underway⟩
    intro unfit read
    have missing := underway.header_missing whole unfit
    omega
  · intro labels state label next before move
    obtain ⟨operation, request, effect⟩ := label
    obtain ⟨inside, known⟩ := before
    obtain ⟨running, performed⟩ := move
    obtain ⟨asked, outcome⟩ :=
      (known running).perform_outcome manageable room bounded whole performed
    refine ⟨reads_inside_snoc inside whole asked outcome, ?_⟩
    intro goes_on
    cases outcome with
    | going underway | returned underway => exact underway
    | tooSmall ended | delivered ended | control ended => simp [ended] at goes_on

def called (maxSize : Nat) (wire : List UInt8) : IntReader :=
  { new maxSize wire with todo := some tcpHeaderSize }

/-- The first call, with `recv` giving the whole header. -/
theorem run_header (maxSize : Nat) (rest : List UInt8) (whole : header.length = tcpHeaderSize) :
    (machine maxSize (header ++ rest)).Run
      [(.enter 0, none, .going), (.ready [] (.bytes tcpHeaderSize), some ⟨0, tcpHeaderSize⟩,
        ((called maxSize rest).arrived ⟨header, []⟩ tcpHeaderSize).2)]
      ((called maxSize rest).arrived ⟨header, []⟩ tcpHeaderSize).1 := by
  have entered : (machine maxSize (header ++ rest)).Run [(.enter 0, none, .going)]
      (called maxSize (header ++ rest)) :=
    (Machine.Run.start rfl).snoc ⟨rfl, by simp [perform, called, new, entryTodo]⟩
  apply entered.snoc
  refine ⟨rfl, ?_⟩
  have request : request ⟨[], []⟩ (tcpHeaderSize : Int) = ⟨0, tcpHeaderSize⟩ := by decide
  simp only [perform, called, allocate, new, request]
  rw [if_pos ⟨by decide, Nat.le_refl _, by simp [whole]⟩, ← whole]
  simp

theorem arrived_header_accepted (reader : IntReader) (whole : header.length = tcpHeaderSize)
    (beyond : List UInt8)
    (passes : int32 (int32 (tcpHeaderSize + headerLen header) + tcpHeaderSize) < reader.maxSize) :
    (reader.arrived ⟨header, beyond⟩ tcpHeaderSize).1.wire = reader.wire ∧
      (reader.arrived ⟨header, beyond⟩ tcpHeaderSize).2 ≠ .tooSmall := by
  rw [arrived, if_pos whole]
  simp only [host_len_swapped whole, swap_header_length whole]
  rw [if_neg (Int.not_le.mpr passes)]
  split
  · unfold complete
    simp only
    split <;> simp
  · simp

end Runs

end IntReader

open IntReader in
/-- Whatever follows the header and however it comes, reading is safe exactly for the
lengths that the sums take. -/
theorem reads_inside_iff {maxSize : Nat} {header : List UInt8} (rest : List UInt8)
    (whole : header.length = tcpHeaderSize) (room : 2 * tcpHeaderSize ≤ maxSize)
    (bounded : maxSize < 2 ^ 31) :
    (∀ labels reader, (machine maxSize (header ++ rest)).Run labels reader →
      ReadsInside maxSize header rest labels reader) ↔ Manageable maxSize header := by
  constructor
  · intro always
    by_contra unmanageable
    have passes := unmanageable_passes whole room bounded unmanageable
    have unfit : maxSize < tcpHeaderSize + headerLen header := by
      simp only [Manageable, not_or, Nat.not_le] at unmanageable
      exact unmanageable.2
    obtain ⟨wire, accepted⟩ := arrived_header_accepted (called maxSize rest) whole [] passes
    obtain ⟨operation, request, member⟩ :=
      (always _ _ (run_header maxSize rest whole)).refused unfit
        (Nat.le_of_eq (congrArg List.length wire))
    simp only [List.mem_cons, Prod.mk.injEq, List.not_mem_nil, or_false, reduceCtorEq, and_false,
      false_or] at member
    exact accepted member.2.2.symm
  · intro manageable labels reader run
    exact (run_reads_inside manageable whole (by omega) bounded run).1

theorem reads_inside_iff_small :
    Manageable 8192 (tcpHeader 0 8000 0) ∧ ∀ labels reader,
      (IntReader.machine 8192 (tcpHeader 0 8000 0 ++ [1, 2, 3])).Run labels reader →
        ReadsInside 8192 (tcpHeader 0 8000 0) [1, 2, 3] labels reader := by
  have manageable : Manageable 8192 (tcpHeader 0 8000 0) := by decide
  exact ⟨manageable,
    (reads_inside_iff [1, 2, 3] (by decide) (by decide) (by decide)).mpr manageable⟩

open IntReader in
/-- Near 2^31 `recv` is to store behind the buffer; near 2^32 a packet comes without its
payload. -/
theorem hostile_lengths_pass :
    (∃ labels reader, (machine 8192 (tcpHeader 0 (2 ^ 31 - 14) 0)).Run labels reader ∧
      (.ready [] .again, some ⟨13, 2 ^ 31 - 14⟩, .returned) ∈ labels ∧
      ¬ ReadsInside 8192 (tcpHeader 0 (2 ^ 31 - 14) 0) [] labels reader) ∧
    ∃ labels reader, (machine 8192 (tcpHeader 0 (2 ^ 32 - 1) 0)).Run labels reader ∧
      (.ready [] (.bytes 13), some ⟨0, 13⟩,
        .delivered [0, 0, 0, 0, 0, 0, 0, 0, 255, 255, 255, 255, 0]) ∈ labels ∧
      ¬ ReadsInside 8192 (tcpHeader 0 (2 ^ 32 - 1) 0) [] labels reader := by
  constructor
  · have whole := tcp_header_length 0 (2 ^ 31 - 14) 0
    have len : headerLen (tcpHeader 0 (2 ^ 31 - 14) 0) = 2 ^ 31 - 14 := by decide
    have going : (called 8192 []).arrived ⟨tcpHeader 0 (2 ^ 31 - 14) 0, []⟩ tcpHeaderSize =
        ({ called 8192 [] with
            readBuffer := some ⟨swapHeader (tcpHeader 0 (2 ^ 31 - 14) 0), []⟩
            todo := some (2 ^ 31 - 1) }, .going) := by
      rw [arrived, if_pos whole]
      simp only [host_len_swapped whole, swap_header_length whole, len]
      rw [if_neg (by decide), if_neg (by decide)]
      rfl
    have header := run_header 8192 [] whole
    rw [List.append_nil, going] at header
    have asked := header.snoc
      (show (machine 8192 _).step _ (.ready [] .again, some ⟨13, 2 ^ 31 - 14⟩, .returned) _ from
        ⟨rfl, rfl⟩)
    refine ⟨_, _, asked, by simp, ?_⟩
    intro inside
    have stored := inside.stored (.ready [] .again) ⟨13, 2 ^ 31 - 14⟩ .returned (by simp)
    exact absurd stored (by decide)
  · have whole := tcp_header_length 0 (2 ^ 32 - 1) 0
    have len : headerLen (tcpHeader 0 (2 ^ 32 - 1) 0) = 2 ^ 32 - 1 := by decide
    have delivered : ((called 8192 []).arrived ⟨tcpHeader 0 (2 ^ 32 - 1) 0, []⟩
        tcpHeaderSize).2 = .delivered [0, 0, 0, 0, 0, 0, 0, 0, 255, 255, 255, 255, 0] := by
      rw [arrived, if_pos whole]
      simp only [host_len_swapped whole, swap_header_length whole, len]
      rw [if_neg (by decide), if_pos (by decide), complete, if_neg (by decide)]
      rfl
    have header := run_header 8192 [] whole
    rw [List.append_nil, delivered] at header
    refine ⟨_, _, header, by simp [tcpHeaderSize], ?_⟩
    intro inside
    have returned := inside.returned (.ready [] (.bytes 13)) (some ⟨0, 13⟩)
      [0, 0, 0, 0, 0, 0, 0, 0, 255, 255, 255, 255, 0] (by simp [tcpHeaderSize])
    exact absurd returned (by decide)

end Xineliboutput.Tcp
