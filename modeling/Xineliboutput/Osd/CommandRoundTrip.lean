import Xineliboutput.Osd.ReadCommand

/-!
# Round trip of OSD commands

The client expects the parts of a command by the pointers as it reads them: their
eight bytes as a number in network order. It sees a null pointer where the server
has one if pointers fill the union on both sides; otherwise it may not.
-/

namespace Xineliboutput.Osd

open Xineliboutput.Foundation

set_option autoImplicit false

variable {sender : Host}

/-! ## The property -/

structure Delivered (sender : Host) where
  sent : SentCommand sender
  socket : SocketAnswers
  success : (sendOsdCommand sent socket).1 = 1

def connection (delivered : List (Delivered sender)) : List UInt8 :=
  delivered.flatMap fun command => (sendOsdCommand command.sent command.socket).2

/-- A received command has the values and the parts of the one that was sent. -/
structure Decodes (sent : SentCommand sender) (received : ReceivedCommand) : Prop where
  values : { received.command with
    size := sent.command.size, data := sent.command.data, palette := sent.command.palette } =
      sent.command
  palette : received.palette = SentCommand.carried sent.palette
  data : received.data = SentCommand.carried sent.data

/-- The control thread reads one OSD command a turn and leaves nothing over. -/
def RoundTrips (receiver : Host) (execute : ReceivedCommand → Int)
    (delivered : List (Delivered sender)) : Prop :=
  ∃ messages,
    controlThread receiver execute delivered.length (connection delivered) = some (messages, []) ∧
    List.Forall₂ (fun command message =>
      ∃ received, message = .osdcmd received ∧ Decodes command.sent received) delivered messages

/-- The receiver sees a pointer of a command as null exactly if the sender does, where
it matters, and has room for the size of the palette. -/
structure SeenAlike (receiver : Host) (sent : SentCommand sender) : Prop where
  palette : sent.command.colors ≠ 0 →
    receiver.isNull (receiver.seen sent.command.palette) = sender.isNull sent.command.palette
  data : sent.command.datalen ≠ 0 →
    receiver.isNull (receiver.seen sent.command.data) = sender.isNull sent.command.data
  room : sent.palette.isSome = true →
    4 * sent.command.colors.toNat < 256 ^ receiver.pointer.bytes

/-! ## Parts -/

theorem carried_is_some {part : Option (List UInt8)} {null : Bool} {count : Nat}
    (nullPart : null = part.isNone) (sized : ∀ bytes, part = some bytes → bytes.length = count) :
    (SentCommand.carried part).isSome = (!null && decide (0 < count)) := by
  subst nullPart
  cases part with
  | none => rfl
  | some bytes =>
      have length := sized bytes rfl
      subst length
      cases bytes with
      | nil => rfl
      | cons byte bytes => simp [SentCommand.carried, Option.filter]

theorem part_of_carried {part : Option (List UInt8)} {bytes : List UInt8}
    (carried : SentCommand.carried part = some bytes) : part = some bytes :=
  (Option.filter_eq_some_iff.mp carried).1

theorem read_part_carried {part : Option (List UInt8)} {expected : Bool} {count : Nat}
    (agrees : part.isSome = expected) (sized : ∀ bytes, part = some bytes → bytes.length = count)
    (rest : List UInt8) :
    readPart expected count (part.getD [] ++ rest) = some (part, rest) := by
  subst agrees
  cases part with
  | none => rfl
  | some bytes =>
      unfold readPart
      rw [if_pos Option.isSome_some, Option.getD_some, read_socket_append (sized bytes rfl)]
      rfl

theorem read_part_agrees {part : Option (List UInt8)} {expected : Bool} {count : Nat}
    {stream rest : List UInt8} (read : readPart expected count stream = some (part, rest)) :
    part.isSome = expected ∧ ∀ bytes, part = some bytes → bytes.length = count := by
  unfold readPart readSocket at read
  cases expected with
  | false =>
      cases read
      exact ⟨rfl, fun _ present => nomatch present⟩
  | true =>
      rw [if_pos rfl] at read
      split at read
      · rename_i long
        cases read
        refine ⟨rfl, ?_⟩
        intro bytes present
        cases present
        exact List.length_take_of_le long
      · cases read

/-! ## One command -/

def SentCommand.seenBy (sent : SentCommand sender) (receiver : Host) : OsdCommand :=
  { sent.stamped with
    data := receiver.seen sent.command.data, palette := receiver.seen sent.command.palette }

theorem handle_sent (receiver : Host) (sent : SentCommand sender) (rest : List UInt8) :
    handleOsdcmd receiver (sent.stamped.wire ++ sent.padding.cells ++ rest) =
      readParts receiver (sent.seenBy receiver) rest := by
  have small := sender.small
  have size : sent.stamped.size.toNat = sender.sizeOfCommand := by
    unfold Host.sizeOfCommand
    simp only [SentCommand.stamped, Host.sizeOfCommand, UInt8.toNat_ofNat']
    omega
  have length : (sent.stamped.wire ++ sent.padding.cells).length = sent.stamped.size.toNat := by
    rw [size, List.length_append, sent.padding.sized]
    simp only [OsdCommand.wire, List.length_append, List.length_cons, List.length_nil,
      big_endian_length, Block.sized]
    rfl
  have large : 62 ≤ sent.stamped.size.toNat := by
    rw [size, Host.sizeOfCommand]
    omega
  rw [show sent.stamped.wire ++ sent.padding.cells = sent.stamped.size ::
    (sent.stamped.wire ++ sent.padding.cells).tail from rfl] at length ⊢
  rw [handle_members receiver length (by omega)]
  rw [show sent.stamped.size :: (sent.stamped.wire ++ sent.padding.cells).tail =
    sent.stamped.wire ++ sent.padding.cells from rfl, rd_osdcmd_wire receiver _ _ (by omega)]
  rfl

theorem control_step_osdcmd (receiver : Host) (execute : ReceivedCommand → Int)
    (stream : List UInt8) :
    controlStep receiver execute (osdcmdLine ++ stream) =
      (handleOsdcmd receiver stream).bind fun (received, rest) =>
        if execute received = controlDisconnected then none
        else some (.osdcmd received, rest) := by
  have line : readlineControl 8127 [] (osdcmdLine ++ stream) = some (osdcmdWord, stream) := rfl
  have word : Client.startsWith osdcmdWord osdcmdWord = true := by decide
  unfold controlStep
  rw [line]
  simp only [Option.bind_eq_bind, Option.bind_some]
  rw [if_pos word]

theorem palette_is_some (sent : SentCommand sender) :
    (SentCommand.carried sent.palette).isSome =
      (!sender.isNull sent.command.palette && decide (0 < sent.command.colors.toNat)) := by
  rw [carried_is_some sent.paletteNull sent.paletteSized]
  congr 1
  exact decide_eq_decide.mpr (by omega)

theorem data_is_some (sent : SentCommand sender) :
    (SentCommand.carried sent.data).isSome =
      (!sender.isNull sent.command.data && decide (0 < sent.command.datalen.toNat)) :=
  carried_is_some sent.dataNull sent.dataSized

theorem expected_agrees {here there : Bool} {count : UInt32} :
    (!here && decide (0 < count.toNat)) = (!there && decide (0 < count.toNat)) ↔
      (count ≠ 0 → there = here) := by
  by_cases zero : count = 0
  · subst zero
    simp
  · have positive : 0 < count.toNat := by
      apply Nat.pos_of_ne_zero
      intro same
      exact zero (UInt32.toNat_inj.mp same)
    simp [zero, positive, eq_comm]

section Step

variable (receiver : Host) (execute : ReceivedCommand → Int) (sent : SentCommand sender)

theorem control_step_sent (connected : ∀ received, execute received ≠ controlDisconnected)
    (alike : SeenAlike receiver sent) (rest : List UInt8) :
    ∃ received, controlStep receiver execute (sent.wire ++ rest) = some (.osdcmd received, rest) ∧
      Decodes sent received := by
  have palette := read_part_carried
    ((palette_is_some sent).trans (expected_agrees.mpr alike.palette))
    (show ∀ bytes, SentCommand.carried sent.palette = some bytes →
        bytes.length = receiver.sizeProduct 4 sent.command.colors.toNat by
      intro bytes carried
      have present := part_of_carried carried
      have room := alike.room (by rw [present]; rfl)
      rw [Host.sizeProduct, Nat.mod_eq_of_lt room]
      exact sent.paletteSized bytes present)
    ((SentCommand.carried sent.data).getD [] ++ rest)
  have data := read_part_carried ((data_is_some sent).trans (expected_agrees.mpr alike.data))
    (fun bytes carried => sent.dataSized bytes (part_of_carried carried)) rest
  have parts : readParts receiver (sent.seenBy receiver)
      ((SentCommand.carried sent.palette).getD [] ++
        ((SentCommand.carried sent.data).getD [] ++ rest)) =
      some (⟨sent.seenBy receiver, SentCommand.carried sent.palette,
        SentCommand.carried sent.data⟩, rest) := by
    unfold readParts
    rw [show (sent.seenBy receiver).palette = receiver.seen sent.command.palette from rfl,
      show (sent.seenBy receiver).data = receiver.seen sent.command.data from rfl,
      show (sent.seenBy receiver).colors = sent.command.colors from rfl,
      show (sent.seenBy receiver).datalen = sent.command.datalen from rfl, palette]
    simp only [Option.bind_eq_bind, Option.bind_some]
    rw [data]
    rfl
  refine ⟨⟨sent.seenBy receiver, SentCommand.carried sent.palette,
    SentCommand.carried sent.data⟩, ?_, ⟨rfl, rfl, rfl⟩⟩
  rw [SentCommand.wire, List.append_assoc, control_step_osdcmd, List.append_assoc, handle_sent,
    List.append_assoc, parts, Option.bind_some]
  exact if_neg (connected _)

theorem control_step_alike {message : ControlMessage} {more rest : List UInt8}
    (read : controlStep receiver execute (sent.wire ++ more) = some (message, rest))
    {received : ReceivedCommand} (same : message = .osdcmd received)
    (decodes : Decodes sent received) : SeenAlike receiver sent := by
  subst same
  rw [SentCommand.wire, List.append_assoc, control_step_osdcmd, List.append_assoc,
    handle_sent] at read
  obtain ⟨⟨other, left⟩, parts, accepted⟩ := Option.bind_eq_some_iff.mp read
  have taken : other = received := by
    dsimp only at accepted
    split at accepted
    · cases accepted
    · cases accepted
      rfl
  subst taken
  unfold readParts at parts
  obtain ⟨⟨palette, behind⟩, paletteRead, onward⟩ := Option.bind_eq_some_iff.mp parts
  obtain ⟨⟨data, last⟩, dataRead, built⟩ := Option.bind_eq_some_iff.mp onward
  cases built
  obtain ⟨paletteExpected, paletteSized⟩ := read_part_agrees paletteRead
  obtain ⟨dataExpected, -⟩ := read_part_agrees dataRead
  have paletteSame : palette = SentCommand.carried sent.palette := decodes.palette
  have dataSame : data = SentCommand.carried sent.data := decodes.data
  rw [paletteSame, palette_is_some] at paletteExpected
  rw [dataSame, data_is_some] at dataExpected
  refine ⟨expected_agrees.mp paletteExpected, expected_agrees.mp dataExpected, ?_⟩
  intro present
  obtain ⟨bytes, whole⟩ := Option.isSome_iff_exists.mp present
  have length := sent.paletteSized bytes whole
  by_cases empty : bytes = []
  · rw [← length, empty]
    exact Nat.pow_pos (by decide)
  · have carried : palette = some bytes := by
      rw [paletteSame, whole, SentCommand.carried, Option.filter_some_pos (by simpa using empty)]
    have wrapped : bytes.length = receiver.sizeProduct 4 sent.command.colors.toNat :=
      paletteSized bytes carried
    rw [← length, wrapped, Host.sizeProduct]
    exact Nat.mod_lt _ (Nat.pow_pos (by decide))

end Step

/-! ## Hosts -/

theorem is_null_of_eight {host : Host} (large : host.pointer = .eight) (pointer : PointerUnion) :
    host.isNull pointer = true ↔ ∀ byte ∈ pointer.cells, byte = 0 := by
  rw [Host.isNull, large, List.take_of_length_le (by rw [pointer.sized]; decide)]
  simp only [List.all_eq_true, beq_iff_eq]

theorem seen_null_of_eight {host : Host} (large : host.pointer = .eight) (pointer : PointerUnion) :
    host.isNull (host.seen pointer) = true ↔ ∀ byte ∈ pointer.cells, byte = 0 := by
  have bound : bigEndianValue pointer.cells < 256 ^ 8 := by
    have whole := big_endian_value_lt pointer.cells
    rwa [pointer.sized] at whole
  have number : (UInt64.ofNat (bigEndianValue pointer.cells)).toNat =
      bigEndianValue pointer.cells := UInt64.toNat_ofNat_of_lt' bound
  have null : bigEndianValue pointer.cells = 0 ↔ ∀ byte ∈ pointer.cells, byte = 0 :=
    ByteOrder.big.value_eq_zero pointer.cells
  rw [is_null_of_eight large, ← null, ← host.order.value_eq_zero]
  change host.order.value
    (host.order.bytes 8 (UInt64.ofNat (bigEndianValue pointer.cells)).toNat) = 0 ↔ _
  rw [number, ByteOrder.value_bytes _ _ _ bound]

theorem seen_alike_of_eight {receiver : Host} (large : sender.pointer = .eight)
    (receiverLarge : receiver.pointer = .eight) (sent : SentCommand sender) :
    SeenAlike receiver sent := by
  have agree : ∀ pointer : PointerUnion,
      receiver.isNull (receiver.seen pointer) = sender.isNull pointer := by
    intro pointer
    rw [Bool.eq_iff_iff, seen_null_of_eight receiverLarge, is_null_of_eight large]
  refine ⟨fun _ => agree _, fun _ => agree _, ?_⟩
  intro present
  have fits := sent.paletteFits present
  rw [large] at fits
  rw [receiverLarge]
  exact fits

/-! ## A sequence of commands -/

/-- A sequence of commands makes the round trip exactly if the receiver sees the
pointers of each as the sender does. -/
theorem round_trips_iff (receiver : Host) (execute : ReceivedCommand → Int)
    (connected : ∀ received, execute received ≠ controlDisconnected)
    (delivered : List (Delivered sender)) :
    RoundTrips receiver execute delivered ↔
      ∀ command ∈ delivered, SeenAlike receiver command.sent := by
  induction delivered with
  | nil =>
      constructor
      · intro _ command member
        cases member
      · intro _
        exact ⟨[], rfl, .nil⟩
  | cons command delivered ih =>
      have stream : connection (command :: delivered) =
          command.sent.wire ++ connection delivered := by
        unfold connection
        rw [List.flatMap_cons, written_wire command.success]
      rw [List.forall_mem_cons]
      unfold RoundTrips
      rw [stream, List.length_cons, controlThread]
      constructor
      · rintro ⟨messages, run, decoded⟩
        obtain ⟨⟨message, rest⟩, read, onward⟩ := Option.bind_eq_some_iff.mp run
        obtain ⟨⟨others, left⟩, later, built⟩ := Option.bind_eq_some_iff.mp onward
        cases built
        cases decoded with
        | cons first rest =>
            obtain ⟨received, same, decodes⟩ := first
            have alike := control_step_alike receiver execute command.sent read same decodes
            obtain ⟨again, readAgain, -⟩ := control_step_sent receiver execute command.sent
              connected alike (connection delivered)
            rw [readAgain] at read
            cases read
            exact ⟨alike, ih.mp ⟨others, later, rest⟩⟩
      · rintro ⟨alike, others⟩
        obtain ⟨received, read, decodes⟩ := control_step_sent receiver execute command.sent
          connected alike (connection delivered)
        obtain ⟨messages, later, decoded⟩ := ih.mpr others
        refine ⟨.osdcmd received :: messages, ?_, .cons ⟨received, rfl, decodes⟩ decoded⟩
        simp only [read, later, Option.bind_eq_bind, Option.bind_some]

/-! ## Two machines -/

def amd64 : Host := ⟨.little, .eight, 0, by decide⟩

def i386 : Host := ⟨.little, .four, 0, by decide⟩

/-- A window of one color and two pixels in one run, with its parts at these addresses. -/
def smallWindow (palette data : PointerUnion) : OsdCommand where
  size := 0
  cmd := 2
  wnd := 1
  layer := 0
  pts := -1
  delayMs := 40
  x := 8
  y := 16
  w := 2
  h := 1
  datalen := 2
  numRle := 1
  data := data
  colors := 1
  palette := palette
  dirtyArea := ⟨0, 0, 1, 0⟩
  flags := 0x10
  scaling := 0

def everythingWritten : SocketAnswers := ⟨true, 65536, [8, 62, 4, 2]⟩

def amd64Window : Delivered amd64 where
  sent :=
    { command := smallWindow ⟨[0x40, 0x10, 0, 0, 0xff, 0x7f, 0, 0], rfl⟩
        ⟨[0x80, 0x10, 0, 0, 0xff, 0x7f, 0, 0], rfl⟩
      padding := ⟨[], rfl⟩
      palette := some [1, 2, 3, 255]
      data := some [2, 0]
      paletteNull := by decide
      dataNull := by decide
      paletteSized := by rintro bytes ⟨⟩; decide
      dataSized := by rintro bytes ⟨⟩; decide
      paletteFits := by decide }
  socket := everythingWritten
  success := by decide +kernel

theorem round_trips_amd64 :
    (∀ received, (fun _ => 0 : ReceivedCommand → Int) received ≠ controlDisconnected) ∧
      RoundTrips amd64 (fun _ => 0) [amd64Window] := by
  have connected : (0 : Int) ≠ controlDisconnected := by decide
  refine ⟨fun _ => connected, ?_⟩
  apply (round_trips_iff amd64 (fun _ => 0) (fun _ => connected) [amd64Window]).mpr
  intro command member
  exact seen_alike_of_eight rfl rfl command.sent

def i386Window : Delivered i386 where
  sent :=
    { command := smallWindow ⟨[0x40, 0x10, 0xff, 0xbf, 0, 0, 0, 0], rfl⟩
        ⟨[0x80, 0x10, 0xff, 0xbf, 0, 0, 0, 0], rfl⟩
      padding := ⟨[], rfl⟩
      palette := some [1, 2, 3, 255]
      data := some [2, 0]
      paletteNull := by decide
      dataNull := by decide
      paletteSized := by rintro bytes ⟨⟩; decide
      dataSized := by rintro bytes ⟨⟩; decide
      paletteFits := by decide }
  socket := everythingWritten
  success := by decide +kernel

theorem i386_leaves_parts_over : ¬RoundTrips i386 (fun _ => 0) [i386Window] := by
  rintro ⟨messages, run, -⟩
  have leftOver : (controlThread i386 (fun _ => 0) 1 (connection [i386Window])).map Prod.snd =
      some [1, 2, 3, 255, 2, 0] := by
    decide +kernel
  rw [show [i386Window].length = 1 from rfl] at run
  rw [run, Option.map_some, Option.some.injEq] at leftOver
  cases leftOver

end Xineliboutput.Osd
