import Xineliboutput.Server.SlotFlags

/-!
# Whose descriptors they are

Each place of the server holds its own descriptor, the table of the scheduler lists those of
the UDP clients and of the multicast socket, and each bit of the mask is one slot's
`m_bMulticast`.
-/

namespace Xineliboutput.Server

open Xineliboutput.Foundation
open Xineliboutput.Udp (Listed)
open Xineliboutput.Udp.Scheduler (handlesWith handlesWithout)

set_option autoImplicit false

namespace SlotSockets

def listed (server : SlotSockets) : Place → Option Nat
  | .data cli => if (server.slots cli).udp then server.held (.data cli) else none
  | .rtp => server.held .rtp
  | .control _ | .osd _ => none

structure Placed (server : SlotSockets) : Prop where
  owned : Owned server.held server.opened
  listed : Listed server.handles server.listed
  mask : ∀ cli : Fin maxClients,
    server.multicastMask.getLsbD cli.val = (server.slots cli).multicast

/-- The multicast socket is open as long as somebody listens, or always. -/
structure Consistent (server : SlotSockets) : Prop extends Placed server where
  rtp : server.rtpOpen = true ↔ server.multicastMask ≠ 0 ∨ server.alwaysOn = true

variable {server middle next : SlotSockets} {cli : Fin maxClients}

/-! ## What is held -/

theorem modify_slot (change : Slot → Slot) (other : Fin maxClients) :
    (server.modify cli change).slots other =
      if other = cli then change (server.slots cli) else server.slots other :=
  Connections.modify_slot change other

theorem held_of_open {place : Place} (opened : server.isOpen place = true) :
    server.held place = some (server.number place) := by
  rw [held, opened, cond_true]

theorem held_of_shut {place : Place} (shut : ¬server.isOpen place = true) :
    server.held place = none := by
  rw [held, Bool.eq_false_iff.mpr shut, cond_false]

theorem held_update {place : Place} {value : Option Nat} (here : next.held place = value)
    (others : ∀ other, other ≠ place → next.held other = server.held other) :
    next.held = Function.update server.held place value := by
  funext other
  rw [Function.update_apply]
  split
  · next same => rw [same, here]
  · next different => exact others other different

theorem listed_held {place : Place} {fd : Nat} (lists : server.listed place = some fd) :
    server.held place = some fd := by
  cases place with
  | control cli | osd cli => cases lists
  | rtp => exact lists
  | data cli =>
      unfold listed at lists
      dsimp only at lists
      split at lists
      · exact lists
      · cases lists

def listedPlaces : List Place := .rtp :: (List.finRange maxClients).map .data

theorem not_listed (place : Place) (outside : place ∉ listedPlaces) : server.listed place = none := by
  cases place with
  | control cli | osd cli => rfl
  | rtp => exact absurd List.mem_cons_self outside
  | data cli =>
      exact absurd (List.mem_cons_of_mem _ (List.mem_map_of_mem (List.mem_finRange cli))) outside

theorem Placed.unlisted (placed : server.Placed) {fd : Nat} (unused : fd ∉ server.opened)
    (place : Place) : server.listed place ≠ some fd := by
  intro lists
  exact placed.owned.unheld unused place (listed_held lists)

theorem Placed.once_listed (placed : server.Placed) {place : Place} {fd : Nat}
    (lists : server.listed place = some fd) (other : Place)
    (also : server.listed other = some fd) : other = place :=
  placed.owned.once other place fd (listed_held also) (listed_held lists)

/-- Neither the table nor the multicast socket are concerned. -/
structure TableKept (server next : SlotSockets) : Prop where
  handles : next.handles = server.handles
  mask : next.multicastMask = server.multicastMask
  rtpOpen : next.rtpOpen = server.rtpOpen
  alwaysOn : next.alwaysOn = server.alwaysOn
  udp : ∀ cli, (next.slots cli).udp = (server.slots cli).udp
  multicast : ∀ cli, (next.slots cli).multicast = (server.slots cli).multicast
  data : ∀ cli, (server.slots cli).udp = true → next.held (.data cli) = server.held (.data cli)
  rtp : next.held .rtp = server.held .rtp

theorem TableKept.trans (first : TableKept server middle) (second : TableKept middle next) :
    TableKept server next where
  handles := second.handles.trans first.handles
  mask := second.mask.trans first.mask
  rtpOpen := second.rtpOpen.trans first.rtpOpen
  alwaysOn := second.alwaysOn.trans first.alwaysOn
  udp := fun cli => (second.udp cli).trans (first.udp cli)
  multicast := fun cli => (second.multicast cli).trans (first.multicast cli)
  data := fun cli client => (second.data cli ((first.udp cli).trans client)).trans
    (first.data cli client)
  rtp := second.rtp.trans first.rtp

theorem TableKept.listed_same (kept : TableKept server next) : next.listed = server.listed := by
  funext place
  cases place with
  | control cli | osd cli => rfl
  | rtp => exact kept.rtp
  | data cli =>
      simp only [listed, kept.udp cli]
      split
      · next client => exact kept.data cli client
      · rfl

theorem Consistent.keep (consistent : server.Consistent) (kept : TableKept server next)
    (owned : Owned next.held next.opened) : next.Consistent := by
  constructor
  · constructor
    · exact owned
    · rw [kept.handles, kept.listed_same]
      exact consistent.listed
    · intro cli
      rw [kept.mask, kept.multicast]
      exact consistent.mask cli
  · rw [kept.rtpOpen, kept.mask, kept.alwaysOn]
    exact consistent.rtp

theorem close_socket_kept (place : Place) : TableKept server (server.closeSocket place) :=
  ⟨rfl, rfl, rfl, rfl, fun _ => rfl, fun _ => rfl, fun _ _ => rfl, rfl⟩

/-- A change of a slot that leaves the flags of the multicast and UDP clients, and what the
latter write to. -/
theorem modify_kept (change : Slot → Slot)
    (udp : (change (server.slots cli)).udp = (server.slots cli).udp)
    (multicast : (change (server.slots cli)).multicast = (server.slots cli).multicast)
    (data : (server.slots cli).udp = true →
      (change (server.slots cli)).dataOpen = (server.slots cli).dataOpen) :
    TableKept server (server.modify cli change) := by
  refine ⟨rfl, rfl, rfl, rfl, ?_, ?_, ?_, rfl⟩
  · intro other
    rw [modify_slot]
    split
    · next same => rw [udp, same]
    · rfl
  · intro other
    rw [modify_slot]
    split
    · next same => rw [multicast, same]
    · rfl
  · intro other client
    by_cases same : other = cli
    · subst same
      simp [held, isOpen, modify, Connections.modify_slot, data client]
    · simp [held, isOpen, modify, Connections.modify_slot, same]

def renumber (server : SlotSockets) (place : Place) (fd : Nat) (opened : List Nat) : SlotSockets :=
  { server with number := Function.update server.number place fd, opened := opened }

theorem renumber_open (place other : Place) (fd : Nat) (opened : List Nat) :
    (server.renumber place fd opened).isOpen other = server.isOpen other := by
  cases other with
  | control cli | osd cli | data cli | rtp => rfl

theorem renumber_held {place other : Place} (different : other ≠ place) (fd : Nat)
    (opened : List Nat) : (server.renumber place fd opened).held other = server.held other := by
  have same : (server.renumber place fd opened).number other = server.number other := by
    simp [renumber, different]
  rw [held, held, renumber_open, same]

theorem renumber_update (place : Place) (fd : Nat) (opened : List Nat) (value : Option Nat) :
    Function.update (server.renumber place fd opened).held place value =
      Function.update server.held place value := by
  funext other
  rw [Function.update_apply, Function.update_apply]
  split
  · rfl
  · next different => exact renumber_held different fd opened

theorem renumber_kept (place : Place) (notRtp : place ≠ .rtp)
    (unlisted : ∀ cli, place = .data cli → (server.slots cli).udp = false) (fd : Nat)
    (opened : List Nat) : TableKept server (server.renumber place fd opened) := by
  refine ⟨rfl, rfl, rfl, rfl, fun _ => rfl, fun _ => rfl, ?_, renumber_held notRtp.symm fd opened⟩
  intro cli client
  apply renumber_held
  intro same
  rw [unlisted cli same.symm] at client
  cases client

theorem modify_held (place : Place) (value : Option Nat) (change : Slot → Slot)
    (here : (server.modify cli change).held place = value)
    (control : .control cli ≠ place →
      (change (server.slots cli)).controlOpen = (server.slots cli).controlOpen)
    (osd : .osd cli ≠ place → (change (server.slots cli)).osdOpen = (server.slots cli).osdOpen)
    (data : .data cli ≠ place → (change (server.slots cli)).dataOpen = (server.slots cli).dataOpen) :
    (server.modify cli change).held = Function.update server.held place value := by
  apply held_update here
  intro other different
  cases other with
  | rtp => rfl
  | control other =>
      by_cases same : other = cli
      · subst same
        simp [held, isOpen, modify, Connections.modify_slot, control different]
      · simp [held, isOpen, modify, Connections.modify_slot, same]
  | osd other =>
      by_cases same : other = cli
      · subst same
        simp [held, isOpen, modify, Connections.modify_slot, osd different]
      · simp [held, isOpen, modify, Connections.modify_slot, same]
  | data other =>
      by_cases same : other = cli
      · subst same
        simp [held, isOpen, modify, Connections.modify_slot, data different]
      · simp [held, isOpen, modify, Connections.modify_slot, same]

/-! ## The multicast socket -/

theorem remove_rtp_held : server.removeRtp.held = Function.update server.held .rtp none := by
  unfold removeRtp
  split
  · apply held_update rfl
    intro other different
    cases other with
    | control cli | osd cli | data cli => rfl
    | rtp => exact absurd rfl different
  · next shut =>
      have vacant : server.held .rtp = none := held_of_shut shut
      rw [← vacant, Function.update_eq_self]

theorem remove_rtp_listed : server.removeRtp.listed = Function.update server.listed .rtp none := by
  funext place
  cases place with
  | control cli | osd cli => simp [listed]
  | rtp => simp [listed, remove_rtp_held]
  | data cli => simp [listed, remove_rtp_held]

@[simp] theorem remove_rtp_mask : server.removeRtp.multicastMask = server.multicastMask := by
  unfold removeRtp
  split
  · rfl
  · rfl

@[simp] theorem remove_rtp_always : server.removeRtp.alwaysOn = server.alwaysOn := by
  unfold removeRtp
  split
  · rfl
  · rfl

theorem remove_rtp_shut : server.removeRtp.rtpOpen = false := by
  unfold removeRtp
  split
  · rfl
  · next shut => exact Bool.eq_false_iff.mpr shut

theorem remove_rtp_opened : server.removeRtp.opened = closed server.opened (server.held .rtp) := by
  unfold removeRtp
  split
  · rfl
  · next shut =>
      have vacant : server.held .rtp = none := held_of_shut shut
      rw [vacant]
      rfl

theorem Placed.remove_rtp (placed : server.Placed) : server.removeRtp.Placed := by
  constructor
  · rw [remove_rtp_held, remove_rtp_opened]
    exact placed.owned.close .rtp
  · rw [remove_rtp_listed]
    unfold removeRtp
    split
    · next opened =>
        have holds : server.listed .rtp = some (server.number .rtp) := held_of_open opened
        exact placed.listed.removed holds (placed.once_listed holds) listedPlaces not_listed
          (by decide)
    · next shut =>
        have vacant : server.listed .rtp = none := held_of_shut shut
        rw [← vacant, Function.update_eq_self]
        exact placed.listed
  · intro cli
    rw [remove_rtp_mask, remove_rtp_connections]
    exact placed.mask cli

theorem Placed.add_rtp (placed : server.Placed) (answer : SystemAnswer)
    (created : answer.rtpCreated = true) (shut : server.rtpOpen = false) :
    (server.addRtp answer).Placed := by
  have vacant : server.held .rtp = none := held_of_shut (Bool.eq_false_iff.mp shut)
  have unused := answer.kernel.unused server.opened
  have same : server.addRtp answer =
      { server.openSocket answer.kernel .rtp with
        rtpOpen := true
        handles := handlesWith server.handles (answer.kernel.next server.opened) } := by
    unfold addRtp
    simp [created, closeSocket, vacant, closed, openSocket]
  have holds : (server.addRtp answer).held =
      Function.update server.held .rtp (some (answer.kernel.next server.opened)) := by
    apply held_update
    · simp [same, held, isOpen, openSocket]
    · intro other different
      cases other with
      | rtp => exact absurd rfl different
      | control cli | osd cli | data cli => simp [same, held, isOpen, openSocket]
  have lists : (server.addRtp answer).listed =
      Function.update server.listed .rtp (some (answer.kernel.next server.opened)) := by
    funext place
    cases place with
    | control cli | osd cli => simp [SlotSockets.listed]
    | rtp => simp [SlotSockets.listed, holds]
    | data cli => simp [SlotSockets.listed, holds]
  constructor
  · rw [holds, same]
    exact placed.owned.open_new .rtp answer.kernel
  · rw [lists, same]
    exact placed.listed.added vacant (placed.unlisted unused) listedPlaces not_listed (by decide)
  · intro cli
    rw [same]
    exact placed.mask cli

/-! ## Closing -/

theorem client_bit (cli other : Fin maxClients) :
    (clientBit cli).getLsbD other.val = decide (other = cli) := by
  unfold clientBit
  revert cli other
  decide

theorem leave_data_held :
    (server.leaveData cli).held = Function.update server.held (.data cli) none := by
  apply held_update
  · simp [held, isOpen, Connections.close_data_slot]
  · intro other different
    cases other with
    | rtp => rfl
    | control other | osd other =>
        by_cases same : other = cli
        · simp [held, isOpen, leaveData, closeSocket, Connections.close_data_slot, same]
        · simp [held, isOpen, leaveData, closeSocket, Connections.close_data_slot, same]
    | data other =>
        have apart : other ≠ cli := fun same => different (congrArg Place.data same)
        simp [held, isOpen, leaveData, closeSocket, Connections.close_data_slot, apart]

theorem leave_data_listed :
    (server.leaveData cli).listed = Function.update server.listed (.data cli) none := by
  funext place
  cases place with
  | control other | osd other => simp [listed]
  | rtp => simp [listed, leave_data_held]
  | data other =>
      by_cases same : other = cli
      · simp [listed, same, Connections.close_data_slot]
      · simp [listed, leave_data_held, same, Connections.close_data_slot]

theorem Placed.leave_data (placed : server.Placed) : (server.leaveData cli).Placed := by
  constructor
  · rw [leave_data_held]
    exact placed.owned.close (.data cli)
  · rw [leave_data_listed]
    unfold leaveData
    dsimp only
    split
    · next client =>
        have holds : server.listed (.data cli) = some (server.number (.data cli)) := by
          rw [SlotSockets.listed, if_pos client.1]
          exact held_of_open client.2
        exact placed.listed.removed holds (placed.once_listed holds) listedPlaces not_listed
          (by decide)
    · next other =>
        have vacant : server.listed (.data cli) = none := by
          rw [SlotSockets.listed]
          split
          · next udp => exact held_of_shut fun opened => other ⟨udp, opened⟩
          · rfl
        rw [← vacant, Function.update_eq_self]
        exact placed.listed
  · intro other
    have bit : (server.leaveData cli).multicastMask.getLsbD other.val =
        (server.multicastMask.getLsbD other.val && !decide (other = cli)) := by
      unfold leaveData
      rw [BitVec.getLsbD_and, BitVec.getLsbD_not, client_bit]
      simp [Nat.lt_trans other.isLt (show maxClients < 32 by decide)]
    rw [bit, placed.mask other, leave_data_connections, Connections.close_data_slot]
    by_cases same : other = cli
    · simp [same]
    · simp [same]

theorem Consistent.close_data (consistent : server.Consistent) :
    (server.closeDataConnection cli).Consistent := by
  have placed : (server.leaveData cli).Placed := consistent.leave_data
  have less : server.multicastMask = 0 → (server.leaveData cli).multicastMask = 0 := by
    intro empty
    unfold leaveData
    rw [empty]
    exact BitVec.zero_and
  unfold closeDataConnection removeUnusedRtp
  split
  · next unused =>
      refine ⟨placed.remove_rtp, ?_⟩
      rw [remove_rtp_shut, remove_rtp_mask, remove_rtp_always, unused.1, unused.2]
      decide
  · next used =>
      refine ⟨placed, ?_⟩
      have needed : (server.leaveData cli).multicastMask ≠ 0 ∨ server.alwaysOn = true := by
        by_contra neither
        rw [not_or, not_not, Bool.not_eq_true] at neither
        exact used neither
      have opened : server.rtpOpen = true :=
        consistent.rtp.mpr (needed.imp_left fun some empty => some (less empty))
      exact ⟨fun _ => needed, fun _ => opened⟩

theorem Consistent.modify_flags (consistent : server.Consistent) (change : Slot → Slot)
    (controlOpen : (change (server.slots cli)).controlOpen = (server.slots cli).controlOpen)
    (osdOpen : (change (server.slots cli)).osdOpen = (server.slots cli).osdOpen)
    (dataOpen : (change (server.slots cli)).dataOpen = (server.slots cli).dataOpen)
    (udp : (change (server.slots cli)).udp = (server.slots cli).udp)
    (multicast : (change (server.slots cli)).multicast = (server.slots cli).multicast) :
    (server.modify cli change).Consistent := by
  have holds : (server.modify cli change).held = server.held := by
    rw [modify_held .rtp _ change rfl (fun _ => controlOpen) (fun _ => osdOpen)
      fun _ => dataOpen]
    exact Function.update_eq_self .rtp server.held
  apply consistent.keep (modify_kept change udp multicast fun _ => dataOpen)
  rw [holds]
  exact consistent.owned

theorem Consistent.close_osd (consistent : server.Consistent) :
    (server.closeOsdConnection cli).Consistent := by
  have holds : (server.closeOsdConnection cli).held =
      Function.update (server.closeSocket (.osd cli)).held (.osd cli) none := by
    apply modify_held _ _ _ _ (fun _ => rfl) (fun different => absurd rfl different) (fun _ => rfl)
    simp [held, isOpen, modify, Connections.modify_slot]
  have kept : TableKept server (server.closeOsdConnection cli) :=
    (close_socket_kept (.osd cli)).trans (modify_kept _ rfl rfl fun _ => rfl)
  apply consistent.keep kept
  rw [holds]
  exact consistent.owned.close (.osd cli)

theorem Consistent.close_control (consistent : server.Consistent) :
    ((server.closeSocket (.control cli)).modify cli fun slot =>
      { slot with controlOpen := false, state := none }).Consistent := by
  have holds : ((server.closeSocket (.control cli)).modify cli fun slot =>
      { slot with controlOpen := false, state := none }).held =
      Function.update (server.closeSocket (.control cli)).held (.control cli) none := by
    apply modify_held _ _ _ _ (fun different => absurd rfl different) (fun _ => rfl) (fun _ => rfl)
    simp [held, isOpen, modify, Connections.modify_slot]
  apply consistent.keep
    ((close_socket_kept (.control cli)).trans (modify_kept _ rfl rfl fun _ => rfl))
  rw [holds]
  exact consistent.owned.close (.control cli)

theorem Consistent.force_primary (consistent : server.Consistent) (on : Bool) :
    (server.forcePrimaryDevice on).Consistent :=
  consistent.keep ⟨rfl, rfl, rfl, rfl, fun _ => rfl, fun _ => rfl, fun _ _ => rfl, rfl⟩
    consistent.owned

theorem Consistent.close_connection (consistent : server.Consistent) :
    (server.closeConnection cli).Consistent := by
  have closes : (((server.closeDataConnection cli).closeOsdConnection cli).modify cli
      fun slot => { slot with osdConn := false }).Consistent :=
    consistent.close_data.close_osd.modify_flags _ rfl rfl rfl rfl rfl
  unfold closeConnection
  dsimp only
  split
  · exact closes.close_control.force_primary false
  · exact closes

/-! ## Opening -/

theorem open_data_held (kernel : Kernel) (change : Slot → Slot)
    (opens : ∀ slot, (change slot).dataOpen = true)
    (controlOpen : ∀ slot, (change slot).controlOpen = slot.controlOpen)
    (osdOpen : ∀ slot, (change slot).osdOpen = slot.osdOpen) :
    ((server.openSocket kernel (.data cli)).modify cli change).held =
      Function.update server.held (.data cli) (some (kernel.next server.opened)) := by
  rw [← renumber_update (.data cli) (kernel.next server.opened) (kernel.next server.opened ::
    server.opened)]
  apply modify_held _ _ _ _ (fun _ => controlOpen _) (fun _ => osdOpen _)
    (fun different => absurd rfl different)
  simp [held, isOpen, modify, openSocket, Connections.modify_slot, opens]

theorem Consistent.open_pipe (consistent : server.Consistent) (kernel : Kernel)
    (other : (server.slots cli).udp = false) :
    ((server.openSocket kernel (.data cli)).modify cli fun slot =>
      { slot with writer := true, dataOpen := true }).Consistent := by
  have numbered : TableKept server (server.openSocket kernel (.data cli)) := by
    apply renumber_kept (.data cli) nofun
    intro client same
    cases same
    exact other
  have holds : ((server.openSocket kernel (.data cli)).modify cli fun slot =>
      { slot with writer := true, dataOpen := true }).held =
      Function.update server.held (.data cli) (some (kernel.next server.opened)) := by
    apply open_data_held
    · exact fun _ => rfl
    · exact fun _ => rfl
    · exact fun _ => rfl
  apply consistent.keep (numbered.trans (modify_kept _ rfl rfl ?_))
  · rw [holds]
    exact consistent.owned.open_new (.data cli) kernel
  · intro client
    rw [open_socket_connections, other] at client
    cases client

theorem Consistent.connect_udp (consistent : server.Consistent) (kernel : Kernel)
    (other : (server.slots cli).udp = false)
    (connects : next =
      { (server.openSocket kernel (.data cli)).modify cli fun slot =>
          { slot with udp := true, dataOpen := true } with
        handles := handlesWith server.handles (kernel.next server.opened) }) :
    next.Consistent := by
  have holds : next.held =
      Function.update server.held (.data cli) (some (kernel.next server.opened)) := by
    rw [connects]
    apply open_data_held kernel fun slot => { slot with udp := true, dataOpen := true }
    · exact fun _ => rfl
    · exact fun _ => rfl
    · exact fun _ => rfl
  have slots : ∀ client, next.slots client =
      if client = cli then { server.slots cli with udp := true, dataOpen := true }
      else server.slots client := by
    intro client
    rw [connects]
    exact Function.update_apply server.slots cli _ client
  have lists : next.listed =
      Function.update server.listed (.data cli) (some (kernel.next server.opened)) := by
    funext place
    cases place with
    | control client | osd client => simp [listed]
    | rtp => simp [listed, holds]
    | data client =>
        by_cases same : client = cli
        · simp [listed, holds, slots, same]
        · simp [listed, holds, slots, same]
  have vacant : server.listed (.data cli) = none := by
    simp [listed, other]
  constructor
  · constructor
    · rw [holds, connects]
      exact consistent.owned.open_new (.data cli) kernel
    · rw [lists, connects]
      exact consistent.listed.added vacant (consistent.unlisted (kernel.unused _)) listedPlaces
        not_listed (by decide)
    · intro client
      have same : (next.slots client).multicast = (server.slots client).multicast := by
        rw [slots]
        split
        · next same => rw [same]
        · rfl
      rw [same, connects]
      exact consistent.mask client
  · rw [connects]
    exact consistent.rtp

theorem Consistent.hand_over (consistent : server.Consistent)
    (opened : (server.slots cli).controlOpen = true) {clientId : Fin maxClients} (target : Place)
    (notRtp : target ≠ .rtp) (notControl : ∀ other, target ≠ .control other)
    (unlisted : ∀ other, target = .data other → (server.slots other).udp = false)
    (change : Slot → Slot)
    (opens : ∀ slots : SlotSockets, (slots.modify clientId change).isOpen target = true)
    (controlOpen : ∀ slot, (change slot).controlOpen = slot.controlOpen)
    (osdOpen : .osd clientId ≠ target → ∀ slot, (change slot).osdOpen = slot.osdOpen)
    (dataOpen : .data clientId ≠ target → ∀ slot, (change slot).dataOpen = slot.dataOpen)
    (udp : ∀ slot, (change slot).udp = slot.udp)
    (multicast : ∀ slot, (change slot).multicast = slot.multicast) :
    (((server.moveNumber (.control cli) target).modify cli fun slot =>
      { slot with controlOpen := false }).modify clientId change).Consistent := by
  have gives : ((server.moveNumber (.control cli) target).modify cli fun slot =>
      { slot with controlOpen := false }).held =
      Function.update (server.moveNumber (.control cli) target).held (.control cli) none := by
    apply modify_held _ _ _ _ (fun different => absurd rfl different) (fun _ => rfl) (fun _ => rfl)
    simp [held, isOpen, modify, Connections.modify_slot]
  have takes : (((server.moveNumber (.control cli) target).modify cli fun slot =>
      { slot with controlOpen := false }).modify clientId change).held =
      Function.update (Function.update server.held (.control cli) none) target
        (some (server.number (.control cli))) := by
    rw [modify_held target (some (server.number (.control cli))) change ?_
      (fun _ => controlOpen _) (fun different => osdOpen different _)
      (fun different => dataOpen different _), gives,
      Function.update_comm (notControl cli).symm, Function.update_comm (notControl cli).symm]
    · congr 1
      exact renumber_update target _ server.opened _
    · rw [held_of_open (opens _)]
      exact congrArg some (Function.update_self target _ server.number)
  have numbered : TableKept server (server.moveNumber (.control cli) target) :=
    renumber_kept target notRtp unlisted _ server.opened
  apply consistent.keep
    ((numbered.trans (modify_kept _ rfl rfl fun _ => rfl)).trans
      (modify_kept change (udp _) (multicast _) ?_))
  · rw [takes]
    exact consistent.owned.move (.control cli) target (held_of_open opened)
  · intro client
    apply dataOpen
    intro same
    have without := unlisted clientId same.symm
    rw [modify_slot] at client
    split at client
    · next equal =>
        rw [equal] at without
        exact absurd client (Bool.eq_false_iff.mp without)
    · exact absurd client (Bool.eq_false_iff.mp without)

end SlotSockets
end Xineliboutput.Server
