import Xineliboutput.Udp.ClientTable

/-!
# The descriptors in the scheduler's table

`m_Handles` alone: which descriptors it lists while others are added and removed. The places
of the server that should be listed are given by what each of them holds.
-/

namespace Xineliboutput.Udp

set_option autoImplicit false

namespace Scheduler

/-- The table after `AddHandle`. -/
def handlesWith (handles : List Int) (fd : Int) : List Int :=
  let i := handles.findIdx fun handle => handle < 0 || handle == fd
  if i < handles.length then handles.set i fd else handles

end Scheduler

def Clients.table (clients : Clients) : List Int :=
  clients.handles ++ List.replicate (maxUdpHandles - clients.length) (-1)

def Listed {Place : Type*} (handles : List Int) (listed : Place → Option Nat) : Prop :=
  ∃ clients : Clients, handles = clients.table ∧ clients.fds.Nodup ∧
    ∀ fd, fd ∈ clients.fds ↔ ∃ place, listed place = some fd

theorem handles_with_room {clients : Clients} {fd : Nat} (unknown : fd ∉ clients.fds)
    (room : clients.length < maxUdpHandles) :
    Scheduler.handlesWith clients.table fd = Clients.table (clients ++ [⟨fd, 0⟩]) := by
  obtain ⟨free, last⟩ := Nat.exists_eq_add_of_lt room
  have left : maxUdpHandles - clients.length = free + 1 := by omega
  have less : maxUdpHandles - (clients.length + 1) = free := by omega
  have split : clients.table = clients.handles ++ (-1) :: List.replicate free (-1) := by
    rw [Clients.table, left, List.replicate_succ]
  have place : clients.table.findIdx
      (fun handle => decide (handle < 0) || handle == (fd : Int)) = clients.length := by
    rw [split, find_idx_at _ (handle_passed unknown) (by simp), handles_length]
  have inside : clients.length < clients.table.length := by
    simp [split, handles_length]
  have stored : clients.table.set clients.length fd =
      clients.handles ++ (fd : Int) :: List.replicate free (-1) := by
    rw [split]
    simp [← handles_length clients]
  unfold Scheduler.handlesWith
  rw [place, if_pos inside, stored, Clients.table, List.length_append, List.length_singleton, less]
  simp [Clients.handles]

theorem handles_without_known {front back : Clients} {client : UdpClient}
    (few : (front ++ client :: back).length ≤ maxUdpHandles) (absent : client.fd ∉ front.fds) :
    Scheduler.handlesWithout (Clients.table (front ++ client :: back)) client.fd =
      Clients.table (front ++ back) := by
  simp only [List.length_append, List.length_cons] at few
  obtain ⟨empty, whole⟩ := Nat.exists_eq_add_of_le few
  have before : maxUdpHandles - (front ++ client :: back).length = empty := by
    simp only [List.length_append, List.length_cons]
    omega
  have after : maxUdpHandles - (front ++ back).length = empty + 1 := by
    rw [List.length_append]
    omega
  have split : Clients.table (front ++ client :: back) =
      front.handles ++ (client.fd : Int) :: (back.handles ++ List.replicate empty (-1)) := by
    rw [Clients.table, before]
    simp [Clients.handles]
  rw [split, handles_without_split front back client.fd absent (by omega), Clients.table, after]

namespace Listed

variable {Place : Type*} {handles : List Int} {listed : Place → Option Nat}

theorem empty :
    Listed (List.replicate maxUdpHandles (-1)) (fun _ : Place => (none : Option Nat)) :=
  ⟨[], rfl, List.nodup_nil, fun _ => ⟨nofun, nofun⟩⟩

theorem few_clients {clients : Clients} (distinct : clients.fds.Nodup)
    (each : ∀ fd, fd ∈ clients.fds ↔ ∃ place, listed place = some fd) (places : List Place)
    (others : ∀ place, place ∉ places → listed place = none) :
    clients.length ≤ places.length := by
  have within : clients.fds ⊆ places.filterMap listed := by
    intro fd member
    obtain ⟨place, holds⟩ := (each fd).mp member
    refine List.mem_filterMap.mpr ⟨place, ?_, holds⟩
    by_contra outside
    rw [others place outside] at holds
    cases holds
  calc clients.length = clients.fds.length := (List.length_map _).symm
    _ ≤ (places.filterMap listed).length := (distinct.subperm within).length_le
    _ ≤ places.length := List.length_filterMap_le _ _

theorem mem_handles (table : Listed handles listed) {fd : Nat} :
    (fd : Int) ∈ handles ↔ ∃ place, listed place = some fd := by
  obtain ⟨clients, rfl, -, each⟩ := table
  rw [← each fd, Clients.table, List.mem_append, Clients.handles, Clients.fds]
  constructor
  · intro member
    cases member with
    | inl known =>
        obtain ⟨client, present, same⟩ := List.mem_map.mp known
        exact List.mem_map.mpr ⟨client, present, Int.ofNat.inj same⟩
    | inr free =>
        have same := List.eq_of_mem_replicate free
        omega
  · intro known
    obtain ⟨client, present, same⟩ := List.mem_map.mp known
    exact .inl (List.mem_map.mpr ⟨client, present, congrArg Int.ofNat same⟩)

variable [DecidableEq Place]

theorem added (table : Listed handles listed) {place : Place} {fd : Nat}
    (vacant : listed place = none) (unknown : ∀ other, listed other ≠ some fd)
    (places : List Place) (others : ∀ other, other ∉ places → listed other = none)
    (room : places.length < maxUdpHandles) :
    Listed (Scheduler.handlesWith handles fd) (Function.update listed place (some fd)) := by
  obtain ⟨clients, rfl, distinct, each⟩ := table
  have absent : fd ∉ clients.fds := by
    intro member
    obtain ⟨other, holds⟩ := (each fd).mp member
    exact unknown other holds
  have few := few_clients distinct each places others
  refine ⟨clients ++ [⟨fd, 0⟩], handles_with_room absent (by omega), ?_, ?_⟩
  · simpa [Clients.fds, List.nodup_append] using ⟨distinct, fd_ne_of_absent absent⟩
  · intro number
    have member : number ∈ Clients.fds (clients ++ [⟨fd, 0⟩]) ↔
        number ∈ clients.fds ∨ number = fd := by
      simp [Clients.fds]
    rw [member, each number]
    constructor
    · rintro (⟨other, holds⟩ | rfl)
      · refine ⟨other, ?_⟩
        rw [Function.update_of_ne ?_, holds]
        intro same
        rw [same, vacant] at holds
        cases holds
      · exact ⟨place, Function.update_self place (some number) listed⟩
    · rintro ⟨other, holds⟩
      rw [Function.update_apply] at holds
      split at holds
      · cases holds
        exact .inr rfl
      · exact .inl ⟨other, holds⟩

theorem removed (table : Listed handles listed) {place : Place} {fd : Nat}
    (holds : listed place = some fd) (once : ∀ other, listed other = some fd → other = place)
    (places : List Place) (others : ∀ other, other ∉ places → listed other = none)
    (room : places.length ≤ maxUdpHandles) :
    Listed (Scheduler.handlesWithout handles fd) (Function.update listed place none) := by
  obtain ⟨clients, rfl, distinct, each⟩ := table
  have few := few_clients distinct each places others
  have known := (each fd).mpr ⟨place, holds⟩
  obtain ⟨front, client, back, rfl, rfl, before, behind⟩ := split_at_client distinct known
  refine ⟨front ++ back, handles_without_known (by omega) before, ?_, ?_⟩
  · simp only [Clients.fds, List.map_append, List.map_cons] at distinct ⊢
    exact distinct.sublist (List.Sublist.append (List.Sublist.refl _) (List.sublist_cons_self _ _))
  · intro number
    have member : number ∈ Clients.fds (front ++ back) ↔
        number ∈ Clients.fds (front ++ client :: back) ∧ number ≠ client.fd := by
      simp only [Clients.fds, List.map_append, List.map_cons, List.mem_append, List.mem_cons]
      constructor
      · intro present
        refine ⟨present.imp_right .inr, ?_⟩
        rintro rfl
        exact present.elim before behind
      · rintro ⟨inFront | same | inBack, different⟩
        · exact .inl inFront
        · exact absurd same different
        · exact .inr inBack
    rw [member, each number]
    constructor
    · rintro ⟨⟨other, has⟩, different⟩
      refine ⟨other, ?_⟩
      rw [Function.update_of_ne ?_, has]
      rintro rfl
      exact different (Option.some.inj (has.symm.trans holds))
    · rintro ⟨other, has⟩
      rw [Function.update_apply] at has
      split at has
      · cases has
      · next different =>
          refine ⟨⟨other, has⟩, ?_⟩
          rintro rfl
          exact different (once other has)

end Listed
end Xineliboutput.Udp
