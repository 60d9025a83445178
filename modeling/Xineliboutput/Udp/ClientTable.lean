import Xineliboutput.Udp.Scheduler

/-!
# The clients of the UDP scheduler

`m_Handles` and `m_wmem` side by side with the list of clients they stand for.
`RemoveHandle` moves the descriptors down but not the sizes of their send buffers,
and it clears the last entry even where the descriptor was not found.
-/

namespace Xineliboutput.Udp

open Xineliboutput.Foundation

set_option autoImplicit false

structure UdpClient where
  fd : Nat
  sendBuffer : Nat
  deriving DecidableEq

abbrev Clients := List UdpClient

def Clients.fds (clients : Clients) : List Nat := clients.map UdpClient.fd

def Clients.handles (clients : Clients) : List Int := clients.map fun client => (client.fd : Int)

def Clients.add (clients : Clients) (fd sendBuffer : Nat) : Clients :=
  if fd ∈ clients.fds then
    clients.map fun client => if client.fd = fd then ⟨fd, sendBuffer⟩ else client
  else if clients.length < maxUdpHandles then clients ++ [⟨fd, sendBuffer⟩]
  else clients

def Clients.remove (clients : Clients) (fd : Nat) : Clients :=
  clients.filter fun client => client.fd ≠ fd

inductive TableOperation where
  | addHandle (fd : Nat) (sendBuffer : Option Nat)
  | removeHandle (fd nanoseconds : Nat)

/-- `m_wmem` for what `getsockopt` answers. -/
def wmemFor (sendBuffer : Option Nat) : Nat := sendBuffer.getD 0x10000 / 2

/-- The scheduler's table and the clients it should hold. -/
structure TableRun where
  scheduler : Scheduler
  clients : Clients

def TableRun.start (nanoseconds : Nat) : TableRun := ⟨.new nanoseconds, []⟩

def TableRun.perform (run : TableRun) : TableOperation → Option TableRun
  | .addHandle fd sendBuffer =>
      some ⟨(run.scheduler.addHandle fd sendBuffer).1, run.clients.add fd (wmemFor sendBuffer)⟩
  | .removeHandle fd nanoseconds =>
      some ⟨run.scheduler.removeHandle fd nanoseconds, run.clients.remove fd⟩

/-- The table lists exactly the clients, without gaps, each with its size. -/
structure TableRun.Represents (run : TableRun) : Prop where
  few : run.clients.length ≤ maxUdpHandles
  distinct : run.clients.fds.Nodup
  handles : run.scheduler.handles = run.clients.handles ++
    List.replicate (maxUdpHandles - run.clients.length) (-1)
  wmem_length : run.scheduler.wmem.length = maxUdpHandles
  wmem : run.scheduler.wmem.take run.clients.length = run.clients.map UdpClient.sendBuffer

/-- The descriptor is in the table and all entries behind it have the size of the entry
before them, or it is not in the table and the table is not full. -/
def Scheduler.RemovesOne (scheduler : Scheduler) (fd : Nat) : Prop :=
  if (fd : Int) ∈ scheduler.handles then
    ∀ place, scheduler.handles.idxOf (fd : Int) ≤ place →
      0 ≤ scheduler.handles.getD (place + 1) (-1) →
      scheduler.wmem.getD (place + 1) 0 = scheduler.wmem.getD place 0
  else (-1) ∈ scheduler.handles

def TableRun.Proper (run : TableRun) : TableOperation → Prop
  | .addHandle _ _ => True
  | .removeHandle fd _ => run.scheduler.RemovesOne fd

/-! ## Lookups -/

theorem find_idx_at {Item : Type} {test : Item → Bool} {front : List Item} {item : Item}
    (back : List Item) (before : ∀ other ∈ front, test other = false) (found : test item = true) :
    (front ++ item :: back).findIdx test = front.length := by
  induction front with
  | nil => simp [List.findIdx_cons, found]
  | cons head front ih =>
      have later := ih fun other member => before other (List.mem_cons_of_mem _ member)
      simp [List.findIdx_cons, before head List.mem_cons_self, later]

theorem find_idx_missing {Item : Type} {test : Item → Bool} {items : List Item}
    (missing : ∀ item ∈ items, test item = false) : items.findIdx test = items.length :=
  List.findIdx_eq_length.mpr missing

theorem split_at_client {clients : Clients} {fd : Nat} (distinct : clients.fds.Nodup)
    (member : fd ∈ clients.fds) :
    ∃ (front : Clients) (client : UdpClient) (back : Clients),
      clients = front ++ client :: back ∧ client.fd = fd ∧ fd ∉ front.fds ∧ fd ∉ back.fds := by
  obtain ⟨client, present, same⟩ := List.mem_map.mp member
  obtain ⟨front, back, rfl⟩ := List.append_of_mem present
  simp only [Clients.fds, List.map_append, List.map_cons, List.nodup_append, List.nodup_cons,
    same] at distinct
  refine ⟨front, client, back, rfl, same, ?_, distinct.2.1.1⟩
  intro earlier
  exact distinct.2.2 fd earlier fd List.mem_cons_self rfl

theorem fd_ne_of_absent {clients : Clients} {fd : Nat} (absent : fd ∉ clients.fds) :
    ∀ client ∈ clients, client.fd ≠ fd := by
  intro client member same
  exact absent (same ▸ List.mem_map_of_mem member)

theorem handle_differs {clients : Clients} {fd : Nat} (absent : fd ∉ clients.fds) :
    ∀ handle ∈ clients.handles, (handle == (fd : Int)) = false := by
  intro handle member
  obtain ⟨client, present, rfl⟩ := List.mem_map.mp member
  apply beq_eq_false_iff_ne.mpr
  intro same
  exact fd_ne_of_absent absent client present (Int.ofNat.inj same)

/-- `AddHandle` passes the entries of other clients. -/
theorem handle_passed {clients : Clients} {fd : Nat} (absent : fd ∉ clients.fds) :
    ∀ handle ∈ clients.handles, (decide (handle < 0) || handle == (fd : Int)) = false := by
  intro handle member
  rw [handle_differs absent handle member, Bool.or_false]
  obtain ⟨client, present, rfl⟩ := List.mem_map.mp member
  exact decide_eq_false (Int.not_lt.mpr (Int.natCast_nonneg client.fd))

theorem handles_length (clients : Clients) : clients.handles.length = clients.length :=
  List.length_map _

/-! ## Additions -/

theorem start_represents (nanoseconds : Nat) : (TableRun.start nanoseconds).Represents where
  few := Nat.zero_le _
  distinct := List.nodup_nil
  handles := rfl
  wmem_length := rfl
  wmem := rfl

variable {run : TableRun}

theorem TableRun.Represents.with_room (represents : run.Represents)
    (room : run.clients.length < maxUdpHandles) :
    ∃ free, run.clients.length + free + 1 = maxUdpHandles ∧
      run.scheduler.handles = run.clients.handles ++ List.replicate (free + 1) (-1) := by
  obtain ⟨free, last⟩ := Nat.exists_eq_add_of_lt room
  refine ⟨free, last.symm, ?_⟩
  rw [represents.handles]
  congr 2
  omega

theorem TableRun.Represents.without_room (represents : run.Represents)
    (full : ¬run.clients.length < maxUdpHandles) :
    run.scheduler.handles = run.clients.handles := by
  rw [represents.handles, Nat.sub_eq_zero_of_le (Nat.le_of_not_lt full)]
  exact List.append_nil _

theorem TableRun.Represents.split_table (represents : run.Represents) {front back : Clients}
    {client : UdpClient} (split : run.clients = front ++ client :: back) :
    run.scheduler.handles = front.handles ++ (client.fd : Int) ::
      (back.handles ++ List.replicate (maxUdpHandles - (front ++ client :: back).length) (-1)) := by
  rw [represents.handles, split]
  simp [Clients.handles]

theorem update_elsewhere {clients : Clients} {fd : Nat} (updated : UdpClient)
    (absent : fd ∉ clients.fds) :
    (clients.map fun client => if client.fd = fd then updated else client) = clients := by
  have same : ∀ client ∈ clients, (if client.fd = fd then updated else client) = client :=
    fun client member => if_neg (fd_ne_of_absent absent client member)
  rw [List.map_congr_left same, List.map_id']

theorem add_known {fd : Nat} (represents : run.Represents) (sendBuffer : Option Nat)
    (known : fd ∈ run.clients.fds) :
    TableRun.Represents ⟨(run.scheduler.addHandle fd sendBuffer).1,
      run.clients.add fd (wmemFor sendBuffer)⟩ := by
  obtain ⟨front, client, back, split, rfl, before, behind⟩ :=
    split_at_client represents.distinct known
  have table := represents.split_table split
  obtain ⟨few, distinct, handles, length, wmem⟩ := represents
  have updated : run.clients.add client.fd (wmemFor sendBuffer) =
      front ++ ⟨client.fd, wmemFor sendBuffer⟩ :: back := by
    rw [Clients.add, if_pos known, split, List.map_append, List.map_cons, if_pos rfl,
      update_elsewhere _ before, update_elsewhere _ behind]
  rw [split] at few distinct handles wmem
  have place : run.scheduler.handles.findIdx
      (fun handle => decide (handle < 0) || handle == (client.fd : Int)) = front.length := by
    rw [table, find_idx_at _ (handle_passed before) (by simp), handles_length]
  have inside : front.length < run.scheduler.handles.length := by
    rw [table]
    simp [handles_length]
  have kept : run.scheduler.handles.set front.length (client.fd : Int) = run.scheduler.handles := by
    rw [table]
    simp [← handles_length front]
  have stored : (run.scheduler.addHandle client.fd sendBuffer).1 =
      { run.scheduler with wmem := run.scheduler.wmem.set front.length (wmemFor sendBuffer) } := by
    unfold Scheduler.addHandle
    rw [place, if_pos inside, kept]
    rfl
  rw [stored, updated]
  constructor
  · simpa using few
  · simpa [Clients.fds] using distinct
  · rw [handles]
    simp [Clients.handles]
  · rw [List.length_set, length]
  · have sizes := congrArg (fun sizes => sizes.set front.length (wmemFor sendBuffer)) wmem
    simpa [← List.take_set] using sizes

theorem add_with_room {fd : Nat} (represents : run.Represents) (sendBuffer : Option Nat)
    (unknown : fd ∉ run.clients.fds) (room : run.clients.length < maxUdpHandles) :
    TableRun.Represents ⟨(run.scheduler.addHandle fd sendBuffer).1,
      run.clients.add fd (wmemFor sendBuffer)⟩ := by
  obtain ⟨free, last, table⟩ := represents.with_room room
  obtain ⟨_, distinct, _, length, wmem⟩ := represents
  rw [List.replicate_succ] at table
  have updated : run.clients.add fd (wmemFor sendBuffer) =
      run.clients ++ [⟨fd, wmemFor sendBuffer⟩] := by
    rw [Clients.add, if_neg unknown, if_pos room]
  have place : run.scheduler.handles.findIdx
      (fun handle => decide (handle < 0) || handle == (fd : Int)) = run.clients.length := by
    rw [table, find_idx_at _ (handle_passed unknown) (by simp), handles_length]
  have inside : run.clients.length < run.scheduler.handles.length := by
    rw [table]
    simp [handles_length]
  have stored : (run.scheduler.addHandle fd sendBuffer).1 =
      { run.scheduler with
        handles := run.clients.handles ++ (fd : Int) :: List.replicate free (-1)
        wmem := run.scheduler.wmem.set run.clients.length (wmemFor sendBuffer) } := by
    unfold Scheduler.addHandle
    rw [place, if_pos inside, table]
    simp [← handles_length run.clients, wmemFor]
  rw [stored, updated]
  constructor
  · rw [List.length_append]
    exact room
  · simpa [Clients.fds, List.nodup_append] using ⟨distinct, fd_ne_of_absent unknown⟩
  · have left : maxUdpHandles - (run.clients.length + 1) = free := by omega
    simp [Clients.handles, left]
  · rw [List.length_set, length]
  · have within : run.clients.length <
        (run.scheduler.wmem.set run.clients.length (wmemFor sendBuffer)).length := by
      rw [List.length_set, length]
      exact room
    rw [List.length_append, List.length_singleton, List.take_succ_eq_append_getElem within]
    simp [List.take_set_of_le, wmem]

theorem add_without_room {fd : Nat} (represents : run.Represents) (sendBuffer : Option Nat)
    (unknown : fd ∉ run.clients.fds) (full : ¬run.clients.length < maxUdpHandles) :
    TableRun.Represents ⟨(run.scheduler.addHandle fd sendBuffer).1,
      run.clients.add fd (wmemFor sendBuffer)⟩ := by
  have place : run.scheduler.handles.findIdx
      (fun handle => decide (handle < 0) || handle == (fd : Int)) = run.scheduler.handles.length := by
    rw [represents.without_room full]
    exact find_idx_missing (handle_passed unknown)
  have stored : (run.scheduler.addHandle fd sendBuffer).1 = run.scheduler := by
    unfold Scheduler.addHandle
    rw [place, if_neg (Nat.lt_irrefl _)]
  rw [stored, Clients.add, if_neg unknown, if_neg full]
  exact represents

/-! ## Removals -/

@[simp] theorem remove_handle_handles (scheduler : Scheduler) (fd : Int) (nanoseconds : Nat) :
    (scheduler.removeHandle fd nanoseconds).handles =
      Scheduler.handlesWithout scheduler.handles fd := by
  unfold Scheduler.removeHandle
  dsimp only
  split <;> rfl

@[simp] theorem remove_handle_wmem (scheduler : Scheduler) (fd : Int) (nanoseconds : Nat) :
    (scheduler.removeHandle fd nanoseconds).wmem = scheduler.wmem := by
  unfold Scheduler.removeHandle
  dsimp only
  split <;> rfl

/-- A list that lost its head begins as it did before exactly if every entry equals the
one before it. -/
theorem take_shifted_iff (head : Nat) (rest : List Nat) :
    (head :: rest).take rest.length = rest ↔
      ∀ place < rest.length, rest.getD place 0 = (head :: rest).getD place 0 := by
  constructor
  · intro same place inside
    calc rest.getD place 0 = ((head :: rest).take rest.length).getD place 0 := by rw [same]
      _ = (head :: rest).getD place 0 := by
          simp only [List.getD_eq_getElem?_getD, List.getElem?_take, inside, if_true]
  · intro each
    apply List.ext_getElem (by simp)
    intro place _ inside
    have entry := each place inside
    have longer : place < (head :: rest).length := Nat.lt_succ_of_lt inside
    rw [List.getD_eq_getElem?_getD, List.getD_eq_getElem?_getD, List.getElem?_eq_getElem inside,
      List.getElem?_eq_getElem longer] at entry
    rw [List.getElem_take]
    exact entry.symm

/-- Sizes that are not moved down fit the entries that were only where they are equal. -/
theorem sizes_moved_iff {wmem front back : List Nat} {size : Nat}
    (stored : wmem.take (front ++ size :: back).length = front ++ size :: back) :
    wmem.take (front ++ back).length = front ++ back ↔
      ∀ place, front.length ≤ place → place < (front ++ back).length →
        wmem.getD (place + 1) 0 = wmem.getD place 0 := by
  have shorter : (front ++ back).length ≤ (front ++ size :: back).length := by simp
  have shrunk : wmem.take (front ++ back).length = front ++ (size :: back).take back.length := by
    rw [← Nat.min_eq_left shorter, ← List.take_take, stored, List.length_append, List.take_append]
    simp
  have sizes : ∀ offset < back.length + 1,
      wmem.getD (front.length + offset) 0 = (size :: back).getD offset 0 := by
    intro offset inside
    have within : front.length + offset < (front ++ size :: back).length := by
      simp only [List.length_append, List.length_cons]
      omega
    calc wmem.getD (front.length + offset) 0
        = (front ++ size :: back).getD (front.length + offset) 0 := by
          rw [← stored, List.getD_eq_getElem?_getD, List.getD_eq_getElem?_getD, List.getElem?_take,
            if_pos within]
      _ = (size :: back).getD offset 0 := by
          rw [List.getD_eq_getElem?_getD, List.getElem?_append_right (Nat.le_add_right _ _),
            Nat.add_sub_cancel_left, List.getD_eq_getElem?_getD]
  rw [shrunk, List.append_cancel_left_eq, take_shifted_iff]
  constructor
  · intro each place lower upper
    obtain ⟨offset, rfl⟩ := Nat.exists_eq_add_of_le lower
    rw [List.length_append] at upper
    rw [Nat.add_assoc, sizes (offset + 1) (by omega), sizes offset (by omega)]
    exact each offset (by omega)
  · intro each offset inside
    rw [← sizes offset (by omega)]
    have entry := each (front.length + offset) (Nat.le_add_right _ _) (by simpa using inside)
    rw [Nat.add_assoc, sizes (offset + 1) (by omega)] at entry
    exact entry

theorem occupied_iff (clients : Clients) (empty place : Nat) :
    0 ≤ (clients.handles ++ List.replicate empty (-1)).getD place (-1) ↔ place < clients.length := by
  rw [List.getD_eq_getElem?_getD]
  by_cases inside : place < clients.length
  · have listed : place < clients.handles.length := by rwa [handles_length]
    rw [List.getElem?_append_left listed, List.getElem?_eq_getElem listed]
    simp [Clients.handles, inside]
  · rw [List.getElem?_append_right (by rw [handles_length]; exact Nat.le_of_not_lt inside),
      List.getElem?_replicate]
    split <;> simp [inside]

theorem handles_without_split (front back : Clients) (fd : Nat) {empty : Nat}
    (absent : fd ∉ front.fds) (whole : front.length + back.length + empty = maxUdpHandles - 1) :
    Scheduler.handlesWithout
        (front.handles ++ (fd : Int) :: (back.handles ++ List.replicate empty (-1))) fd =
      Clients.handles (front ++ back) ++ List.replicate (empty + 1) (-1) := by
  unfold Scheduler.handlesWithout
  have count : (front.handles ++ (back.handles ++ List.replicate empty (-1))).length =
      maxUdpHandles - 1 := by
    simp only [List.length_append, List.length_replicate, handles_length]
    omega
  rw [find_idx_at _ (handle_differs absent) (by simp),
    List.eraseIdx_append_of_length_le (Nat.le_refl _), Nat.sub_self, List.eraseIdx_cons_zero,
    ← count, List.take_length, List.replicate_succ']
  simp [Clients.handles]

theorem remove_split {front back : Clients} {client : UdpClient}
    (before : client.fd ∉ front.fds) (behind : client.fd ∉ back.fds) :
    Clients.remove (front ++ client :: back) client.fd = front ++ back := by
  have others : ∀ clients : Clients, client.fd ∉ clients.fds →
      clients.filter (fun other => other.fd ≠ client.fd) = clients :=
    fun clients absent => List.filter_eq_self.mpr fun other member =>
      decide_eq_true (fd_ne_of_absent absent other member)
  rw [Clients.remove, List.filter_append, List.filter_cons_of_neg (by simp), others front before,
    others back behind]

/-- The descriptors stay right, the sizes of the send buffers only if those behind are all
the same. -/
theorem remove_known {fd nanoseconds : Nat} (represents : run.Represents)
    (known : fd ∈ run.clients.fds) :
    TableRun.Represents ⟨run.scheduler.removeHandle fd nanoseconds, run.clients.remove fd⟩ ↔
      run.scheduler.RemovesOne fd := by
  obtain ⟨front, client, back, split, rfl, before, behind⟩ :=
    split_at_client represents.distinct known
  have table := represents.split_table split
  obtain ⟨few, distinct, handles, length, wmem⟩ := represents
  rw [split] at few distinct handles wmem
  generalize free : maxUdpHandles - (front ++ client :: back).length = empty at handles table
  have whole : front.length + back.length + empty = maxUdpHandles - 1 := by
    simp only [List.length_append, List.length_cons] at free few
    omega
  have position : run.scheduler.handles.idxOf (client.fd : Int) = front.length := by
    rw [table, List.idxOf, find_idx_at _ (handle_differs before) (by simp), handles_length]
  have present : (client.fd : Int) ∈ run.scheduler.handles := by
    rw [table]
    exact List.mem_append_right _ List.mem_cons_self
  have occupied : ∀ place, 0 ≤ run.scheduler.handles.getD (place + 1) (-1) ↔
      place < (front ++ back).length := by
    intro place
    rw [handles, occupied_iff]
    simp only [List.length_append, List.length_cons]
    omega
  have stored : run.scheduler.wmem.take (front.map UdpClient.sendBuffer ++
      client.sendBuffer :: back.map UdpClient.sendBuffer).length =
      front.map UdpClient.sendBuffer ++ client.sendBuffer :: back.map UdpClient.sendBuffer := by
    simpa using wmem
  have moved := sizes_moved_iff stored
  simp only [← List.map_append, List.length_map] at moved
  unfold Scheduler.RemovesOne
  simp only [if_pos present, position, occupied]
  rw [← moved, split, remove_split before behind]
  constructor
  · intro next
    have kept := next.wmem
    rwa [remove_handle_wmem] at kept
  · intro kept
    constructor
    · simp only [List.length_append, List.length_cons] at few ⊢
      omega
    · simp only [Clients.fds, List.map_append, List.map_cons] at distinct ⊢
      exact distinct.sublist (List.Sublist.append (List.Sublist.refl _) (List.sublist_cons_self _ _))
    · have left : maxUdpHandles - (front ++ back).length = empty + 1 := by
        simp only [List.length_append, List.length_cons] at free few ⊢
        omega
      rw [remove_handle_handles, table, handles_without_split front back _ before whole, left]
    · rw [remove_handle_wmem, length]
    · rwa [remove_handle_wmem]

theorem free_not_handle (clients : Clients) : (-1 : Int) ∉ clients.handles := by
  intro member
  obtain ⟨client, -, same⟩ := List.mem_map.mp member
  omega

theorem handles_without_missing {handles : List Int} {fd : Int} (missing : fd ∉ handles) :
    Scheduler.handlesWithout handles fd = handles.take (maxUdpHandles - 1) ++ [-1] := by
  have differs : ∀ handle ∈ handles, (handle == fd) = false := by
    intro handle member
    apply beq_eq_false_iff_ne.mpr
    rintro rfl
    exact missing member
  unfold Scheduler.handlesWithout
  rw [find_idx_missing differs, List.eraseIdx_of_length_le (Nat.le_refl _)]

theorem remove_unknown {fd nanoseconds : Nat} (represents : run.Represents)
    (unknown : fd ∉ run.clients.fds) :
    TableRun.Represents ⟨run.scheduler.removeHandle fd nanoseconds, run.clients.remove fd⟩ ↔
      run.scheduler.RemovesOne fd := by
  have removed : run.clients.remove fd = run.clients :=
    List.filter_eq_self.mpr fun other member =>
      decide_eq_true (fd_ne_of_absent unknown other member)
  have absent : (fd : Int) ∉ run.scheduler.handles := by
    rw [represents.handles]
    intro member
    rcases List.mem_append.mp member with listed | free
    · exact beq_eq_false_iff_ne.mp (handle_differs unknown _ listed) rfl
    · have same := List.eq_of_mem_replicate free
      omega
  have cleared := handles_without_missing absent
  unfold Scheduler.RemovesOne
  rw [if_neg absent, removed]
  by_cases room : run.clients.length < maxUdpHandles
  · obtain ⟨free, last, table⟩ := represents.with_room room
    obtain ⟨few, distinct, handles, length, wmem⟩ := represents
    rw [List.replicate_succ', ← List.append_assoc] at table
    have rest : (run.clients.handles ++ List.replicate free (-1)).length = maxUdpHandles - 1 := by
      rw [List.length_append, List.length_replicate, handles_length]
      omega
    have same : Scheduler.handlesWithout run.scheduler.handles fd = run.scheduler.handles := by
      rw [cleared, table, ← rest, List.take_left]
    apply iff_of_true
    · constructor
      · exact few
      · exact distinct
      · rw [remove_handle_handles, same, handles]
      · rw [remove_handle_wmem, length]
      · rw [remove_handle_wmem, wmem]
    · rw [table]
      exact List.mem_append_right _ (List.mem_singleton_self _)
  · apply iff_of_false
    · intro next
      have shortened := next.without_room room
      rw [remove_handle_handles, cleared] at shortened
      apply free_not_handle run.clients
      rw [← shortened]
      exact List.mem_append_right _ (List.mem_singleton_self _)
    · rw [represents.without_room room]
      exact free_not_handle run.clients

/-! ## Runs -/

theorem table_step {next : TableRun} (operation : TableOperation) (represents : run.Represents)
    (performed : run.perform operation = some next) : next.Represents ↔ run.Proper operation := by
  cases operation with
  | addHandle fd sendBuffer =>
      cases performed
      apply iff_of_true _ trivial
      by_cases known : fd ∈ run.clients.fds
      · exact add_known represents sendBuffer known
      · by_cases room : run.clients.length < maxUdpHandles
        · exact add_with_room represents sendBuffer known room
        · exact add_without_room represents sendBuffer known room
  | removeHandle fd nanoseconds =>
      cases performed
      by_cases known : fd ∈ run.clients.fds
      · exact remove_known represents known
      · exact remove_unknown represents known

def RightThroughout (nanoseconds : Nat) (operations : List TableOperation) : Prop :=
  ∀ count ≤ operations.length, ∀ run,
    Machine.follow TableRun.perform (.start nanoseconds) (operations.take count) = some run →
    run.Represents

/-- The table is right throughout exactly if every removal takes away one entry only and
leaves all sizes where they belong. -/
theorem right_throughout_iff (nanoseconds : Nat) (operations : List TableOperation) :
    RightThroughout nanoseconds operations ↔
      ∀ (count : Nat) (within : count < operations.length) (run : TableRun),
        Machine.follow TableRun.perform (.start nanoseconds) (operations.take count) = some run →
        run.Proper operations[count] := by
  unfold RightThroughout
  rw [Machine.follow_invariant_iff (start_represents nanoseconds) fun _ operation _ =>
    table_step operation]
  constructor
  · intro proper count within run reached
    cases operation : operations[count] with
    | addHandle fd sendBuffer => trivial
    | removeHandle fd nanoseconds =>
        have one := proper count within run
        rw [operation] at one
        exact one _ reached rfl
  · intro proper count within run _ reached _
    exact proper count within run reached

/-- Sixteen clients and the removal of a seventeenth; and the size of a client that is
gone stays with the one behind it. -/
theorem removals_break_table :
    ¬RightThroughout 0 ((List.range 16).map (fun fd => .addHandle fd none) ++ [.removeHandle 16 0]) ∧
      ¬RightThroughout 0 [.addHandle 3 (some 1000), .addHandle 4 (some 2000), .removeHandle 3 0] := by
  constructor
  · intro always
    have lost := (always 17 (by decide) _ rfl).handles
    revert lost
    decide +kernel
  · intro always
    have moved := (always 3 (by decide) _ rfl).wmem
    revert moved
    decide +kernel

end Xineliboutput.Udp
