import Mathlib

/-!
# Picture-in-picture slots

`Pip_Open`, `Pip_Config`, `Pip_Play` and `Pip_Close`. A slot is taken where `m_PipPid` is not
zero, and the value that is stored is the number of the slot. The constructor does not touch the
array.
-/

namespace Xineliboutput.Device

set_option autoImplicit false

/-- `MAX_NUM_PIP` -/
def maxNumPip : Nat := 16

def sidPipFirst : Int := 1

/-- `m_PipPid` -/
abbrev PipPids := Fin maxNumPip → UInt16

inductive PipClient where
  | localClient
  | server
  deriving DecidableEq

inductive ClientCall where
  | pipConfig (index x y w h : Int)
  | pipClose (index : Int)
  | play (data : List UInt8) (len stream : Int)
  deriving DecidableEq

/-- `m_local` and `m_server`, with what their `Play` returns. -/
structure PipClients where
  localClient : Option (List UInt8 → Int → Int → Int)
  server : Option (List UInt8 → Int → Int → Int)

/-- What a call does: the calls of clients, and what it returns (nothing counts as 0). -/
structure PipEffect where
  calls : List (PipClient × ClientCall)
  returned : Int

inductive PipCall where
  | pipOpen
  | pipConfig (index x y w h : Int)
  | pipPlay (index : Int) (data : Option (List UInt8)) (length : Int)
  | pipClose (index : Int)

namespace PipClients

/-- `ForEach(m_clients, ...)` -/
def forEach (clients : PipClients) (call : ClientCall) : List (PipClient × ClientCall) :=
  (if clients.localClient.isSome then [(.localClient, call)] else []) ++
    if clients.server.isSome then [(.server, call)] else []

/-- The block of `Pip_Play` for a slot that is taken. -/
def playAll (clients : PipClients) (index : Int) (data : List UInt8) (length : Int) : PipEffect :=
  let stream := sidPipFirst + index
  let len := clients.localClient.elim length fun play => play data length stream
  let first := clients.localClient.elim [] fun _ => [(.localClient, .play data length stream)]
  match clients.server with
  | none => ⟨first, len⟩
  | some play =>
      ⟨first ++ [(.server, .play data len stream)],
        if clients.localClient.isNone then play data len stream else len⟩

end PipClients

/-- `Index >= 0 && Index < MAX_NUM_PIP` -/
def pipSlot (index : Int) : Option (Fin maxNumPip) :=
  if valid : 0 ≤ index ∧ index < maxNumPip then
    some ⟨index.toNat, by omega⟩
  else none

def takenSlot (pids : PipPids) (index : Int) : Option (Fin maxNumPip) :=
  (pipSlot index).filter fun i => pids i != 0

section Calls

variable (clients : PipClients) (pids : PipPids)

def pipOpen : PipPids × PipEffect :=
  match (List.finRange maxNumPip).find? fun i => pids i == 0 with
  | some i =>
      (Function.update pids i (UInt16.ofNat i),
        ⟨clients.forEach (.pipConfig i (-1) (-1) (-1) (-1)), i⟩)
  | none => (pids, ⟨[], -1⟩)

def pipConfig (index x y w h : Int) : PipPids × PipEffect :=
  match takenSlot pids index with
  | some _ => (pids, ⟨clients.forEach (.pipConfig index x y w h), 0⟩)
  | none => (pids, ⟨[], 0⟩)

def pipPlay (index : Int) (data : Option (List UInt8)) (length : Int) : PipPids × PipEffect :=
  match takenSlot pids index, data with
  | some _, some data =>
      if length > 0 then (pids, clients.playAll index data length) else (pids, ⟨[], length⟩)
  | _, _ => (pids, ⟨[], length⟩)

def pipClose (index : Int) : PipPids × PipEffect :=
  match takenSlot pids index with
  | some i => (Function.update pids i 0, ⟨clients.forEach (.pipClose index), 0⟩)
  | none => (pids, ⟨[], 0⟩)

def PipCall.perform : PipCall → PipPids × PipEffect
  | .pipOpen => Device.pipOpen clients pids
  | .pipConfig index x y w h => Device.pipConfig clients pids index x y w h
  | .pipPlay index data length => Device.pipPlay clients pids index data length
  | .pipClose index => Device.pipClose clients pids index

end Calls

/-! ## What the callers hold -/

/-- The slots that `Pip_Open` has returned and that have not been closed since. -/
abbrev OpenSlots := Fin maxNumPip → Bool

def OpenSlots.holds (opened : OpenSlots) (index : Int) : Bool :=
  (pipSlot index).any fun i => opened i

def OpenSlots.after (opened : OpenSlots) (call : PipCall) (returned : Int) : OpenSlots :=
  match call with
  | .pipOpen => fun i => opened i || decide (returned = i)
  | .pipClose index => fun i => opened i && decide (index ≠ i)
  | .pipConfig .. | .pipPlay .. => opened

/-- The device with what its callers hold. -/
structure PipState where
  pids : PipPids
  opened : OpenSlots

def PipState.next (clients : PipClients) (state : PipState) (call : PipCall) : PipState :=
  let result := call.perform clients state.pids
  ⟨result.1, state.opened.after call result.2.returned⟩

/-- Clients are called exactly for an open index, in this way. -/
def ActsIfOpen (opened : OpenSlots) (index : Int) (expected calls : List (PipClient × ClientCall)) :
    Prop :=
  calls = if opened.holds index then expected else []

def PipCall.Right (clients : PipClients) (state : PipState) (call : PipCall) : Prop :=
  let (next, effect) := call.perform clients state.pids
  match call with
  | .pipOpen =>
      ((∃ i : Fin maxNumPip, effect.returned = i ∧ state.opened i = false ∧
          effect.calls = clients.forEach (.pipConfig i (-1) (-1) (-1) (-1))) ∨
        effect.returned = -1 ∧ effect.calls = [] ∧ ∀ i, state.opened i = true) ∧
      ∀ i : Fin maxNumPip, effect.returned ≠ i → next i = state.pids i
  | .pipConfig index x y w h =>
      ActsIfOpen state.opened index (clients.forEach (.pipConfig index x y w h)) effect.calls ∧
        next = state.pids
  | .pipPlay index data length =>
      ActsIfOpen state.opened index
          (data.elim [] fun data =>
            if length > 0 then (clients.playAll index data length).calls else [])
          effect.calls ∧
        next = state.pids
  | .pipClose index =>
      ActsIfOpen state.opened index (clients.forEach (.pipClose index)) effect.calls ∧
        ∀ i : Fin maxNumPip, index ≠ i → next i = state.pids i

def EachPip (clients : PipClients) (Holds : PipState → PipCall → Prop) :
    PipState → List PipCall → Prop
  | _, [] => True
  | state, call :: calls => Holds state call ∧ EachPip clients Holds (state.next clients call) calls

def newDevice (stored : PipPids) : PipState := ⟨stored, fun _ => false⟩

/-- The slot's memory was zero, and it is not slot 0 while that is open. -/
def SoundIndex (stored : PipPids) (state : PipState) (index : Int) : Prop :=
  ∀ i, pipSlot index = some i → stored i = 0 ∧ (i.val = 0 → state.opened i = false)

/-- `Pip_Open` comes while slot 0 is not open and one of the slots whose memory was zero is
free. -/
def PipCall.Usable (stored : PipPids) (state : PipState) : PipCall → Prop
  | .pipOpen =>
      (∀ i : Fin maxNumPip, i.val = 0 → state.opened i = false) ∧
        ∃ i, stored i = 0 ∧ state.opened i = false
  | .pipConfig index _ _ _ _ | .pipClose index => SoundIndex stored state index
  | .pipPlay index data length =>
      data.isSome = true → 0 < length → SoundIndex stored state index

/-! ## The invariant -/

/-- Something is stored in the slots whose memory was not zero, and in the open ones but slot
0. -/
structure PipAgrees (stored : PipPids) (state : PipState) : Prop where
  zero : ∀ i, state.opened i = true → stored i = 0
  taken : ∀ i : Fin maxNumPip,
    state.pids i ≠ 0 ↔ stored i ≠ 0 ∨ (i.val ≠ 0 ∧ state.opened i = true)

section Invariant

variable {clients : PipClients} {stored : PipPids} {state : PipState} {index : Int}

theorem new_agrees (stored : PipPids) : PipAgrees stored (newDevice stored) where
  zero i opened := by cases opened
  taken i := by simp [newDevice]

theorem slot_index {i : Fin maxNumPip} (slot : pipSlot index = some i) : index = i := by
  unfold pipSlot at slot
  split at slot
  · next valid =>
      rw [← Option.some.inj slot]
      exact (Int.toNat_of_nonneg valid.1).symm
  · cases slot

theorem slot_of_index (i : Fin maxNumPip) : pipSlot (i.val : Int) = some i := by
  have valid : 0 ≤ (i.val : Int) ∧ (i.val : Int) < maxNumPip := by
    have bound := i.isLt
    omega
  rw [pipSlot, dif_pos valid]
  rfl

theorem PipAgrees.sound {i : Fin maxNumPip} (agrees : PipAgrees stored state)
    (sound : SoundIndex stored state index) (slot : pipSlot index = some i) :
    state.pids i ≠ 0 ↔ state.opened i = true := by
  obtain ⟨zero, closed⟩ := sound i slot
  rw [agrees.taken i]
  constructor
  · rintro (left | ⟨_, opened⟩)
    · exact absurd zero left
    · exact opened
  · intro opened
    right
    refine ⟨?_, opened⟩
    intro first
    rw [closed first] at opened
    cases opened

theorem taken_slot_cases (pids : PipPids) (index : Int) :
    (∃ i, pipSlot index = some i ∧ pids i ≠ 0 ∧ takenSlot pids index = some i) ∨
      takenSlot pids index = none ∧ ∀ i, pipSlot index = some i → pids i = 0 := by
  rw [takenSlot]
  cases slot : pipSlot index with
  | none => exact .inr ⟨rfl, fun i same => by cases same⟩
  | some i =>
      by_cases zero : pids i = 0
      · right
        refine ⟨by simp [zero], ?_⟩
        intro j same
        rw [← Option.some.inj same]
        exact zero
      · left
        exact ⟨i, rfl, zero, by simp [zero]⟩

theorem holds_slot {opened : OpenSlots} {i : Fin maxNumPip} (slot : pipSlot index = some i) :
    opened.holds index = opened i := by
  rw [OpenSlots.holds, slot, Option.any_some]

theorem holds_none {opened : OpenSlots} (none' : pipSlot index = none) :
    opened.holds index = false := by
  rw [OpenSlots.holds, none', Option.any_none]

theorem PipAgrees.taken_slot (agrees : PipAgrees stored state)
    (sound : SoundIndex stored state index) :
    (∃ i, pipSlot index = some i ∧ takenSlot state.pids index = some i ∧
        state.opened.holds index = true) ∨
      takenSlot state.pids index = none ∧ state.opened.holds index = false := by
  rcases taken_slot_cases state.pids index with ⟨i, slot, taken, found⟩ | ⟨found, zeros⟩
  · left
    exact ⟨i, slot, found, (holds_slot slot).trans ((agrees.sound sound slot).mp taken)⟩
  · right
    refine ⟨found, ?_⟩
    cases slot : pipSlot index with
    | none => exact holds_none slot
    | some i =>
        rw [holds_slot slot, ← Bool.not_eq_true, ← agrees.sound sound slot]
        exact not_not_intro (zeros i slot)

/-! ## Calls -/

theorem config_right {x y w h : Int} (agrees : PipAgrees stored state)
    (sound : SoundIndex stored state index) :
    (PipCall.pipConfig index x y w h).Right clients state := by
  simp only [PipCall.Right, PipCall.perform, pipConfig, ActsIfOpen]
  rcases agrees.taken_slot sound with ⟨i, _, found, holds⟩ | ⟨found, holds⟩
  · rw [found, holds]
    exact ⟨rfl, rfl⟩
  · rw [found, holds]
    exact ⟨rfl, rfl⟩

theorem play_right {data : Option (List UInt8)} {length : Int} (agrees : PipAgrees stored state)
    (usable : (PipCall.pipPlay index data length).Usable stored state) :
    (PipCall.pipPlay index data length).Right clients state := by
  simp only [PipCall.Right, PipCall.perform, pipPlay, ActsIfOpen]
  cases data with
  | none => cases takenSlot state.pids index <;> simp
  | some data =>
      by_cases some' : 0 < length
      · rcases agrees.taken_slot (usable rfl some') with ⟨i, _, found, holds⟩ | ⟨found, holds⟩
        · rw [found, holds]
          simp [some']
        · rw [found, holds]
          exact ⟨rfl, rfl⟩
      · cases takenSlot state.pids index <;> simp [some']

theorem close_right (agrees : PipAgrees stored state) (sound : SoundIndex stored state index) :
    (PipCall.pipClose index).Right clients state := by
  simp only [PipCall.Right, PipCall.perform, pipClose, ActsIfOpen]
  rcases agrees.taken_slot sound with ⟨i, slot, found, holds⟩ | ⟨found, holds⟩
  · rw [found, holds]
    refine ⟨rfl, ?_⟩
    intro j other
    have apart : j ≠ i := by
      intro same
      rw [same] at other
      exact other (slot_index slot)
    exact Function.update_of_ne apart _ _
  · rw [found, holds]
    exact ⟨rfl, fun _ _ => rfl⟩

/-- The slot that `Pip_Open` finds, which nobody holds. -/
theorem open_finds (agrees : PipAgrees stored state) (usable : PipCall.pipOpen.Usable stored state) :
    ∃ i, ((List.finRange maxNumPip).find? fun i => state.pids i == 0) = some i ∧
      stored i = 0 ∧ state.opened i = false := by
  obtain ⟨first, j, zero, closed⟩ := usable
  cases found : (List.finRange maxNumPip).find? fun i => state.pids i == 0 with
  | none =>
      have taken := List.find?_eq_none.mp found j (List.mem_finRange j)
      have empty : state.pids j = 0 := by
        by_contra full
        rcases (agrees.taken j).mp full with left | ⟨_, opened⟩
        · exact left zero
        · rw [closed] at opened
          cases opened
      simp [empty] at taken
  | some i =>
      have empty : state.pids i = 0 := by simpa using List.find?_some found
      have none' : ¬(stored i ≠ 0 ∨ (i.val ≠ 0 ∧ state.opened i = true)) := by
        rw [← agrees.taken i]
        exact not_not_intro empty
      refine ⟨i, rfl, ?_, ?_⟩
      · by_contra full
        exact none' (.inl full)
      · by_cases zero' : i.val = 0
        · exact first i zero'
        · rw [← Bool.not_eq_true]
          exact fun opened => none' (.inr ⟨zero', opened⟩)

theorem open_right (agrees : PipAgrees stored state)
    (usable : PipCall.pipOpen.Usable stored state) : PipCall.pipOpen.Right clients state := by
  obtain ⟨i, found, _, closed⟩ := open_finds agrees usable
  simp only [PipCall.Right, PipCall.perform, pipOpen, found]
  refine ⟨.inl ⟨i, rfl, closed, rfl⟩, ?_⟩
  intro j other
  have apart : j ≠ i := by
    intro same
    rw [same] at other
    exact other rfl
  exact Function.update_of_ne apart _ _

theorem call_right {call : PipCall} (agrees : PipAgrees stored state)
    (usable : call.Usable stored state) : call.Right clients state := by
  cases call with
  | pipOpen => exact open_right agrees usable
  | pipConfig index x y w h => exact config_right agrees usable
  | pipPlay index data length => exact play_right agrees usable
  | pipClose index => exact close_right agrees usable

/-! What is stored and what is open after a call. -/

theorem ofNat_slot_ne_zero (i : Fin maxNumPip) : UInt16.ofNat i.val ≠ 0 ↔ i.val ≠ 0 := by
  have bound := i.isLt
  simp only [maxNumPip] at bound
  rw [ne_eq, ← UInt16.toNat_inj, UInt16.toNat_ofNat']
  have small : i.val % 2 ^ 16 = i.val := Nat.mod_eq_of_lt (by omega)
  rw [small]
  rfl

theorem open_agrees (agrees : PipAgrees stored state)
    (usable : PipCall.pipOpen.Usable stored state) :
    PipAgrees stored (state.next clients .pipOpen) := by
  obtain ⟨i, found, zero, _⟩ := open_finds agrees usable
  simp only [PipState.next, PipCall.perform, pipOpen, found, OpenSlots.after]
  constructor
  · intro j opened
    rcases Bool.or_eq_true_iff.mp opened with before | now
    · exact agrees.zero j before
    · have same : i = j := Fin.ext (Int.ofNat_inj.mp (of_decide_eq_true now))
      rw [← same]
      exact zero
  · intro j
    dsimp only
    by_cases same : j = i
    · subst same
      rw [Function.update_self, ofNat_slot_ne_zero]
      simp [zero]
    · have apart : ((i.val : Int) = (j.val : Int)) ↔ False := by
        rw [Int.ofNat_inj, iff_false]
        exact fun equal => same (Fin.ext equal).symm
      rw [Function.update_of_ne same, agrees.taken j]
      simp only [apart, decide_false, Bool.or_false]

theorem close_agrees (agrees : PipAgrees stored state)
    (sound : SoundIndex stored state index) :
    PipAgrees stored (state.next clients (.pipClose index)) := by
  have after : ∀ j, (state.opened.after (.pipClose index) 0) j =
      (state.opened j && decide (index ≠ j)) := fun _ => rfl
  constructor
  · intro j opened
    exact agrees.zero j (Bool.and_eq_true_iff.mp opened).1
  · intro j
    simp only [PipState.next, PipCall.perform, pipClose]
    rcases agrees.taken_slot sound with ⟨i, slot, found, _⟩ | ⟨found, holds⟩
    · rw [found]
      dsimp only
      rw [after j, slot_index slot]
      by_cases same : j = i
      · subst same
        rw [Function.update_self]
        simp [(sound j slot).1]
      · have apart : ((i.val : Int) = (j.val : Int)) ↔ False := by
          rw [Int.ofNat_inj, iff_false]
          exact fun equal => same (Fin.ext equal).symm
        rw [Function.update_of_ne same, agrees.taken j]
        simp only [ne_eq, apart, not_false_eq_true, decide_true, Bool.and_true]
    · rw [found]
      dsimp only
      rw [after j, agrees.taken j]
      have kept : (state.opened j && decide (index ≠ j)) = state.opened j := by
        by_cases same : index = j
        · have closed := holds
          rw [same, holds_slot (slot_of_index j)] at closed
          rw [closed, Bool.false_and]
        · rw [decide_eq_true same, Bool.and_true]
      rw [kept]

theorem next_agrees {call : PipCall} (agrees : PipAgrees stored state)
    (usable : call.Usable stored state) : PipAgrees stored (state.next clients call) := by
  cases call with
  | pipOpen => exact open_agrees agrees usable
  | pipConfig index x y w h =>
      have same : state.next clients (.pipConfig index x y w h) = state := by
        simp only [PipState.next, PipCall.perform, pipConfig, OpenSlots.after]
        cases takenSlot state.pids index <;> rfl
      rw [same]
      exact agrees
  | pipPlay index data length =>
      have same : state.next clients (.pipPlay index data length) = state := by
        simp only [PipState.next, PipCall.perform, pipPlay, OpenSlots.after]
        split
        · split <;> rfl
        · rfl
      rw [same]
      exact agrees
  | pipClose index => exact close_agrees agrees usable

/-! Where there are clients, no other call does what it is to do. -/

def PipClients.Present (clients : PipClients) : Prop :=
  clients.localClient.isSome = true ∨ clients.server.isSome = true

theorem for_each_present (present : clients.Present) (call : ClientCall) :
    clients.forEach call ≠ [] := by
  rcases present with first | second
  · simp [PipClients.forEach, first]
  · simp [PipClients.forEach, second]

theorem play_all_present (present : clients.Present) (index : Int) (data : List UInt8)
    (length : Int) : (clients.playAll index data length).calls ≠ [] := by
  rcases clients with ⟨_ | first, _ | second⟩
  · simp [PipClients.Present] at present
  · simp [PipClients.playAll]
  · simp [PipClients.playAll]
  · simp [PipClients.playAll]

theorem PipAgrees.unsound (agrees : PipAgrees stored state)
    (unsound : ¬SoundIndex stored state index) :
    (∃ i, takenSlot state.pids index = some i ∧ state.opened.holds index = false) ∨
      takenSlot state.pids index = none ∧ state.opened.holds index = true := by
  simp only [SoundIndex, not_forall] at unsound
  obtain ⟨i, slot, apart⟩ := unsound
  rw [holds_slot slot]
  by_cases zero : stored i = 0
  · right
    have first : i.val = 0 ∧ state.opened i = true := by
      by_contra other
      apply apart
      refine ⟨zero, fun first => ?_⟩
      rw [← Bool.not_eq_true]
      exact fun opened => other ⟨first, opened⟩
    have empty : state.pids i = 0 := by
      by_contra full
      rcases (agrees.taken i).mp full with left | ⟨other, _⟩
      · exact left zero
      · exact other first.1
    exact ⟨by simp [takenSlot, slot, empty], first.2⟩
  · left
    have full : state.pids i ≠ 0 := (agrees.taken i).mpr (.inl zero)
    refine ⟨i, by simp [takenSlot, slot, full], ?_⟩
    rw [← Bool.not_eq_true]
    exact fun opened => zero (agrees.zero i opened)

theorem config_usable {x y w h : Int} (present : clients.Present) (agrees : PipAgrees stored state)
    (right : (PipCall.pipConfig index x y w h).Right clients state) :
    SoundIndex stored state index := by
  by_contra unsound
  simp only [PipCall.Right, PipCall.perform, pipConfig, ActsIfOpen] at right
  rcases agrees.unsound unsound with ⟨i, found, holds⟩ | ⟨found, holds⟩
  · rw [found, holds] at right
    exact for_each_present present _ right.1
  · rw [found, holds] at right
    exact for_each_present present _ right.1.symm

theorem close_usable (present : clients.Present) (agrees : PipAgrees stored state)
    (right : (PipCall.pipClose index).Right clients state) : SoundIndex stored state index := by
  by_contra unsound
  simp only [PipCall.Right, PipCall.perform, pipClose, ActsIfOpen] at right
  rcases agrees.unsound unsound with ⟨i, found, holds⟩ | ⟨found, holds⟩
  · rw [found, holds] at right
    exact for_each_present present _ right.1
  · rw [found, holds] at right
    exact for_each_present present _ right.1.symm

theorem play_usable {data : Option (List UInt8)} {length : Int} (present : clients.Present)
    (agrees : PipAgrees stored state)
    (right : (PipCall.pipPlay index data length).Right clients state) :
    (PipCall.pipPlay index data length).Usable stored state := by
  cases data with
  | none =>
      intro same
      cases same
  | some data =>
      intro _ some'
      by_contra unsound
      simp only [PipCall.Right, PipCall.perform, pipPlay, ActsIfOpen] at right
      rcases agrees.unsound unsound with ⟨i, found, holds⟩ | ⟨found, holds⟩
      · rw [found, holds] at right
        simp only [some', if_true] at right
        exact play_all_present present _ _ _ right.1
      · rw [found, holds] at right
        simp only [some', if_true, Option.elim_some] at right
        exact play_all_present present _ _ _ right.1.symm

theorem open_usable (agrees : PipAgrees stored state)
    (right : PipCall.pipOpen.Right clients state) : PipCall.pipOpen.Usable stored state := by
  simp only [PipCall.Right, PipCall.perform, pipOpen] at right
  cases found : (List.finRange maxNumPip).find? fun i => state.pids i == 0 with
  | none =>
      rw [found] at right
      rcases right.1 with ⟨i, same, _⟩ | ⟨_, _, all⟩
      · dsimp only at same
        omega
      · -- With every slot open nothing is stored in slot 0, which would be found.
        have first : (⟨0, Nat.zero_lt_succ 15⟩ : Fin maxNumPip) ∈ List.finRange maxNumPip :=
          List.mem_finRange _
        have empty : state.pids ⟨0, Nat.zero_lt_succ 15⟩ = 0 := by
          by_contra full
          rcases (agrees.taken _).mp full with left | ⟨other, _⟩
          · exact left (agrees.zero _ (all _))
          · exact other rfl
        have taken := List.find?_eq_none.mp found _ first
        simp [empty] at taken
  | some i =>
      rw [found] at right
      have closed : state.opened i = false := by
        rcases right.1 with ⟨j, same, closed, _⟩ | ⟨same, _⟩
        · rw [Fin.ext (Int.ofNat_inj.mp same)]
          exact closed
        · dsimp only at same
          omega
      have empty : state.pids i = 0 := by simpa using List.find?_some found
      have zero : stored i = 0 := by
        by_contra full
        exact (agrees.taken i).mpr (.inl full) empty
      refine ⟨?_, i, zero, closed⟩
      intro first zero'
      rw [← Bool.not_eq_true]
      intro opened
      have before : state.pids first = 0 := by
        by_contra full
        rcases (agrees.taken first).mp full with left | ⟨other, _⟩
        · exact left (agrees.zero first opened)
        · exact other zero'
      have same : i = first := by
        obtain ⟨_, place, bound, here, earlier⟩ := List.find?_eq_some_iff_getElem.mp found
        rw [List.getElem_finRange] at here
        by_contra apart
        have later : 0 < place := by
          rcases Nat.eq_zero_or_pos place with rfl | later
          · exact absurd (Fin.ext (by rw [← here, zero']; rfl)) apart
          · exact later
        have none' := earlier 0 later
        rw [List.getElem_finRange] at none'
        have first' : first = Fin.cast (List.length_finRange) ⟨0, by simp [maxNumPip]⟩ :=
          Fin.ext zero'
        rw [← first', before] at none'
        simp at none'
      rw [same, opened] at closed
      cases closed

theorem call_usable {call : PipCall} (present : clients.Present) (agrees : PipAgrees stored state)
    (right : call.Right clients state) : call.Usable stored state := by
  cases call with
  | pipOpen => exact open_usable agrees right
  | pipConfig index x y w h => exact config_usable present agrees right
  | pipPlay index data length => exact play_usable present agrees right
  | pipClose index => exact close_usable present agrees right

/-! ## Runs -/

theorem run_right (calls : List PipCall) (agrees : PipAgrees stored state)
    (usable : EachPip clients (PipCall.Usable stored) state calls) :
    EachPip clients (PipCall.Right clients) state calls := by
  induction calls generalizing state with
  | nil => trivial
  | cons call calls ih =>
      exact ⟨call_right agrees usable.1, ih (next_agrees agrees usable.1) usable.2⟩

theorem run_usable (calls : List PipCall) (present : clients.Present)
    (agrees : PipAgrees stored state)
    (right : EachPip clients (PipCall.Right clients) state calls) :
    EachPip clients (PipCall.Usable stored) state calls := by
  induction calls generalizing state with
  | nil => trivial
  | cons call calls ih =>
      have usable := call_usable present agrees right.1
      exact ⟨usable, ih (next_agrees agrees usable) right.2⟩

end Invariant

/-- On a new device the calls of a run do what they are to do where all are usable, and, if
there are clients, only there. -/
theorem pip_runs_right_iff (clients : PipClients) (stored : PipPids) (calls : List PipCall) :
    (EachPip clients (PipCall.Usable stored) (newDevice stored) calls →
        EachPip clients (PipCall.Right clients) (newDevice stored) calls) ∧
      (clients.Present → EachPip clients (PipCall.Right clients) (newDevice stored) calls →
        EachPip clients (PipCall.Usable stored) (newDevice stored) calls) :=
  ⟨run_right calls (new_agrees stored),
    fun present => run_usable calls present (new_agrees stored)⟩

def onlyLocal : PipClients := ⟨some fun _ length _ => length, none⟩

/-- With a zeroed array slot 0 is given away twice, and its window cannot be placed. -/
theorem slot_zero_twice :
    (∀ state, state = (newDevice fun _ => 0).next onlyLocal .pipOpen →
      (pipOpen onlyLocal (fun _ => 0)).2.returned = 0 ∧
        (pipOpen onlyLocal state.pids).2.returned = 0 ∧
        (pipConfig onlyLocal state.pids 0 5 5 20 20).2.calls = []) ∧
      ¬EachPip onlyLocal (PipCall.Right onlyLocal) (newDevice fun _ => 0) [.pipOpen, .pipOpen] := by
  constructor
  · rintro state rfl
    decide
  · intro right
    have usable := run_usable _ (.inl rfl) (new_agrees fun _ => 0) right
    have closed := usable.2.1.1 ⟨0, Nat.zero_lt_succ 15⟩ rfl
    exact absurd closed (by decide)

/-- With something in the memory of slot 0 the others are given away as they should be. -/
theorem other_slots_usable :
    EachPip onlyLocal (PipCall.Right onlyLocal) (newDevice fun i => if i.val = 0 then 7 else 0)
      [.pipOpen, .pipConfig 1 5 5 20 20, .pipClose 1, .pipOpen] := by
  apply (pip_runs_right_iff onlyLocal (fun i => if i.val = 0 then 7 else 0) _).1
  refine ⟨?_, ?_, ?_, ?_, trivial⟩
  · exact ⟨fun _ _ => rfl, ⟨1, by decide⟩, by decide, rfl⟩
  · intro i slot
    obtain rfl : i = ⟨1, by decide⟩ := (Option.some.inj slot).symm
    exact ⟨by decide, fun first => absurd first (by decide)⟩
  · intro i slot
    obtain rfl : i = ⟨1, by decide⟩ := (Option.some.inj slot).symm
    exact ⟨by decide, fun first => absurd first (by decide)⟩
  · exact ⟨by decide, ⟨1, by decide⟩, by decide, by decide⟩

end Xineliboutput.Device
