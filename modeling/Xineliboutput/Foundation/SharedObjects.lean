import Mathlib.Data.List.Perm.Basic

/-!
# Objects with a count of references

Objects have identities and are never moved. Each keeps a count of the references to it
and is destroyed when a release brings the count to zero. No reference may be taken to, or
released from, a destroyed object. The counts are right when they agree with a list of all
references that are held.
-/

namespace Xineliboutput.Foundation.Shared

set_option autoImplicit false

variable {Payload : Type*}

structure Object (Payload : Type*) where
  payload : Payload
  refCount : Int
  destroyed : Bool

namespace Object

def retained (object : Object Payload) : Object Payload :=
  { object with refCount := object.refCount + 1 }

def released (object : Object Payload) : Object Payload :=
  { object with refCount := object.refCount - 1, destroyed := object.refCount - 1 = 0 }

end Object

def modify (change : Object Payload → Object Payload) (objects : List (Object Payload))
    (identity : Nat) : Option (List (Object Payload)) :=
  match objects[identity]? with
  | none => none
  | some object => if object.destroyed then none else some (objects.set identity (change object))

def retain : List (Object Payload) → Nat → Option (List (Object Payload)) :=
  modify Object.retained

def release : List (Object Payload) → Nat → Option (List (Object Payload)) :=
  modify Object.released

def fresh (payload : Payload) : Object Payload := ⟨payload, 0, false⟩

/-- The object agrees with the number of references to it. -/
structure Object.Agrees (object : Object Payload) (references : Nat) : Prop where
  count : object.refCount = references
  destroyed : object.destroyed = true ↔ references = 0

/-- The objects agree with the references that are held. -/
structure Balanced (objects : List (Object Payload)) (held : List Nat) : Prop where
  known : ∀ identity ∈ held, identity < objects.length
  agrees : ∀ identity (within : identity < objects.length),
    objects[identity].Agrees (held.count identity)

theorem balanced_nil : Balanced ([] : List (Object Payload)) [] where
  known := by simp
  agrees := by simp

theorem Balanced.perm {objects : List (Object Payload)} {held other : List Nat}
    (balanced : Balanced objects held) (same : held.Perm other) : Balanced objects other where
  known := fun identity member => balanced.known identity (same.mem_iff.mpr member)
  agrees := fun identity within => same.count_eq identity ▸ balanced.agrees identity within

theorem Balanced.alive {objects : List (Object Payload)} {held : List Nat}
    (balanced : Balanced objects held) {identity : Nat} (member : identity ∈ held) :
    ∃ within : identity < objects.length, objects[identity].destroyed = false := by
  have within := balanced.known identity member
  refine ⟨within, ?_⟩
  rw [← Bool.not_eq_true, (balanced.agrees identity within).destroyed]
  exact Nat.ne_of_gt (List.count_pos_iff.mpr member)

theorem Balanced.modify {change : Object Payload → Object Payload}
    {objects : List (Object Payload)} {held other : List Nat} {identity : Nat}
    (balanced : Balanced objects held) (member : identity ∈ held)
    (same : ∀ object : Object Payload, (change object).payload = object.payload)
    (agrees : ∀ object : Object Payload, object.Agrees (held.count identity) →
      object.destroyed = false → (change object).Agrees (other.count identity))
    (others : ∀ place, identity ≠ place → other.count place = held.count place) :
    ∃ next, Shared.modify change objects identity = some next ∧ Balanced next other ∧
      next.map Object.payload = objects.map Object.payload := by
  obtain ⟨within, alive⟩ := balanced.alive member
  refine ⟨objects.set identity (change objects[identity]), ?_, ?_, ?_⟩
  · rw [Shared.modify, List.getElem?_eq_getElem within]
    simp [alive]
  · constructor
    case known =>
      intro place present
      rw [List.length_set]
      by_cases here : identity = place
      · exact here ▸ within
      · apply balanced.known place
        rw [← List.count_pos_iff, ← others place here]
        exact List.count_pos_iff.mpr present
    case agrees =>
      intro place inside
      rw [List.length_set] at inside
      by_cases here : identity = place
      · subst here
        rw [List.getElem_set_self]
        exact agrees _ (balanced.agrees identity within) alive
      · rw [List.getElem_set_ne here, others place here]
        exact balanced.agrees place inside
  · rw [List.map_set, same]
    apply List.ext_getElem (by simp)
    intro place _ inside
    by_cases here : identity = place
    · subst here
      simp
    · simp [List.getElem_set_ne here]

theorem Balanced.retain {objects : List (Object Payload)} {held : List Nat}
    (balanced : Balanced objects held) {identity : Nat} (member : identity ∈ held) :
    ∃ next, Shared.retain objects identity = some next ∧ Balanced next (identity :: held) ∧
      next.map Object.payload = objects.map Object.payload := by
  apply balanced.modify member
  · intro object
    rfl
  · intro object before alive
    constructor
    · simp [Object.retained, before.count]
    · simp [Object.retained, alive]
  · intro place away
    exact List.count_cons_of_ne away

theorem Balanced.release {objects : List (Object Payload)} {held : List Nat} {identity : Nat}
    (balanced : Balanced objects (identity :: held)) :
    ∃ next, Shared.release objects identity = some next ∧ Balanced next held ∧
      next.map Object.payload = objects.map Object.payload := by
  apply balanced.modify List.mem_cons_self
  · intro object
    rfl
  · intro object before alive
    have count := before.count
    rw [List.count_cons_self] at count
    constructor
    · simp [Object.released, count]
    · simp [Object.released, count]
  · intro place away
    exact (List.count_cons_of_ne away).symm

theorem Balanced.create {objects : List (Object Payload)} {held : List Nat}
    (balanced : Balanced objects held) (payload : Payload) :
    ∃ next, Shared.retain (objects ++ [fresh payload]) objects.length = some next ∧
      Balanced next (objects.length :: held) ∧
      next.map Object.payload = objects.map Object.payload ++ [payload] := by
  have unknown : held.count objects.length = 0 := by
    rw [List.count_eq_zero]
    intro member
    exact Nat.lt_irrefl _ (balanced.known _ member)
  refine ⟨objects ++ [⟨payload, 1, false⟩], ?_, ?_, by simp⟩
  · simp [Shared.retain, Shared.modify, fresh, Object.retained]
  · constructor
    · intro other present
      rw [List.length_append, List.length_singleton]
      rcases List.mem_cons.mp present with rfl | present
      · exact Nat.lt_succ_self _
      · exact Nat.lt_succ_of_lt (balanced.known other present)
    · intro other inside
      rw [List.length_append, List.length_singleton] at inside
      by_cases last : objects.length = other
      · subst last
        constructor
        · simp [unknown]
        · simp
      · have before := balanced.agrees other (by omega)
        rwa [List.getElem_append_left (by omega), List.count_cons_of_ne last]

theorem held_set {Entry : Type*} (holds : Entry → Option Nat) {table : List Entry} {place : Nat}
    {old : Entry} (present : table[place]? = some old) (new : Entry) :
    ∃ rest, (table.filterMap holds).Perm ((holds old).toList ++ rest) ∧
      ((table.set place new).filterMap holds).Perm ((holds new).toList ++ rest) := by
  obtain ⟨within, rfl⟩ := List.getElem?_eq_some_iff.mp present
  have split : ∀ entry, ((table.take place ++ entry :: table.drop (place + 1)).filterMap
      holds).Perm ((holds entry).toList ++
        ((table.take place).filterMap holds ++ (table.drop (place + 1)).filterMap holds)) := by
    intro entry
    rw [List.filterMap_append, List.filterMap_cons]
    cases holds entry with
    | none => exact List.Perm.refl _
    | some identity => exact List.perm_middle
  have before := split table[place]
  rw [List.getElem_cons_drop, List.take_append_drop] at before
  refine ⟨_, before, ?_⟩
  rw [List.set_eq_take_append_cons_drop, if_pos within]
  exact split new

end Xineliboutput.Foundation.Shared
