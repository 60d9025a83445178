import Mathlib.Data.List.Basic

/-!
# Labelled machines, their runs and simulations

A machine is a set of initial states and a labelled step relation. Runs grow at
their end, so an invariant may speak about the labels passed so far. A forward
simulation carries every run of a concrete machine to a run of an abstract one;
labels without an abstract counterpart are matched by no step at all.
-/

namespace Xineliboutput.Foundation

set_option autoImplicit false

structure Machine (State Label : Type*) where
  initial : State → Prop
  step : State → Label → State → Prop

namespace Machine

variable {State Label AbstractState AbstractLabel : Type*}

inductive Run (machine : Machine State Label) : List Label → State → Prop where
  | start {state : State} (initially : machine.initial state) : Run machine [] state
  | snoc {labels : List Label} {state : State} (prior : Run machine labels state)
      {label : Label} {next : State} (move : machine.step state label next) :
      Run machine (labels ++ [label]) next

def Reachable (machine : Machine State Label) (state : State) : Prop :=
  ∃ labels, Run machine labels state

theorem Run.mono {machine other : Machine State Label}
    (initially : ∀ state, machine.initial state → other.initial state)
    (allowed : ∀ state label next, machine.step state label next → other.step state label next)
    {labels : List Label} {state : State} (run : Run machine labels state) :
    Run other labels state := by
  induction run with
  | start start => exact .start (initially _ start)
  | snoc prior move ih => exact ih.snoc (allowed _ _ _ move)

theorem Run.invariant {machine : Machine State Label} (Invariant : List Label → State → Prop)
    (initially : ∀ state, machine.initial state → Invariant [] state)
    (preserved : ∀ labels state label next, Invariant labels state →
      machine.step state label next → Invariant (labels ++ [label]) next)
    {labels : List Label} {state : State} (run : Run machine labels state) :
    Invariant labels state := by
  induction run with
  | start start => exact initially _ start
  | snoc prior move ih => exact preserved _ _ _ _ ih move

theorem Reachable.invariant {machine : Machine State Label} (Invariant : State → Prop)
    (initially : ∀ state, machine.initial state → Invariant state)
    (preserved : ∀ state label next, Invariant state →
      machine.step state label next → Invariant next)
    {state : State} (reached : Reachable machine state) : Invariant state := by
  obtain ⟨labels, run⟩ := reached
  exact run.invariant (fun _ state => Invariant state) initially
    fun _ state label next => preserved state label next

def drive {Operation Effect : Type*} (perform : State → Operation → Option (State × Effect)) :
    State → List Operation → Option (State × List (Operation × Effect))
  | state, [] => some (state, [])
  | state, operation :: operations =>
      match perform state operation with
      | none => none
      | some (next, effect) =>
          (drive perform next operations).map fun (final, labels) =>
            (final, (operation, effect) :: labels)

theorem drive_snoc {Operation Effect : Type*}
    {perform : State → Operation → Option (State × Effect)} {operations : List Operation}
    {operation : Operation} {state final : State} {labels : List (Operation × Effect)} :
    drive perform state (operations ++ [operation]) = some (final, labels) ↔
      ∃ middle before effect, drive perform state operations = some (middle, before) ∧
        perform middle operation = some (final, effect) ∧
        labels = before ++ [(operation, effect)] := by
  induction operations generalizing state final labels with
  | nil =>
      simp only [List.nil_append, drive]
      cases performed : perform state operation with
      | none => simp [performed]
      | some result => simp [performed, Prod.ext_iff, eq_comm, and_comm]
  | cons first operations ih =>
      simp only [List.cons_append, drive]
      cases perform state first with
      | none => simp
      | some result =>
          obtain ⟨next, effect⟩ := result
          simp only [Option.map_eq_some_iff, Prod.mk.injEq, Prod.exists, ih]
          constructor
          · rintro ⟨_, _, ⟨middle, before, effect, driven, performed, rfl⟩, rfl, rfl⟩
            exact ⟨middle, _, effect, ⟨middle, before, driven, rfl, rfl⟩, performed, rfl⟩
          · rintro ⟨middle, _, effect, ⟨_, before, driven, rfl, rfl⟩, performed, rfl⟩
            exact ⟨final, _, ⟨_, before, effect, driven, performed, rfl⟩, rfl, rfl⟩

theorem drive_append {Operation Effect : Type*}
    {perform : State → Operation → Option (State × Effect)} {first second : List Operation}
    {state middle final : State} {before after : List (Operation × Effect)}
    (begun : drive perform state first = some (middle, before))
    (ended : drive perform middle second = some (final, after)) :
    drive perform state (first ++ second) = some (final, before ++ after) := by
  induction first generalizing state before with
  | nil =>
      simp only [drive, Option.some.injEq, Prod.mk.injEq] at begun
      obtain ⟨rfl, rfl⟩ := begun
      exact ended
  | cons operation first ih =>
      simp only [drive] at begun
      cases performed : perform state operation with
      | none => simp [performed] at begun
      | some result =>
          rw [performed] at begun
          obtain ⟨⟨_, onward⟩, driven, same⟩ := Option.map_eq_some_iff.mp begun
          obtain ⟨rfl, rfl⟩ := Prod.mk.inj same
          rw [List.cons_append, drive, performed]
          simp only [ih driven, Option.map_some]
          rfl

theorem Run.drive {Operation Effect : Type*} (machine : Machine State (Operation × Effect))
    {perform : State → Operation → Option (State × Effect)} (operations : List Operation)
    (allowed : ∀ state next effect, ∀ operation ∈ operations,
      perform state operation = some (next, effect) → machine.step state (operation, effect) next)
    {labels more : List (Operation × Effect)} {state final : State} (run : Run machine labels state)
    (driven : drive perform state operations = some (final, more)) :
    Run machine (labels ++ more) final := by
  induction operations generalizing labels more state with
  | nil =>
      simp only [Machine.drive, Option.some.injEq, Prod.mk.injEq] at driven
      obtain ⟨rfl, rfl⟩ := driven
      simpa using run
  | cons operation operations ih =>
      simp only [Machine.drive] at driven
      split at driven
      · simp at driven
      · rename_i next effect performed
        simp only [Option.map_eq_some_iff, Prod.mk.injEq, Prod.exists] at driven
        obtain ⟨_, rest, driven, rfl, rfl⟩ := driven
        have onward := run.snoc (allowed _ _ _ _ List.mem_cons_self performed)
        simpa using ih (fun state next effect later member =>
          allowed state next effect later (List.mem_cons_of_mem _ member)) onward driven

def follow (perform : State → Label → Option State) : State → List Label → Option State
  | state, [] => some state
  | state, label :: labels => (perform state label).bind fun next => follow perform next labels

theorem follow_append (perform : State → Label → Option State) (first second : List Label)
    (state : State) :
    follow perform state (first ++ second) =
      (follow perform state first).bind fun next => follow perform next second := by
  induction first generalizing state with
  | nil => rfl
  | cons label first ih =>
      simp only [List.cons_append, follow, Option.bind_assoc]
      apply congrArg
      funext next
      exact ih next

theorem follow_take_succ (perform : State → Label → Option State) (labels : List Label)
    (state : State) {count : Nat} (within : count < labels.length) :
    follow perform state (labels.take (count + 1)) =
      (follow perform state (labels.take count)).bind fun next => perform next labels[count] := by
  rw [List.take_succ_eq_append_getElem within, follow_append]
  simp only [follow, Option.bind_fun_some]

/-- An invariant that the proper steps keep holds throughout a run of such steps. -/
theorem follow_invariant {perform : State → Label → Option State} {Invariant : State → Prop}
    {Proper : State → Label → Prop} {initial : State} (initially : Invariant initial)
    (preserved : ∀ state label next, Invariant state → Proper state label →
      perform state label = some next → Invariant next) (labels : List Label)
    (proper : ∀ (count : Nat) (within : count < labels.length) (state next : State),
      follow perform initial (labels.take count) = some state →
      perform state labels[count] = some next → Proper state labels[count]) :
    ∀ count ≤ labels.length, ∀ state,
      follow perform initial (labels.take count) = some state → Invariant state := by
  intro count
  induction count with
  | zero =>
      intro _ state reached
      cases reached
      exact initially
  | succ count ih =>
      intro within state reached
      rw [follow_take_succ perform labels initial within] at reached
      obtain ⟨before, earlier, performed⟩ := Option.bind_eq_some_iff.mp reached
      exact preserved before _ state (ih (Nat.le_of_lt within) before earlier)
        (proper count within before state earlier performed) performed

/-- Where the steps that keep an invariant are known exactly, it holds throughout a run
exactly if all steps of the run are such. -/
theorem follow_invariant_iff {perform : State → Label → Option State} {Invariant : State → Prop}
    {Proper : State → Label → Prop} {initial : State} (initially : Invariant initial)
    (exactly : ∀ state label next, Invariant state → perform state label = some next →
      (Invariant next ↔ Proper state label)) (labels : List Label) :
    (∀ count ≤ labels.length, ∀ state,
        follow perform initial (labels.take count) = some state → Invariant state) ↔
      ∀ (count : Nat) (within : count < labels.length) (state next : State),
        follow perform initial (labels.take count) = some state →
        perform state labels[count] = some next → Proper state labels[count] := by
  constructor
  · intro always count within state next reached performed
    have onward := follow_take_succ perform labels initial within
    rw [reached, Option.bind_some, performed] at onward
    exact (exactly state _ next (always count (Nat.le_of_lt within) state reached) performed).mp
      (always (count + 1) within next onward)
  · exact follow_invariant initially (fun state label next holds proper performed =>
      (exactly state label next holds performed).mpr proper) labels

/-- Where a step can always be taken while the invariant holds, the run also goes on. -/
theorem follow_progress_iff {perform : State → Label → Option State} {Invariant : State → Prop}
    {Proper : State → Label → Prop} {initial : State} (initially : Invariant initial)
    (progress : ∀ state label, Invariant state → ∃ next, perform state label = some next)
    (exactly : ∀ state label next, Invariant state → perform state label = some next →
      (Invariant next ↔ Proper state label)) (labels : List Label) :
    (∀ count ≤ labels.length, ∃ state,
        follow perform initial (labels.take count) = some state ∧ Invariant state) ↔
      ∀ (count : Nat) (within : count < labels.length) (state : State),
        follow perform initial (labels.take count) = some state → Proper state labels[count] := by
  constructor
  · intro always count within state reached
    obtain ⟨before, arrived, holds⟩ := always count (Nat.le_of_lt within)
    obtain rfl : before = state := Option.some.inj (arrived.symm.trans reached)
    obtain ⟨next, performed⟩ := progress before labels[count] holds
    obtain ⟨after, onward, kept⟩ := always (count + 1) within
    rw [follow_take_succ perform labels initial within, arrived, Option.bind_some] at onward
    exact (exactly before _ after holds onward).mp kept
  · intro proper count
    induction count with
    | zero =>
        intro _
        exact ⟨initial, rfl, initially⟩
    | succ count ih =>
        intro within
        obtain ⟨before, arrived, holds⟩ := ih (Nat.le_of_lt within)
        obtain ⟨next, performed⟩ := progress before labels[count] holds
        refine ⟨next, ?_, ?_⟩
        · rw [follow_take_succ perform labels initial within, arrived, Option.bind_some, performed]
        · exact (exactly before _ next holds performed).mpr (proper count within before arrived)

theorem foldl_take_succ (perform : State → Label → State) (initial : State) (labels : List Label)
    {count : Nat} (within : count < labels.length) :
    (labels.take (count + 1)).foldl perform initial =
      perform ((labels.take count).foldl perform initial) labels[count] := by
  rw [List.take_succ_eq_append_getElem within, List.foldl_append]
  rfl

theorem foldl_invariant {perform : State → Label → State} {Invariant : State → Prop}
    {Proper : State → Label → Prop} {initial : State} (initially : Invariant initial)
    (preserved : ∀ state label, Invariant state → Proper state label →
      Invariant (perform state label)) (labels : List Label)
    (proper : ∀ (count : Nat) (within : count < labels.length),
      Proper ((labels.take count).foldl perform initial) labels[count]) :
    ∀ count ≤ labels.length, Invariant ((labels.take count).foldl perform initial) := by
  intro count
  induction count with
  | zero =>
      intro _
      exact initially
  | succ count ih =>
      intro within
      rw [foldl_take_succ perform initial labels within]
      exact preserved _ _ (ih (Nat.le_of_lt within)) (proper count within)

theorem foldl_invariant_iff {perform : State → Label → State} {Invariant : State → Prop}
    {Proper : State → Label → Prop} {initial : State} (initially : Invariant initial)
    (exactly : ∀ state label, Invariant state →
      (Invariant (perform state label) ↔ Proper state label)) (labels : List Label) :
    (∀ count ≤ labels.length, Invariant ((labels.take count).foldl perform initial)) ↔
      ∀ (count : Nat) (within : count < labels.length),
        Proper ((labels.take count).foldl perform initial) labels[count] := by
  constructor
  · intro always count within
    apply (exactly _ _ (always count (Nat.le_of_lt within))).mp
    rw [← foldl_take_succ perform initial labels within]
    exact always (count + 1) within
  · exact foldl_invariant initially (fun state label holds proper =>
      (exactly state label holds).mpr proper) labels

theorem Run.follow (machine : Machine State Label) (perform : State → Label → Option State)
    (allowed : ∀ state label next, perform state label = some next → machine.step state label next)
    (more : List Label) {labels : List Label} {state final : State} (run : Run machine labels state)
    (followed : follow perform state more = some final) : Run machine (labels ++ more) final := by
  induction more generalizing labels state with
  | nil =>
      cases followed
      simpa using run
  | cons label more ih =>
      obtain ⟨next, performed, followed⟩ := Option.bind_eq_some_iff.mp followed
      simpa using ih (run.snoc (allowed _ _ _ performed)) followed

/-- Every concrete step is matched by the abstract step with the observed label,
or, where nothing is observed, leaves the abstract state as it is. -/
structure Simulation (concrete : Machine State Label)
    (abstract : Machine AbstractState AbstractLabel) (observe : Label → Option AbstractLabel)
    (Related : State → AbstractState → Prop) : Prop where
  initially : ∀ state, concrete.initial state →
    ∃ model, abstract.initial model ∧ Related state model
  matched : ∀ state model label next, Related state model → concrete.step state label next →
    match observe label with
    | none => Related next model
    | some seen => ∃ nextModel, abstract.step model seen nextModel ∧ Related next nextModel

theorem Simulation.run {concrete : Machine State Label}
    {abstract : Machine AbstractState AbstractLabel} {observe : Label → Option AbstractLabel}
    {Related : State → AbstractState → Prop}
    (simulation : Simulation concrete abstract observe Related)
    {labels : List Label} {state : State} (run : Run concrete labels state) :
    ∃ model, Run abstract (labels.filterMap observe) model ∧ Related state model := by
  induction run with
  | start start =>
      obtain ⟨model, begins, related⟩ := simulation.initially _ start
      exact ⟨model, .start begins, related⟩
  | @snoc labels state prior label next move ih =>
      obtain ⟨model, before, related⟩ := ih
      have answer := simulation.matched state model label next related move
      cases seen : observe label with
      | none =>
          rw [seen] at answer
          exact ⟨model, by simpa [seen] using before, answer⟩
      | some observed =>
          rw [seen] at answer
          obtain ⟨nextModel, abstractMove, nextRelated⟩ := answer
          refine ⟨nextModel, ?_, nextRelated⟩
          simpa [seen] using before.snoc abstractMove

end Machine
end Xineliboutput.Foundation

/-!
# Lists read as histories

`EachAfter Fits items` says that every item fits what happened before it. It is
built up at the end of the list, where runs grow.
-/

namespace Xineliboutput.Foundation

set_option autoImplicit false

variable {Item : Type*}

def EachAfter (Fits : List Item → Item → Prop) (items : List Item) : Prop :=
  ∀ place (bound : place < items.length), Fits (items.take place) items[place]

instance (Fits : List Item → Item → Prop) [∀ before, DecidablePred (Fits before)]
    (items : List Item) : Decidable (EachAfter Fits items) :=
  inferInstanceAs (Decidable (∀ place (bound : place < items.length),
    Fits (items.take place) items[place]))

theorem each_after_nil (Fits : List Item → Item → Prop) : EachAfter Fits [] := by
  intro place bound
  exact absurd bound (Nat.not_lt_zero place)

theorem each_after_split {Fits : List Item → Item → Prop} {before after : List Item} {item : Item}
    (each : EachAfter Fits (before ++ item :: after)) : Fits before item := by
  have fits := each before.length (by simp)
  simpa using fits

theorem each_after_snoc {Fits : List Item → Item → Prop} {items : List Item} {last : Item} :
    EachAfter Fits (items ++ [last]) ↔ EachAfter Fits items ∧ Fits items last := by
  constructor
  · intro each
    refine ⟨?_, each_after_split each⟩
    intro place bound
    have fits := each place (by simp; omega)
    rwa [List.take_append_of_le_length (Nat.le_of_lt bound),
      List.getElem_append_left bound] at fits
  · rintro ⟨earlier, fits⟩ place bound
    rcases Nat.lt_or_ge place items.length with inside | atEnd
    · rw [List.take_append_of_le_length (Nat.le_of_lt inside), List.getElem_append_left inside]
      exact earlier place inside
    · have last_place : place = items.length := by
        simp only [List.length_append, List.length_singleton] at bound
        omega
      subst last_place
      simpa using fits

end Xineliboutput.Foundation
