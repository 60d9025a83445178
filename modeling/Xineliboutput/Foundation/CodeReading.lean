import Mathlib

/-!
# Parsers and what they read

A parser is described by the codes that it reads, whatever follows them. A parser that has an
answer for every input is total.
-/

namespace Xineliboutput.Foundation

set_option autoImplicit false

variable {State Symbol Item Result : Type} {Ahead : State → List Symbol → Prop}
  {Holds : State → Prop}

/-- The parser reads a code: it returns the item, and what followed is ahead. -/
def Reads (Ahead : State → List Symbol → Prop) (parser : StateT State Option Item)
    (code : List Symbol) (item : Item) : Prop :=
  ∀ state rest, Ahead state (code ++ rest) →
    ∃ next, parser.run state = some (item, next) ∧ Ahead next rest

def Total (Holds : State → Prop) (parser : StateT State Option Item) : Prop :=
  ∀ state, Holds state → ∃ item next, parser.run state = some (item, next) ∧ Holds next

theorem run_bind_of {parser : StateT State Option Item}
    {continue' : Item → StateT State Option Result} {state next : State} {item : Item}
    (ran : parser.run state = some (item, next)) :
    (parser >>= continue').run state = (continue' item).run next := by
  rw [StateT.run_bind, ran]
  rfl

namespace Reads

variable {parser : StateT State Option Item} {continue' : Item → StateT State Option Result}
  {code more : List Symbol} {item : Item} {result : Result}

theorem pure (item : Item) : Reads Ahead (Pure.pure item) [] item :=
  fun state _ ahead => ⟨state, rfl, ahead⟩

theorem bind (first : Reads Ahead parser code item)
    (second : Reads Ahead (continue' item) more result) :
    Reads Ahead (parser >>= continue') (code ++ more) result := by
  intro state rest ahead
  rw [List.append_assoc] at ahead
  obtain ⟨middle, ran, ahead⟩ := first state (more ++ rest) ahead
  obtain ⟨last, others, ahead⟩ := second middle rest ahead
  exact ⟨last, (run_bind_of ran).trans others, ahead⟩

theorem cons {codes : List (List Symbol)} (first : Reads Ahead parser code item)
    (second : Reads Ahead (continue' item) codes.flatten result) :
    Reads Ahead (parser >>= continue') (code :: codes).flatten result := by
  rw [List.flatten_cons]
  exact first.bind second

theorem ends (first : Reads Ahead parser code item)
    (second : Reads Ahead (continue' item) [] result) :
    Reads Ahead (parser >>= continue') [code].flatten result :=
  first.cons second

theorem single (reads : Reads Ahead parser code item) : Reads Ahead parser [code].flatten item := by
  rw [List.flatten_singleton]
  exact reads

end Reads

namespace Total

variable {parser other : StateT State Option Item} {continue' : Item → StateT State Option Result}

theorem pure (item : Item) : Total Holds (Pure.pure item) :=
  fun state holds => ⟨item, state, rfl, holds⟩

theorem bind (first : Total Holds parser) (second : ∀ item, Total Holds (continue' item)) :
    Total Holds (parser >>= continue') := by
  intro state holds
  obtain ⟨item, middle, ran, holds⟩ := first state holds
  obtain ⟨result, last, others, holds⟩ := second item middle holds
  exact ⟨result, last, (run_bind_of ran).trans others, holds⟩

theorem ite {condition : Prop} [Decidable condition] (yes : Total Holds parser)
    (no : Total Holds other) : Total Holds (if condition then parser else other) := by
  split
  · exact yes
  · exact no

end Total
end Xineliboutput.Foundation
