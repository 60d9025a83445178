import Mathlib.Data.List.Basic

/-!
# Messages in a stream of bytes

A receiver takes a stream byte by byte. Where every message that is sent from an idle receiver
leaves it idle and is handled once, whatever part of a stream of messages has arrived, the
messages handled are the first ones of those sent.
-/

namespace Xineliboutput.Foundation

set_option autoImplicit false

structure StreamReceiver (State Byte Handled : Type*) where
  feed : State → Byte → State
  handled : State → List Handled

namespace StreamReceiver

variable {State Byte Handled Message : Type*}

def feedAll (receiver : StreamReceiver State Byte Handled) (state : State) (bytes : List Byte) :
    State :=
  bytes.foldl receiver.feed state

theorem feed_all_append (receiver : StreamReceiver State Byte Handled) (state : State)
    (first second : List Byte) :
    receiver.feedAll state (first ++ second) =
      receiver.feedAll (receiver.feedAll state first) second :=
  List.foldl_append

/-- A coding of messages that a receiver understands. -/
structure Understands (receiver : StreamReceiver State Byte Handled) (Idle : State → Prop)
    (WellFormed : Message → Prop) (encode : Message → List Byte) (meaning : Message → Handled) :
    Prop where
  grows : ∀ state byte, receiver.handled state <+: receiver.handled (receiver.feed state byte)
  whole : ∀ state message, Idle state → WellFormed message →
    Idle (receiver.feedAll state (encode message)) ∧
      receiver.handled (receiver.feedAll state (encode message)) =
        receiver.handled state ++ [meaning message]

namespace Understands

variable {receiver : StreamReceiver State Byte Handled} {Idle : State → Prop}
  {WellFormed : Message → Prop} {encode : Message → List Byte} {meaning : Message → Handled}

theorem grows_all (understands : receiver.Understands Idle WellFormed encode meaning)
    (state : State) (bytes : List Byte) :
    receiver.handled state <+: receiver.handled (receiver.feedAll state bytes) := by
  induction bytes generalizing state with
  | nil => exact List.prefix_refl _
  | cons byte bytes ih => exact (understands.grows state byte).trans (ih (receiver.feed state byte))

theorem all (understands : receiver.Understands Idle WellFormed encode meaning) {state : State}
    (idle : Idle state) (messages : List Message)
    (wellFormed : ∀ message ∈ messages, WellFormed message) :
    Idle (receiver.feedAll state (messages.flatMap encode)) ∧
      receiver.handled (receiver.feedAll state (messages.flatMap encode)) =
        receiver.handled state ++ messages.map meaning := by
  induction messages generalizing state with
  | nil => exact ⟨idle, (List.append_nil _).symm⟩
  | cons message messages ih =>
      obtain ⟨still, first⟩ := understands.whole state message idle
        (wellFormed message List.mem_cons_self)
      obtain ⟨finally', rest⟩ := ih still fun later member =>
        wellFormed later (List.mem_cons_of_mem _ member)
      rw [List.flatMap_cons, feed_all_append]
      refine ⟨finally', ?_⟩
      rw [rest, first, List.append_assoc]
      rfl

theorem arrived (understands : receiver.Understands Idle WellFormed encode meaning)
    {state : State} (idle : Idle state) (messages : List Message)
    (wellFormed : ∀ message ∈ messages, WellFormed message) {bytes : List Byte}
    (part : bytes <+: messages.flatMap encode) :
    receiver.handled (receiver.feedAll state bytes) <+:
      receiver.handled state ++ messages.map meaning := by
  obtain ⟨rest, whole⟩ := part
  have later := understands.grows_all (receiver.feedAll state bytes) rest
  rw [← feed_all_append, whole, (understands.all idle messages wellFormed).2] at later
  exact later

end Understands
end StreamReceiver
end Xineliboutput.Foundation
