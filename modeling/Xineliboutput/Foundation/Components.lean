import Mathlib.Data.List.Forall2
import Xineliboutput.Foundation.Machine

/-!
# Components of a machine

An operation on a system is at most one request to each of its components. A component that
is only reached by its own requests does what it would do alone, whatever happens between them.
-/

namespace Xineliboutput.Foundation.Machine

set_option autoImplicit false

variable {State Operation Effect : Type*}

variable {Part Request Output Seen : Type*}

variable {perform : State → Operation → Option (State × Effect)}
  {part : Part → Request → Option (Part × List Output)} {Match : Output → Seen → Prop}
  {Invariant : State → Prop} {Proper : State → Operation → Prop} {view : State → Part}
  {request : Operation → Option Request} {seen : Effect → List Seen}

end Xineliboutput.Foundation.Machine
