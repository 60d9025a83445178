import Mathlib
import Xineliboutput.Foundation.Block

/-!
# Post plugins

`post_element_t` and the arrays of `post_plugins_t` (`post.h`, `post.c`). An array has cells that
hold pointers to elements, and the number of those in use; a null pointer has no cells. A call is
`none` where it reads or writes outside of an array or follows a null pointer.
-/

namespace Xineliboutput.Post

set_option autoImplicit false

/-- `0 - disabled, 1 - enabled, 2 - can't disable` -/
inductive PostEnable where
  | disabled
  | enabled
  | fixed
  deriving DecidableEq

/-- `post` is the address of the plugin. -/
structure PostElement where
  post : Nat
  name : String
  enable : PostEnable
  deriving DecidableEq

abbrev PostCells := List (Option PostElement)

structure PostArray where
  cells : PostCells
  num : Nat
  deriving DecidableEq

structure PostPlugins where
  postVideoElements : PostArray
  postPipElements : PostArray
  postAudioElements : PostArray
  postVisElements : PostArray
  postVideoEnable : Int
  postPipEnable : Int
  postAudioEnable : Int
  postVisEnable : Int
  deriving DecidableEq

def PostArray.holding (elements : List PostElement) (spare : PostCells) : PostArray :=
  ⟨elements.map some ++ spare, elements.length⟩

def nullArray : PostArray := ⟨[], 0⟩

def PostElement.IsEnabled (element : PostElement) : Prop := element.enable ≠ .disabled

instance (element : PostElement) : Decidable element.IsEnabled :=
  inferInstanceAs (Decidable (element.enable ≠ .disabled))

/-- What `post_elements[i]` points to. -/
def elementAt (cells : PostCells) (i : Nat) : Option PostElement := cells[i]?.join

/-- `post_elements[i] = cell` -/
def storeCell (cells : PostCells) (i : Nat) (cell : Option PostElement) : Option PostCells :=
  if i < cells.length then some (cells.set i cell) else none

section Cells

variable {before after : PostCells} {cell new : Option PostElement} {element : PostElement}

theorem element_at_front : elementAt (before ++ some element :: after) before.length =
    some element := by
  rw [elementAt, List.getElem?_append_right (Nat.le_refl _), Nat.sub_self]
  rfl

theorem store_front : storeCell (before ++ cell :: after) before.length new =
    some (before ++ new :: after) :=
  Foundation.checked_set_front before after cell new

end Cells
end Xineliboutput.Post
