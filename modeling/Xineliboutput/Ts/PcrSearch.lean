import Xineliboutput.Foundation.ByteOrder
import Xineliboutput.Ts.TsPacket

/-!
# Clock references

`ts_get_pcr_1` and `ts_get_pcr_n` of `ts.c`. The flag and the clock are read where they stand
in a long adaptation field, also when the field is shorter.
-/

namespace Xineliboutput.Ts

open Xineliboutput.Foundation

set_option autoImplicit false

namespace TsPacket

variable (pkt : TsPacket)

/-- `pkt[5] & 0x10` -/
def pcrBit : Bool := pkt.cell 5 &&& 0x10 != 0

/-- The value that `ts_get_pcr_1` composes. -/
def pcrBytes : Nat :=
  (pkt.cell 6).toNat <<< 25 + (pkt.cell 7).toNat <<< 17 + (pkt.cell 8).toNat <<< 9 +
    (pkt.cell 9).toNat <<< 1 + (pkt.cell 10 &&& 0x80).toNat >>> 7

/-- `ts_get_pcr_1`, with the value stored where it returns 1. -/
def tsGetPcr1 : Option Nat :=
  if pkt.adaptFieldExists = false then none
  else if pkt.hasError then none
  else if pkt.pcrBit = false then none
  else some pkt.pcrBytes

/-! ## MPEG-2 systems -/

/-- The packet carries a PCR: its adaptation field has room for the flags and the PCR. -/
def CarriesPcr : Prop :=
  pkt.hasError = false ∧ pkt.adaptFieldExists = true ∧ 7 ≤ (pkt.cell 4).toNat ∧ pkt.pcrBit = true

instance : Decidable pkt.CarriesPcr := inferInstanceAs (Decidable (_ ∧ _ ∧ _ ∧ _))

/-- `program_clock_reference_base`: the first 33 bits of the field. -/
def pcrBase : Nat :=
  bigEndianValue [pkt.cell 6, pkt.cell 7, pkt.cell 8, pkt.cell 9, pkt.cell 10] / 2 ^ 7

end TsPacket

/-- `ts_get_pcr_n`: the search begins at the last packet. -/
def tsGetPcrN (pkts : List TsPacket) : Option Nat := pkts.reverse.findSome? TsPacket.tsGetPcr1

def Supplies (pkts : List TsPacket) (pkt : TsPacket) : Prop :=
  ∃ before after, pkts = before ++ pkt :: after ∧ pkt.tsGetPcr1.isSome = true ∧
    ∀ later ∈ after, later.tsGetPcr1 = none

def LastPcr (pkts : List TsPacket) (pkt : TsPacket) : Prop :=
  ∃ before after, pkts = before ++ pkt :: after ∧ pkt.CarriesPcr ∧
    ∀ later ∈ after, ¬later.CarriesPcr

/-- The PCR of a chunk is found as MPEG-2 systems defines it. -/
structure PcrExact (pkts : List TsPacket) : Prop where
  found : (tsGetPcrN pkts).isSome = true ↔ ∃ pkt ∈ pkts, pkt.CarriesPcr
  last : ∀ pcr, tsGetPcrN pkts = some pcr → ∃ pkt, LastPcr pkts pkt ∧ pcr = pkt.pcrBase
  carried : ∀ pkt, Supplies pkts pkt → 7 ≤ (pkt.cell 4).toNat

/-- A packet with an adaptation field and no error, whose byte 5 has the bit of the PCR flag. -/
def TsPacket.SeemsPcr (pkt : TsPacket) : Prop :=
  pkt.adaptFieldExists = true ∧ pkt.hasError = false ∧ pkt.pcrBit = true

/-- The last packet that seems to have a PCR has one. -/
def LastSeemingLong (pkts : List TsPacket) : Prop :=
  ∀ before pkt after, pkts = before ++ pkt :: after → pkt.SeemsPcr →
    (∀ later ∈ after, ¬later.SeemsPcr) → 7 ≤ (pkt.cell 4).toNat

/-! ## One packet -/

namespace TsPacket

variable {pkt : TsPacket}

theorem pcr_bytes_base : pkt.pcrBytes = pkt.pcrBase := by
  have top : (pkt.cell 10 &&& 0x80).toNat >>> 7 = (pkt.cell 10).toNat / 2 ^ 7 := by
    have bounded := (pkt.cell 10).toNat_lt
    rw [UInt8.toNat_and, Nat.shiftRight_and_distrib, Nat.shiftRight_eq_div_pow]
    change _ &&& 1 = _
    rw [Nat.and_one_is_mod]
    omega
  unfold pcrBytes pcrBase
  rw [top]
  simp only [bigEndianValue, List.reverse_cons, List.reverse_nil, List.nil_append,
    List.cons_append, littleEndianValue, Nat.shiftLeft_eq]
  omega

theorem get_pcr_some (seems : pkt.SeemsPcr) : pkt.tsGetPcr1 = some pkt.pcrBase := by
  obtain ⟨exists', sound, bit⟩ := seems
  rw [tsGetPcr1, if_neg (by rw [exists']; decide), if_neg (by rw [sound]; decide),
    if_neg (by rw [bit]; decide), pcr_bytes_base]

theorem get_pcr_none_iff : pkt.tsGetPcr1 = none ↔ ¬pkt.SeemsPcr := by
  constructor
  · intro nothing seems
    rw [get_pcr_some seems] at nothing
    cases nothing
  · intro other
    unfold tsGetPcr1
    split
    · rfl
    · split
      · rfl
      · split
        · rfl
        · next exists' sound bit =>
            exact absurd ⟨Bool.not_eq_false _ ▸ exists', Bool.not_eq_true _ ▸ sound,
              Bool.not_eq_false _ ▸ bit⟩ other

theorem get_pcr_is_some_iff : pkt.tsGetPcr1.isSome = true ↔ pkt.SeemsPcr := by
  rw [Option.isSome_iff_ne_none, ne_eq, get_pcr_none_iff, not_not]

theorem carries_seems (carries : pkt.CarriesPcr) : pkt.SeemsPcr :=
  ⟨carries.2.1, carries.1, carries.2.2.2⟩

theorem seems_carries (seems : pkt.SeemsPcr) (long : 7 ≤ (pkt.cell 4).toNat) : pkt.CarriesPcr :=
  ⟨seems.2.1, seems.1, long, seems.2.2⟩

end TsPacket

/-! ## The search -/

theorem get_pcr_n_none_iff (pkts : List TsPacket) :
    tsGetPcrN pkts = none ↔ ∀ pkt ∈ pkts, ¬pkt.SeemsPcr := by
  rw [tsGetPcrN, List.findSome?_eq_none_iff]
  simp only [List.mem_reverse, TsPacket.get_pcr_none_iff]

theorem get_pcr_n_some {pkts : List TsPacket} {pcr : Nat} (found : tsGetPcrN pkts = some pcr) :
    ∃ before pkt after, pkts = before ++ pkt :: after ∧ pkt.SeemsPcr ∧ pcr = pkt.pcrBase ∧
      ∀ later ∈ after, ¬later.SeemsPcr := by
  obtain ⟨after, pkt, before, reversed, value, passed⟩ := List.findSome?_eq_some_iff.mp found
  have seems : pkt.SeemsPcr := TsPacket.get_pcr_is_some_iff.mp (by rw [value]; rfl)
  refine ⟨before.reverse, pkt, after.reverse, ?_, seems, ?_, ?_⟩
  · rw [← List.reverse_reverse pkts, reversed]
    simp
  · rw [TsPacket.get_pcr_some seems] at value
    exact (Option.some.inj value).symm
  · intro later member
    exact TsPacket.get_pcr_none_iff.mp (passed later (List.mem_reverse.mp member))

theorem LastSeemingLong.carries {pkts before after : List TsPacket} {pkt : TsPacket}
    (long : LastSeemingLong pkts) (split : pkts = before ++ pkt :: after) (seems : pkt.SeemsPcr)
    (last : ∀ later ∈ after, ¬later.SeemsPcr) : LastPcr pkts pkt := by
  refine ⟨before, after, split, TsPacket.seems_carries seems (long _ _ _ split seems last), ?_⟩
  intro later member carries
  exact last later member (TsPacket.carries_seems carries)

/-- The length of the adaptation field is not looked at. -/
theorem pcr_exact_iff (pkts : List TsPacket) : PcrExact pkts ↔ LastSeemingLong pkts := by
  constructor
  · intro exactly before pkt after split seems last
    apply exactly.carried pkt
    refine ⟨before, after, split, TsPacket.get_pcr_is_some_iff.mpr seems, ?_⟩
    intro later member
    exact TsPacket.get_pcr_none_iff.mpr (last later member)
  · intro long
    have last : ∀ pcr, tsGetPcrN pkts = some pcr →
        ∃ pkt, LastPcr pkts pkt ∧ pcr = pkt.pcrBase := by
      intro pcr found
      obtain ⟨before, pkt, after, split, seems, value, none⟩ := get_pcr_n_some found
      exact ⟨pkt, long.carries split seems none, value⟩
    constructor
    · constructor
      · intro found
        obtain ⟨pcr, value⟩ := Option.isSome_iff_exists.mp found
        obtain ⟨pkt, ⟨before, after, rfl, carries, _⟩, _⟩ := last pcr value
        exact ⟨pkt, by simp, carries⟩
      · intro some
        obtain ⟨pkt, member, carries⟩ := some
        by_contra missing
        have nothing := (get_pcr_n_none_iff pkts).mp (Option.not_isSome_iff_eq_none.mp missing)
        exact nothing pkt member (TsPacket.carries_seems carries)
    · exact last
    · intro pkt supplies
      obtain ⟨before, after, split, value, none⟩ := supplies
      exact long before pkt after split (TsPacket.get_pcr_is_some_iff.mp value)
        fun later member => TsPacket.get_pcr_none_iff.mp (none later member)

/-- One stuffing byte before a payload whose first bytes look like flags and a clock. -/
def stuffedPacket : TsPacket :=
  .startingWith [0x47, 0x01, 0x00, 0x30, 0x00, 0x10, 0x12, 0x34, 0x56, 0x78, 0x80] 0xff

theorem stuffing_supplies_pcr :
    tsGetPcrN [stuffedPacket] = some 0x2468acf1 ∧ (stuffedPacket.cell 4).toNat = 0 ∧
      ¬PcrExact [stuffedPacket] := by
  have value : tsGetPcrN [stuffedPacket] = some 0x2468acf1 := by decide
  have short : (stuffedPacket.cell 4).toNat = 0 := by decide
  refine ⟨value, short, ?_⟩
  intro exactly
  obtain ⟨pkt, member, carries⟩ := exactly.found.mp (by rw [value]; rfl)
  obtain rfl := List.mem_singleton.mp member
  revert carries
  decide

end Xineliboutput.Ts
