import Xineliboutput.Foundation.Block
import Xineliboutput.Osd.WindowHandles
import Mathlib.Data.List.Nodup
import Mathlib.Data.List.TakeWhile

/-!
# The account of window handles

The bitmap has the bits of the handles that are listed in the arrays of the objects and
no others, and no handle is listed twice. An allocation of no windows takes the first
handle if that is free and lists it nowhere; everything else keeps the account.
-/

namespace Xineliboutput.Osd

open Xineliboutput.Foundation

set_option autoImplicit false

/-! ## Bits -/

theorem handle_bit_get (index place : Nat) (inside : place < 64) :
    (handleBit index).getLsbD place = decide (place = index) := by
  unfold handleBit
  by_cases same : place = index
  · subst same
    simp [inside]
  · simp only [BitVec.getLsbD_shiftLeft, BitVec.getLsbD_one, same, decide_false]
    by_cases below : place < index
    · simp [below]
    · have positive : place - index ≠ 0 := by omega
      simp [positive]

theorem bit_free_iff (bitmap : BitVec 64) {index : Nat} (inside : index < 64) :
    bitmap &&& handleBit index = 0 ↔ bitmap.getLsbD index = false := by
  constructor
  · intro free
    have bit := congrArg (fun bits => bits.getLsbD index) free
    simpa [handle_bit_get index index inside] using bit
  · intro free
    apply BitVec.eq_of_getLsbD_eq
    intro place within
    rw [BitVec.getLsbD_and, handle_bit_get index place within]
    by_cases same : place = index
    · subst same
      simp [free]
    · simp [same]

theorem take_bit (bitmap : BitVec 64) (index : Nat) {place : Nat} (inside : place < 64) :
    (bitmap ||| handleBit index).getLsbD place = (bitmap.getLsbD place || decide (place = index)) := by
  rw [BitVec.getLsbD_or, handle_bit_get index place inside]

theorem free_bits (handles : List Int) (bitmap : BitVec 64) {place : Nat} (inside : place < 64)
    (natural : ∀ handle ∈ handles, 0 ≤ handle) :
    (handles.foldl (fun bitmap handle => bitmap &&& ~~~handleBit handle.toNat) bitmap).getLsbD place =
      (bitmap.getLsbD place && decide ((place : Int) ∉ handles)) := by
  induction handles generalizing bitmap with
  | nil => simp
  | cons handle handles ih =>
      rw [List.foldl_cons, ih _ fun other member => natural other (List.mem_cons_of_mem _ member),
        BitVec.getLsbD_and, BitVec.getLsbD_not, handle_bit_get _ _ inside]
      have positive := natural handle List.mem_cons_self
      have same : place = handle.toNat ↔ (place : Int) = handle := by omega
      by_cases equal : (place : Int) = handle
      · subst equal
        simp
      · simp [inside, mt same.mp equal, equal]

theorem listed_natural (array : List Int) : ∀ handle ∈ listed array, 0 ≤ handle := by
  intro handle member
  have holds := List.mem_takeWhile_imp (p := fun handle : Int => decide (0 ≤ handle)) member
  exact of_decide_eq_true holds

theorem free_window_handles_get (bitmap : BitVec 64) (array : List Int) {place : Nat}
    (inside : place < 64) :
    (freeWindowHandles bitmap (some array)).getLsbD place =
      (bitmap.getLsbD place && decide ((place : Int) ∉ listed array)) :=
  free_bits _ _ inside (listed_natural array)

/-! ## Allocation -/

def handleList (taken : List Nat) : List Int := taken.map fun (index : Nat) => (index : Int)

theorem listed_terminated (taken : List Nat) (rest : List Int) :
    listed (handleList taken ++ -1 :: rest) = handleList taken := by
  induction taken with
  | nil => rfl
  | cons index taken ih =>
      simp only [listed, handleList] at ih
      simp [listed, handleList, ih]

theorem mem_handle_list {taken : List Nat} {place : Nat} :
    (place : Int) ∈ handleList taken ↔ place ∈ taken := by
  unfold handleList
  rw [List.mem_map]
  constructor
  · rintro ⟨index, member, same⟩
    exact Int.ofNat.inj same ▸ member
  · intro member
    exact ⟨place, member, rfl⟩

theorem of_mem_handle_list {taken : List Nat} {handle : Int} (member : handle ∈ handleList taken) :
    ∃ index ∈ taken, handle = (index : Int) := by
  obtain ⟨index, present, same⟩ := List.mem_map.mp member
  exact ⟨index, present, same.symm⟩

theorem take_free {alloc : Alloc} {index : Nat} {taken : List Nat} {cell : Int} {rest : List Int}
    (free : alloc.bitmap &&& handleBit index = 0)
    (written : alloc.array = handleList taken ++ cell :: rest) (count : alloc.wnd = taken.length) :
    alloc.take index = ⟨alloc.bitmap ||| handleBit index,
      handleList (taken ++ [index]) ++ rest, (taken ++ [index]).length⟩ := by
  have grown : handleList (taken ++ [index]) = handleList taken ++ [(index : Int)] := by
    simp [handleList]
  have place : (handleList taken).length = taken.length := List.length_map _
  unfold Alloc.take
  rw [if_pos free, written, count, ← place, set_front, grown]
  simp [place]

/-- What the loop of an allocation does before it has all windows: it takes some of the
free indices, in order, and stops when there are enough. -/
theorem alloc_loop_takes {numWindows : Nat} (indices : List Nat) (alloc : Alloc)
    (taken : List Nat) (rest : List Int) (below : ∀ index ∈ indices, index < 64)
    (written : alloc.array = handleList taken ++ rest) (count : alloc.wnd = taken.length)
    (room : taken.length + rest.length = numWindows + 1) (short : taken.length < numWindows) :
    ∃ more, more.Sublist indices ∧ (∀ index ∈ more, alloc.bitmap.getLsbD index = false) ∧
      (∀ place < 64, (allocLoop numWindows indices alloc).bitmap.getLsbD place =
        (alloc.bitmap.getLsbD place || decide (place ∈ more))) ∧
      (allocLoop numWindows indices alloc).array =
        handleList (taken ++ more) ++ rest.drop more.length ∧
      (allocLoop numWindows indices alloc).wnd = (taken ++ more).length ∧
      (taken ++ more).length ≤ numWindows := by
  induction indices generalizing alloc taken rest with
  | nil =>
      refine ⟨[], List.Sublist.refl _, by simp, ?_, ?_, ?_, ?_⟩
      · intro place _
        simp [allocLoop]
      · simpa [allocLoop] using written
      · simpa [allocLoop] using count
      · simpa using Nat.le_of_lt short
  | cons index indices ih =>
      have inside := below index List.mem_cons_self
      have later := fun other member => below other (List.mem_cons_of_mem index member)
      by_cases free : alloc.bitmap &&& handleBit index = 0
      · cases rest with
        | nil =>
            simp only [List.length_nil] at room
            omega
        | cons cell rest =>
            have took := take_free free written count
            have unset := (bit_free_iff alloc.bitmap inside).mp free
            by_cases enough : numWindows ≤ (taken ++ [index]).length
            · have last : allocLoop numWindows (index :: indices) alloc = alloc.take index := by
                rw [allocLoop, took]
                exact if_pos enough
              refine ⟨[index], by simp, by simpa using unset, ?_, ?_, ?_, ?_⟩
              · intro place within
                rw [last, took]
                simpa using take_bit alloc.bitmap index within
              · rw [last, took]
                rfl
              · rw [last, took]
              · rw [List.length_append]
                exact short
            · have onward : allocLoop numWindows (index :: indices) alloc =
                  allocLoop numWindows indices (alloc.take index) := by
                rw [allocLoop, took]
                exact if_neg enough
              have least : (taken ++ [index]).length + rest.length = numWindows + 1 := by
                simp only [List.length_append, List.length_cons, List.length_nil] at room ⊢
                omega
              obtain ⟨more, part, others, bits, array, wnd, bound⟩ :=
                ih (alloc.take index) (taken ++ [index]) rest later (by rw [took]) (by rw [took])
                  least (Nat.lt_of_not_le enough)
              have joined : taken ++ [index] ++ more = taken ++ index :: more := by simp
              rw [joined] at array wnd bound
              rw [onward]
              refine ⟨index :: more, part.cons_cons index, ?_, ?_, array, wnd, bound⟩
              · intro other member
                rcases List.mem_cons.mp member with rfl | member
                · exact unset
                · have both := others other member
                  have within := later other (part.subset member)
                  rw [took, take_bit _ _ within] at both
                  exact (Bool.or_eq_false_iff.mp both).1
              · intro place within
                rw [bits place within, took, take_bit _ _ within, Bool.or_assoc]
                congr 1
                by_cases same : place = index <;> simp [same]
      · have kept : alloc.take index = alloc := if_neg free
        have going : ¬ numWindows ≤ alloc.wnd := by omega
        have onward : allocLoop numWindows (index :: indices) alloc =
            allocLoop numWindows indices alloc := by
          rw [allocLoop, kept, if_neg going]
        obtain ⟨more, part, unset, bits, array, wnd, enough⟩ :=
          ih alloc taken rest later written count room short
        rw [onward]
        exact ⟨more, part.trans (List.sublist_cons_self _ _), unset, bits, array, wnd, enough⟩

theorem pad_array_keeps (front tail : List Int) {wnd : Nat} (count : Nat)
    (behind : front.length ≤ wnd) :
    ∃ rest, padArray (front ++ tail) wnd count = front ++ rest := by
  induction count generalizing tail wnd with
  | zero => exact ⟨tail, rfl⟩
  | succ count ih =>
      rw [padArray, List.set_append_right _ _ behind]
      exact ih _ (Nat.le_succ_of_le behind)

theorem pad_array_ends (front tail : List Int) {count : Nat} (some_missing : 0 < count)
    (room : 0 < tail.length) :
    ∃ rest, padArray (front ++ tail) front.length count = front ++ -1 :: rest := by
  cases count with
  | zero => exact absurd some_missing (Nat.lt_irrefl 0)
  | succ count =>
      cases tail with
      | nil => exact absurd room (Nat.lt_irrefl 0)
      | cons cell tail =>
          rw [padArray, set_front]
          obtain ⟨rest, kept⟩ := @pad_array_keeps (front ++ [-1]) tail (front.length + 1) count
            (by simp)
          exact ⟨rest, by simpa using kept⟩

/-- Some windows are asked for: all of them are taken, or those there are, and the array
lists what was taken. -/
theorem alloc_window_handles_spec (bitmap : BitVec 64) {numWindows : Nat} (fresh : Nat → Int)
    (positive : 0 < numWindows) :
    ∃ (taken : List Nat) (bitmap' : BitVec 64) (array : List Int) (result : Nat),
      allocWindowHandles bitmap none numWindows fresh = (bitmap', array, result) ∧
        taken.Nodup ∧ (∀ index ∈ taken, index < maxOsdObject ∧ bitmap.getLsbD index = false) ∧
        (∀ place < 64, bitmap'.getLsbD place = (bitmap.getLsbD place || decide (place ∈ taken))) ∧
        listed array = handleList taken ∧
        (result ≠ 0 → array = handleList taken ++ [-1]) := by
  have below : ∀ index ∈ List.range maxOsdObject, index < 64 := by
    intro index member
    have bound := List.mem_range.mp member
    change index < 50 at bound
    omega
  obtain ⟨taken, part, unset, bits, array, wnd, enough⟩ :=
    alloc_loop_takes (List.range maxOsdObject)
      ⟨bitmap, (List.range (numWindows + 1)).map fresh, 0⟩ [] ((List.range (numWindows + 1)).map fresh)
      below rfl rfl (by simp) positive
  rw [List.nil_append] at array wnd enough
  have nodup : taken.Nodup := part.nodup List.nodup_range
  have free : ∀ index ∈ taken, index < maxOsdObject ∧ bitmap.getLsbD index = false :=
    fun index member => ⟨List.mem_range.mp (part.subset member), unset index member⟩
  generalize allocated : allocLoop numWindows (List.range maxOsdObject)
    ⟨bitmap, (List.range (numWindows + 1)).map fresh, 0⟩ = alloc at bits array wnd
  have length : (handleList taken).length = taken.length := List.length_map _
  by_cases missing : alloc.wnd < numWindows
  · refine ⟨taken, alloc.bitmap,
      padArray (alloc.array.set numWindows (-1)) alloc.wnd (numWindows - alloc.wnd), 0, ?_, nodup,
      free, bits, ?_, fun nonzero => absurd rfl nonzero⟩
    · simp only [allocWindowHandles, freeWindowHandles, allocated, missing, if_true]
    · have behind : (handleList taken).length ≤ numWindows := by omega
      rw [array, List.set_append_right _ _ behind, wnd, ← length]
      obtain ⟨rest, ended⟩ := @pad_array_ends (handleList taken)
        ((((List.range (numWindows + 1)).map fresh).drop (handleList taken).length).set
          (numWindows - (handleList taken).length) (-1)) (numWindows - (handleList taken).length)
        (by omega) (by simp; omega)
      rw [ended, listed_terminated]
  · have whole : alloc.array.set numWindows (-1) = handleList taken ++ [-1] := by
      have all : taken.length = numWindows := by omega
      obtain ⟨cell, single⟩ := List.length_eq_one_iff.mp
        (by simp : (((List.range (numWindows + 1)).map fresh).drop numWindows).length = 1)
      rw [array, List.set_append_right _ _ (by omega), length, all, Nat.sub_self, single,
        List.set_cons_zero]
    refine ⟨taken, alloc.bitmap, alloc.array.set numWindows (-1), numWindows, ?_, nodup, free, bits,
      ?_, fun _ => whole⟩
    · simp only [allocWindowHandles, freeWindowHandles, allocated, missing, if_false]
    · rw [whole, listed_terminated]

theorem alloc_no_windows (bitmap : BitVec 64) (fresh : Nat → Int) :
    allocWindowHandles bitmap none 0 fresh =
      (if bitmap &&& handleBit 0 = 0 then bitmap ||| handleBit 0 else bitmap, [-1], 0) := by
  have first : List.range maxOsdObject = 0 :: (List.range 49).map Nat.succ :=
    List.range_succ_eq_map
  simp only [allocWindowHandles, freeWindowHandles, first, allocLoop, Nat.zero_le, if_true,
    Nat.not_lt_zero, if_false, Alloc.take]
  split <;> rfl

/-! ## The account -/

def Display.arrays (display : Display) (address : Nat) : Option (List Int) :=
  (display.objects address).bind WindowOsd.windowHandles

/-- The bitmap is the disjoint union of the handles that the arrays list, and each array is
a list of handles with its terminator. -/
structure Accounted (bitmap : BitVec 64) (arrays : Nat → Option (List Int)) : Prop where
  terminated : ∀ owner array, arrays owner = some array → array = listed array ++ [-1]
  within : ∀ owner array, arrays owner = some array → ∀ handle ∈ listed array, handle < maxOsdObject
  distinct : ∀ owner array, arrays owner = some array → (listed array).Nodup
  disjoint : ∀ owner other array array', owner ≠ other → arrays owner = some array →
    arrays other = some array' → ∀ handle ∈ listed array, handle ∉ listed array'
  exactly : ∀ place < 64, bitmap.getLsbD place = true ↔
    ∃ owner array, arrays owner = some array ∧ (place : Int) ∈ listed array

variable {bitmap : BitVec 64} {arrays : Nat → Option (List Int)}

theorem update_cases {owner other : Nat} {given : Option (List Int)} {array : List Int}
    (held : Function.update arrays owner given other = some array) :
    other = owner ∧ given = some array ∨ other ≠ owner ∧ arrays other = some array := by
  by_cases same : other = owner
  · rw [same, Function.update_self] at held
    exact Or.inl ⟨same, held⟩
  · rw [Function.update_of_ne same] at held
    exact Or.inr ⟨same, held⟩

theorem Accounted.unlisted (accounted : Accounted bitmap arrays) {index : Nat} (inside : index < 64)
    (free : bitmap.getLsbD index = false) {owner : Nat} {array : List Int}
    (held : arrays owner = some array) : (index : Int) ∉ listed array := by
  intro listing
  have bit := (accounted.exactly index inside).mpr ⟨owner, array, held, listing⟩
  rw [free] at bit
  cases bit

theorem Accounted.free (accounted : Accounted bitmap arrays) (owner : Nat) :
    Accounted (freeWindowHandles bitmap (arrays owner)) (Function.update arrays owner none) := by
  have others : ∀ other array, Function.update arrays owner none other = some array →
      other ≠ owner ∧ arrays other = some array := by
    intro other array held
    obtain ⟨-, absurd⟩ | kept := update_cases held
    · cases absurd
    · exact kept
  constructor
  · intro other array held
    exact accounted.terminated other array (others other array held).2
  · intro other array held
    exact accounted.within other array (others other array held).2
  · intro other array held
    exact accounted.distinct other array (others other array held).2
  · intro first second array array' differ held held'
    exact accounted.disjoint first second array array' differ (others first array held).2
      (others second array' held').2
  · intro place inside
    cases own : arrays owner with
    | none =>
        have unchanged : Function.update arrays owner none = arrays := by
          rw [← own]
          exact Function.update_eq_self owner arrays
        rw [unchanged]
        exact accounted.exactly place inside
    | some array =>
        rw [free_window_handles_get bitmap array inside, Bool.and_eq_true, decide_eq_true_iff,
          accounted.exactly place inside]
        constructor
        · rintro ⟨⟨other, array', held, member⟩, unlisted⟩
          have differ : other ≠ owner := by
            rintro rfl
            rw [own] at held
            cases held
            exact unlisted member
          exact ⟨other, array', by rw [Function.update_of_ne differ, held], member⟩
        · rintro ⟨other, array', held, member⟩
          obtain ⟨differ, held⟩ := others other array' held
          exact ⟨⟨other, array', held, member⟩,
            accounted.disjoint other owner array' array differ held own _ member⟩

theorem Accounted.allot (accounted : Accounted bitmap arrays) {owner : Nat} {bitmap' : BitVec 64}
    {taken : List Nat} (nothing : arrays owner = none) (nodup : taken.Nodup)
    (free : ∀ index ∈ taken, index < maxOsdObject ∧ bitmap.getLsbD index = false)
    (bits : ∀ place < 64, bitmap'.getLsbD place = (bitmap.getLsbD place || decide (place ∈ taken))) :
    Accounted bitmap' (Function.update arrays owner (some (handleList taken ++ [-1]))) := by
  have lists : listed (handleList taken ++ [-1]) = handleList taken := listed_terminated taken []
  have unused : ∀ other array, arrays other = some array → ∀ index ∈ taken,
      (index : Int) ∉ listed array := by
    intro other array held index member
    exact accounted.unlisted (Nat.lt_trans (free index member).1 (by decide)) (free index member).2 held
  constructor
  · intro other array held
    rcases update_cases held with ⟨-, ⟨⟩⟩ | ⟨-, held⟩
    · rw [lists]
    · exact accounted.terminated other array held
  · intro other array held handle member
    rcases update_cases held with ⟨-, ⟨⟩⟩ | ⟨-, held⟩
    · rw [lists] at member
      obtain ⟨index, present, rfl⟩ := of_mem_handle_list member
      exact Int.ofNat_lt.mpr (free index present).1
    · exact accounted.within other array held handle member
  · intro other array held
    rcases update_cases held with ⟨-, ⟨⟩⟩ | ⟨-, held⟩
    · rw [lists]
      exact List.Nodup.map (fun first second same => Int.ofNat.inj same) nodup
    · exact accounted.distinct other array held
  · intro first second array array' differ held held' handle member member'
    rcases update_cases held with ⟨rfl, ⟨⟩⟩ | ⟨-, kept⟩
    · rcases update_cases held' with ⟨rfl, -⟩ | ⟨-, kept'⟩
      · exact differ rfl
      · rw [lists] at member
        obtain ⟨index, present, rfl⟩ := of_mem_handle_list member
        exact unused second array' kept' index present member'
    · rcases update_cases held' with ⟨rfl, ⟨⟩⟩ | ⟨-, kept'⟩
      · rw [lists] at member'
        obtain ⟨index, present, rfl⟩ := of_mem_handle_list member'
        exact unused first array kept index present member
      · exact accounted.disjoint first second array array' differ kept kept' handle member member'
  · intro place inside
    rw [bits place inside, Bool.or_eq_true, decide_eq_true_iff, accounted.exactly place inside]
    constructor
    · rintro (⟨other, array, held, member⟩ | member)
      · have differ : other ≠ owner := by
          rintro rfl
          rw [nothing] at held
          cases held
        exact ⟨other, array, by rw [Function.update_of_ne differ, held], member⟩
      · exact ⟨owner, _, Function.update_self owner _ arrays,
          by rw [lists]; exact mem_handle_list.mpr member⟩
    · rintro ⟨other, array, held, member⟩
      rcases update_cases held with ⟨-, ⟨⟩⟩ | ⟨-, held⟩
      · rw [lists] at member
        exact Or.inr (mem_handle_list.mp member)
      · exact Or.inl ⟨other, array, held, member⟩

/-- Handles that were taken and given back at once leave the account as it was. -/
theorem Accounted.undo (accounted : Accounted bitmap arrays) {bitmap' : BitVec 64}
    {taken : List Nat} {array : List Int} (lists : listed array = handleList taken)
    (free : ∀ index ∈ taken, index < maxOsdObject ∧ bitmap.getLsbD index = false)
    (bits : ∀ place < 64, bitmap'.getLsbD place = (bitmap.getLsbD place || decide (place ∈ taken))) :
    Accounted (freeWindowHandles bitmap' (some array)) arrays := by
  obtain ⟨terminated, within, distinct, disjoint, exactly⟩ := accounted
  constructor
  · exact terminated
  · exact within
  · exact distinct
  · exact disjoint
  · intro place inside
    have same : (freeWindowHandles bitmap' (some array)).getLsbD place = bitmap.getLsbD place := by
      rw [free_window_handles_get bitmap' array inside, lists, bits place inside]
      by_cases member : place ∈ taken
      · simp [mem_handle_list, member, (free place member).2]
      · simp [mem_handle_list, member]
    rw [same]
    exact exactly place inside

theorem Accounted.not_leaked (accounted : Accounted bitmap arrays) (unset : bitmap.getLsbD 0 = false) :
    ¬Accounted (bitmap ||| handleBit 0) arrays := by
  intro leaked
  have bit : (bitmap ||| handleBit 0).getLsbD 0 = true := by
    rw [take_bit bitmap 0 (by decide)]
    simp
  have owner := (leaked.exactly 0 (by decide)).mp bit
  have before := (accounted.exactly 0 (by decide)).mpr owner
  rw [unset] at before
  cases before

/-! ## The display -/

def Display.Accounted (display : Display) : Prop :=
  Osd.Accounted display.handlesBitmap display.arrays

theorem arrays_update (objects : Nat → Option WindowOsd) (address : Nat)
    (object : Option WindowOsd) :
    (fun other => (Function.update objects address object other).bind WindowOsd.windowHandles) =
      Function.update (fun other => (objects other).bind WindowOsd.windowHandles) address
        (object.bind WindowOsd.windowHandles) := by
  funext other
  by_cases same : other = address
  · rw [same, Function.update_self, Function.update_self]
  · rw [Function.update_of_ne same, Function.update_of_ne same]

/-- Messages other than `SetAreas` do not touch the handles. -/
theorem tell_keeps {message : WindowOsd → WindowOsd × List WindowCommand}
    (kept : ∀ this, (message this).1.windowHandles = this.windowHandles) (display : Display)
    (address : Nat) :
    (display.tell address message).handlesBitmap = display.handlesBitmap ∧
      (display.tell address message).arrays = display.arrays := by
  unfold Display.tell
  cases held : display.objects address with
  | none => exact ⟨rfl, rfl⟩
  | some this =>
      refine ⟨rfl, ?_⟩
      unfold Display.arrays
      dsimp only
      rw [arrays_update, Option.bind_some, kept]
      have same : this.windowHandles =
          (fun other => (display.objects other).bind WindowOsd.windowHandles) address := by
        dsimp only
        rw [held, Option.bind_some]
      rw [same]
      exact Function.update_eq_self address _

theorem tell_all_keeps {message : WindowOsd → WindowOsd × List WindowCommand}
    (kept : ∀ this, (message this).1.windowHandles = this.windowHandles) (addresses : List Nat)
    (display : Display) :
    (display.tellAll addresses message).handlesBitmap = display.handlesBitmap ∧
      (display.tellAll addresses message).arrays = display.arrays := by
  unfold Display.tellAll
  induction addresses generalizing display with
  | nil => exact ⟨rfl, rfl⟩
  | cons address addresses ih =>
      rw [List.foldl_cons]
      obtain ⟨bitmap, arrays⟩ := tell_keeps kept display address
      rw [← bitmap, ← arrays]
      exact ih (display.tell address message)

theorem tell_all_accounted {message : WindowOsd → WindowOsd × List WindowCommand}
    (kept : ∀ this, (message this).1.windowHandles = this.windowHandles) (addresses : List Nat)
    (display : Display) :
    (display.tellAll addresses message).Accounted ↔ display.Accounted := by
  unfold Display.Accounted
  rw [(tell_all_keeps kept addresses display).1, (tell_all_keeps kept addresses display).2]

theorem create_accounted {display next : Display} {address level : Nat} {mixer : Bool}
    (accounted : display.Accounted) (created : display.createOsd address level mixer = some next) :
    next.Accounted := by
  unfold Display.createOsd at created
  cases vacant : display.objects address with
  | some _ =>
      rw [vacant] at created
      cases created
  | none =>
      rw [vacant] at created
      cases created
      have kept : ∀ this : WindowOsd,
          ((if mixer then WindowOsd.show' else WindowOsd.hide) this).1.windowHandles =
            this.windowHandles := by
        intro this
        cases mixer <;> rfl
      rw [tell_all_accounted fun _ => rfl, tell_all_accounted kept]
      unfold Display.Accounted Display.arrays
      dsimp only
      rw [arrays_update, Option.bind_some]
      have nothing : (WindowOsd.new true level).windowHandles =
          (fun other => (display.objects other).bind WindowOsd.windowHandles) address := by
        dsimp only
        rw [vacant]
        rfl
      rw [nothing, Function.update_eq_self]
      exact accounted

theorem destroy_accounted {display next : Display} {address : Nat}
    (accounted : display.Accounted) (destroyed : display.destroy address = some next) :
    next.Accounted := by
  unfold Display.destroy at destroyed
  cases held : display.objects address with
  | none =>
      rw [held] at destroyed
      cases destroyed
  | some this =>
      rw [held] at destroyed
      cases destroyed
      rw [tell_all_accounted fun _ => rfl]
      have freed := Osd.Accounted.free accounted address
      unfold Display.Accounted Display.arrays
      dsimp only
      rw [arrays_update, Option.bind_none]
      have own : display.arrays address = this.windowHandles := by
        rw [Display.arrays, held, Option.bind_some]
      rw [own] at freed
      exact freed

/-- `SetAreas` asks for windows, or the first handle belongs to another object. -/
def Display.KeepsAccount (display : Display) : Display.WindowOperation → Prop
  | .setAreas address ok numAreas _ _ _ => ok = true → numAreas = 0 →
      ∃ other array, other ≠ address ∧ display.arrays other = some array ∧ 0 ∈ listed array
  | .createOsd _ _ _ | .refreshOsd | .detachAll | .destroy _ => True

theorem Accounted.held_elsewhere {address : Nat} {handle : Nat} (inside : handle < 64)
    (freed : Accounted bitmap (Function.update arrays address none)) :
    (∃ other array, other ≠ address ∧ arrays other = some array ∧ (handle : Int) ∈ listed array) ↔
      bitmap.getLsbD handle = true := by
  rw [freed.exactly handle inside]
  constructor
  · rintro ⟨other, array, differ, listing, member⟩
    exact ⟨other, array, by rw [Function.update_of_ne differ, listing], member⟩
  · rintro ⟨other, array, listing, member⟩
    obtain ⟨-, absurd⟩ | ⟨differ, kept⟩ := update_cases listing
    · cases absurd
    · exact ⟨other, array, differ, kept, member⟩

theorem object_accounted (display : Display) (address : Nat) (object : WindowOsd)
    (bitmap : BitVec 64) (sent : List WindowCommand) :
    Display.Accounted { display with
      handlesBitmap := bitmap
      objects := Function.update display.objects address (some object)
      sent := sent } ↔
    Osd.Accounted bitmap (Function.update display.arrays address object.windowHandles) := by
  unfold Display.Accounted Display.arrays
  dsimp only
  rw [arrays_update, Option.bind_some]

theorem no_windows_accounted {address : Nat}
    (freed : Accounted bitmap (Function.update arrays address none)) :
    Accounted (if bitmap &&& handleBit 0 = 0 then bitmap ||| handleBit 0 else bitmap)
        (Function.update arrays address none) ↔
      ∃ other array, other ≠ address ∧ arrays other = some array ∧ 0 ∈ listed array := by
  have held := freed.held_elsewhere (by decide : 0 < 64)
  have unset := bit_free_iff bitmap (by decide : 0 < 64)
  simp only [Int.natCast_zero] at held
  rw [held]
  by_cases free : bitmap &&& handleBit 0 = 0
  · rw [if_pos free, unset.mp free]
    exact iff_of_false (freed.not_leaked (unset.mp free)) Bool.false_ne_true
  · rw [if_neg free]
    exact iff_of_true freed ((Bool.not_eq_false _).mp (mt unset.mpr free))

theorem set_areas_accounted {display next : Display} {address numAreas : Nat} {ok : Bool}
    {fresh : Nat → Int} {osdSpuScaling : Bool} {osdSize : Nat × Nat}
    (accounted : display.Accounted)
    (performed : display.setAreas address ok numAreas fresh osdSpuScaling osdSize = some next) :
    next.Accounted ↔
      display.KeepsAccount (.setAreas address ok numAreas fresh osdSpuScaling osdSize) := by
  unfold Display.setAreas at performed
  cases held : display.objects address with
  | none =>
      rw [held] at performed
      cases performed
  | some this =>
      rw [held] at performed
      have freed := Osd.Accounted.free accounted address
      have own : display.arrays address = this.windowHandles := by
        rw [Display.arrays, held, Option.bind_some]
      rw [own] at freed
      dsimp only at performed
      generalize freeWindowHandles display.handlesBitmap this.windowHandles = bitmap at performed freed
      unfold Display.KeepsAccount
      cases ok with
      | false =>
          rw [if_pos rfl] at performed
          cases performed
          apply iff_of_true
          · exact (object_accounted display address _ _ _).mpr freed
          · intro accepted
            cases accepted
      | true =>
          rw [if_neg Bool.true_eq_false.mp] at performed
          by_cases none_asked : numAreas = 0
          · subst none_asked
            rw [alloc_no_windows, if_pos rfl] at performed
            cases performed
            rw [object_accounted]
            have account := no_windows_accounted freed
            constructor
            · intro kept _ _
              exact account.mp kept
            · intro elsewhere
              exact account.mpr (elsewhere rfl rfl)
          · apply iff_of_true _ fun _ nothing => absurd nothing none_asked
            obtain ⟨taken, bitmap', array, result, allocated, nodup, free, bits, lists, whole⟩ :=
              alloc_window_handles_spec bitmap fresh (Nat.pos_of_ne_zero none_asked)
            rw [allocated] at performed
            dsimp only at performed
            by_cases failed : result = 0
            · rw [if_pos failed] at performed
              cases performed
              exact (object_accounted display address _ _ _).mpr (freed.undo lists free bits)
            · rw [if_neg failed] at performed
              split at performed
              · cases performed
              · cases performed
                rw [object_accounted, whole failed]
                have vacant : Function.update display.arrays address none address = none :=
                  Function.update_self address none display.arrays
                have allotted := freed.allot vacant nodup free bits
                rwa [Function.update_idem] at allotted

/-! ## Runs -/

theorem init_accounted : Display.Accounted .init := by
  constructor
  · intro _ _ held
    cases held
  · intro _ _ held
    cases held
  · intro _ _ held
    cases held
  · intro _ _ _ _ _ held
    cases held
  · intro place _
    constructor
    · intro bit
      have clear : (0 : BitVec 64).getLsbD place = false := BitVec.getLsbD_zero
      rw [show Display.init.handlesBitmap = (0 : BitVec 64) from rfl, clear] at bit
      cases bit
    · rintro ⟨_, _, held, -⟩
      cases held

theorem account_step {display next : Display} (operation : Display.WindowOperation)
    (accounted : display.Accounted) (performed : display.perform operation = some next) :
    next.Accounted ↔ display.KeepsAccount operation := by
  cases operation with
  | createOsd address level mixer =>
      exact iff_of_true (create_accounted accounted performed) trivial
  | setAreas address ok numAreas fresh osdSpuScaling osdSize =>
      exact set_areas_accounted accounted performed
  | refreshOsd =>
      cases performed
      exact iff_of_true ((tell_all_accounted (fun _ => rfl) _ _).mpr accounted) trivial
  | detachAll =>
      cases performed
      have kept : ∀ this : WindowOsd, this.detach.1.windowHandles = this.windowHandles :=
        fun _ => rfl
      have told := (tell_all_accounted kept display.osdStack display).mpr accounted
      exact iff_of_true told trivial
  | destroy address => exact iff_of_true (destroy_accounted accounted performed) trivial

/-- The handles are accounted for after every operation of the sequence. -/
def AccountedThroughout (operations : List Display.WindowOperation) : Prop :=
  ∀ count ≤ operations.length, ∀ display,
    Machine.follow Display.perform .init (operations.take count) = some display → display.Accounted

/-- The handles are accounted for throughout exactly if no object takes no windows while
the first handle is free. -/
theorem accounted_throughout_iff (operations : List Display.WindowOperation) :
    AccountedThroughout operations ↔
      ∀ (count : Nat) (within : count < operations.length) (display next : Display),
        Machine.follow Display.perform .init (operations.take count) = some display →
        display.perform operations[count] = some next →
        display.KeepsAccount operations[count] :=
  Machine.follow_invariant_iff init_accounted (fun _ operation _ => account_step operation) operations

/-- One object without areas leaves a handle behind that nobody has. -/
theorem no_areas_leak_handle :
    ¬AccountedThroughout [.createOsd 0 0 true, .setAreas 0 true 0 (fun _ => 0) false (720, 576)] := by
  intro always
  have account := (always 2 (by decide) _ rfl).exactly 0 (by decide)
  obtain ⟨owner, array, held, member⟩ := account.mp (by decide +kernel)
  cases owner with
  | zero => cases held
  | succ owner => cases held

end Xineliboutput.Osd
