import Xineliboutput.Foundation.Machine
import Xineliboutput.Server.ReplyFutures

/-!
# Calls and their replies

A call hears its reply exactly when its future is set, as long as each reply goes to the
only future with its token. Buffers of images are held by the server thread, by one future,
by one caller, or by nobody when they are freed.
-/

namespace Xineliboutput.Server

open Xineliboutput.Foundation

set_option autoImplicit false

namespace Rpc

variable {rpc next : Rpc} {id : Nat} {call : Call}

theorem set_call_calls (other : Nat) :
    (rpc.setCall id call).calls other = if other = id then some call else rpc.calls other :=
  Function.update_apply rpc.calls id (some call) other

/-! ## Steps of a call -/

theorem wait_cases {answer : Bool} (performed : rpc.waitCall id answer = some next) :
    ∃ call, rpc.calls id = some call ∧ call.phase = .waiting ∧
      next = rpc.setCall id { call with
        phase := .woken (resultOf call.kind (if answer then call.future else none)) } := by
  unfold waitCall at performed
  cases found : rpc.calls id with
  | none => simp [found] at performed
  | some call =>
      rw [found] at performed
      dsimp only at performed
      split at performed
      · rename_i waits
        cases performed
        exact ⟨call, rfl, waits.1, rfl⟩
      · cases performed

theorem remove_cases (performed : rpc.removeCall id = some next) :
    ∃ call result, rpc.calls id = some call ∧ call.phase = .woken result ∧
      next = { rpc.setCall id { call with phase := .removed result } with
        futures := rpc.futures.filter fun entry => entry.2 ≠ id } := by
  unfold removeCall at performed
  cases found : rpc.calls id with
  | none => simp [found] at performed
  | some call =>
      rw [found] at performed
      dsimp only at performed
      split at performed
      · rename_i result phase
        cases performed
        exact ⟨call, result, rfl, phase, rfl⟩
      · cases performed

theorem finish_cases (performed : rpc.finishCall id = some next) :
    ∃ call decision, rpc.calls id = some call ∧ call.phase = .removed decision ∧
      next = (rpc.setCall id { call with
        phase := .returned (finalResult call decision) }).returnBuffer id
          (finalResult call decision) := by
  unfold finishCall at performed
  cases found : rpc.calls id with
  | none => simp [found] at performed
  | some call =>
      rw [found] at performed
      dsimp only at performed
      split at performed
      · rename_i decision phase
        cases performed
        exact ⟨call, decision, rfl, phase, rfl⟩
      · cases performed

/-! ## Futures and calls -/

/-- What is known of a call, given the list of futures. -/
structure CallMatched (futures : List (Nat × Nat)) (id : Nat) (call : Call) : Prop where
  same : call.future = call.heard
  fits : ∀ value, call.future = some value → value.fits call.kind = true
  listed : call.future = none → call.phase.live = true →
    ∃ token, call.token = some token ∧ (token, id) ∈ futures
  decided : match call.phase with
    | .waiting => True
    | .woken result | .removed result => call.kind = .grab → result = resultOf .grab call.future
    | .returned result => result = resultOf call.kind call.future

structure Matched (rpc : Rpc) : Prop where
  calls : ∀ id call, rpc.calls id = some call → CallMatched rpc.futures id call
  futures : ∀ token id, (token, id) ∈ rpc.futures → ∃ call, rpc.calls id = some call ∧
    call.token = some token ∧ call.phase.live = true ∧ call.future = none
  fresh : ∀ id, rpc.started ≤ id → rpc.calls id = none

theorem Matched.congr (matched : rpc.Matched) (calls : next.calls = rpc.calls)
    (futures : next.futures = rpc.futures) (started : next.started = rpc.started) :
    next.Matched := by
  constructor
  · rw [calls, futures]
    exact matched.calls
  · rw [calls, futures]
    exact matched.futures
  · rw [calls, started]
    exact matched.fresh

theorem Matched.replace (matched : rpc.Matched) (known : rpc.calls id = some call) (changed : Call)
    (calls : next.calls = (rpc.setCall id changed).calls) (started : next.started = rpc.started)
    (right : CallMatched next.futures id changed)
    (others : ∀ token other, other ≠ id →
      ((token, other) ∈ next.futures ↔ (token, other) ∈ rpc.futures))
    (own : ∀ token, (token, id) ∈ next.futures →
      changed.token = some token ∧ changed.phase.live = true ∧ changed.future = none) :
    next.Matched := by
  constructor
  · intro other held found
    rw [calls, set_call_calls] at found
    by_cases same : other = id
    · rw [if_pos same] at found
      cases found
      rw [same]
      exact right
    · rw [if_neg same] at found
      obtain ⟨heard, fits, listed, decided⟩ := matched.calls other held found
      refine ⟨heard, fits, ?_, decided⟩
      intro unset live
      obtain ⟨token, tokenOf, member⟩ := listed unset live
      exact ⟨token, tokenOf, (others token other same).mpr member⟩
  · intro token other member
    rw [calls, set_call_calls]
    by_cases same : other = id
    · rw [same] at member ⊢
      rw [if_pos rfl]
      exact ⟨changed, rfl, own token member⟩
    · rw [if_neg same]
      exact matched.futures token other ((others token other same).mp member)
  · intro other unused
    rw [started] at unused
    rw [calls, set_call_calls, if_neg]
    · exact matched.fresh other unused
    · intro same
      rw [← same, matched.fresh other unused] at known
      cases known

theorem fresh_call_matched {futures : List (Nat × Nat)} (kind : CallKind) (token : Option Nat)
    (phase : CallPhase)
    (listed : phase.live = true → ∃ number, token = some number ∧ (number, id) ∈ futures)
    (begun : phase = .waiting ∨ phase = .returned (resultOf kind none)) :
    CallMatched futures id { kind := kind, token := token, phase := phase } := by
  constructor
  · rfl
  · intro value absurd
    cases absurd
  · intro _
    exact listed
  · cases begun with
    | inl waits =>
        rw [waits]
        trivial
    | inr returned => rw [returned]

theorem start_matched : start.Matched := by
  constructor
  · intro id call found
    cases found
  · intro token id member
    cases member
  · intro id _
    rfl

theorem begin_matched (matched : rpc.Matched) (kind : CallKind) (hasClients : Bool) :
    (rpc.beginCall kind hasClients).Matched := by
  have unknown := matched.fresh rpc.started (Nat.le_refl _)
  have older : ∀ token id, (token, id) ∈ rpc.futures → id ≠ rpc.started := by
    intro token id member same
    obtain ⟨call, found, _⟩ := matched.futures token id member
    rw [same, unknown] at found
    cases found
  unfold beginCall
  split
  · constructor
    · intro id call found
      rw [set_call_calls] at found
      split at found
      · rename_i same
        cases found
        apply fresh_call_matched
        · intro _
          refine ⟨_, rfl, List.mem_append_right _ ?_⟩
          rw [same]
          exact List.mem_singleton_self _
        · exact Or.inl rfl
      · obtain ⟨heard, fits, listed, decided⟩ := matched.calls id call found
        refine ⟨heard, fits, ?_, decided⟩
        intro unset live
        obtain ⟨token, tokenOf, member⟩ := listed unset live
        exact ⟨token, tokenOf, List.mem_append_left _ member⟩
    · intro token id member
      rw [set_call_calls]
      cases List.mem_append.mp member with
      | inl old =>
          rw [if_neg (older token id old)]
          exact matched.futures token id old
      | inr new =>
          cases List.mem_singleton.mp new
          rw [if_pos rfl]
          exact ⟨_, rfl, rfl, rfl, rfl⟩
    · intro id unused
      rw [set_call_calls, if_neg (by change rpc.started + 1 ≤ id at unused; omega)]
      exact matched.fresh id (Nat.le_of_succ_le unused)
  · constructor
    · intro id call found
      rw [set_call_calls] at found
      split at found
      · cases found
        apply fresh_call_matched
        · intro live
          cases live
        · exact Or.inr rfl
      · exact matched.calls id call found
    · intro token id member
      rw [set_call_calls, if_neg (older token id member)]
      exact matched.futures token id member
    · intro id unused
      rw [set_call_calls, if_neg (by change rpc.started + 1 ≤ id at unused; omega)]
      exact matched.fresh id (Nat.le_of_succ_le unused)

theorem wait_matched (matched : rpc.Matched) (answer : Bool)
    (known : ∀ call buffer, answer = false → rpc.calls id = some call →
      call.future ≠ some (.image buffer))
    (performed : rpc.waitCall id answer = some next) : next.Matched := by
  obtain ⟨call, found, waits, rfl⟩ := wait_cases performed
  obtain ⟨heard, fits, listed, _⟩ := matched.calls id call found
  have live : call.phase.live = true := by rw [waits]; rfl
  apply matched.replace found _ rfl rfl
  · refine ⟨heard, fits, fun unset _ => listed unset live, ?_⟩
    intro grab
    change call.kind = .grab at grab
    dsimp only
    rw [grab]
    cases answer with
    | true => rfl
    | false =>
        have noImage := known call
        cases future : call.future with
        | none => rfl
        | some value =>
            have fit := fits value future
            rw [grab] at fit
            cases value with
            | image buffer => exact absurd future (noImage buffer rfl found)
            | noImage => rfl
            | number value => cases fit
            | garbled => cases fit
  · intro token other _
    rfl
  · intro token member
    obtain ⟨held, same, tokenOf, _, unset⟩ := matched.futures token id member
    rw [found] at same
    cases same
    exact ⟨tokenOf, rfl, unset⟩

theorem remove_matched (matched : rpc.Matched) (performed : rpc.removeCall id = some next) :
    next.Matched := by
  obtain ⟨call, result, found, phase, rfl⟩ := remove_cases performed
  obtain ⟨heard, fits, _, decided⟩ := matched.calls id call found
  rw [phase] at decided
  refine matched.replace found { call with phase := .removed result } rfl rfl ?_ ?_ ?_
  · constructor
    · exact heard
    · exact fits
    · intro _ live
      cases live
    · exact decided
  · intro token other differ
    simp [List.mem_filter, differ]
  · intro token member
    simp [List.mem_filter] at member

/-- `GrabImage` has decided on what a second look would show. -/
theorem finish_result (matched : rpc.Matched) (found : rpc.calls id = some call)
    {decision : CallResult} (phase : call.phase = .removed decision) :
    finalResult call decision = resultOf call.kind call.future := by
  have decided := (matched.calls id call found).decided
  rw [phase] at decided
  unfold finalResult
  cases kind : call.kind with
  | control => rfl
  | grab => exact decided kind

theorem return_buffer_calls (rpc : Rpc) (id : Nat) (result : CallResult) :
    (rpc.returnBuffer id result).calls = rpc.calls ∧
      (rpc.returnBuffer id result).futures = rpc.futures ∧
      (rpc.returnBuffer id result).started = rpc.started := by
  unfold returnBuffer
  split
  · exact ⟨rfl, rfl, rfl⟩
  · exact ⟨rfl, rfl, rfl⟩

theorem finish_matched (matched : rpc.Matched) (performed : rpc.finishCall id = some next) :
    next.Matched := by
  obtain ⟨call, decision, found, phase, rfl⟩ := finish_cases performed
  obtain ⟨heard, fits, _, _⟩ := matched.calls id call found
  obtain ⟨calls, futures, started⟩ := return_buffer_calls
    (rpc.setCall id { call with phase := .returned (finalResult call decision) }) id
    (finalResult call decision)
  refine matched.replace found _ calls started ?_ ?_ ?_
  · constructor
    · exact heard
    · exact fits
    · intro _ live
      cases live
    · exact finish_result matched found phase
  · intro token other _
    rw [futures]
    rfl
  · intro token member
    rw [futures] at member
    obtain ⟨held, same, _, live, _⟩ := matched.futures token id member
    rw [found] at same
    cases same
    rw [phase] at live
    cases live

/-! ## Replies -/

/-- At most one future in the list has the token; the reply is of its type; and an image
finds its call waiting. -/
def Deliverable (rpc : Rpc) (token : Int) (value : FutureValue) : Prop :=
  (∀ entry ∈ rpc.futures, ∀ other ∈ rpc.futures, (entry.1 : Int) = token →
    (other.1 : Int) = token → entry.2 = other.2) ∧
  ∀ id call, rpc.owner token = some id → rpc.calls id = some call →
    value.fits call.kind = true ∧ ∀ buffer, value = .image buffer → call.phase = .waiting

theorem owner_member {token : Int} (owns : rpc.owner token = some id) :
    ∃ number : Nat, (number : Int) = token ∧ (number, id) ∈ rpc.futures := by
  obtain ⟨entry, found, rfl⟩ := Option.map_eq_some_iff.mp owns
  have same := List.find?_some found
  exact ⟨entry.1, eq_of_beq same, List.mem_of_find?_eq_some found⟩

theorem owner_none {token : Int} (none : rpc.owner token = none) (number : Nat)
    (same : (number : Int) = token) : (number, id) ∉ rpc.futures := by
  intro member
  have absent := List.find?_eq_none.mp (Option.map_eq_none_iff.mp none) _ member
  exact absent (beq_iff_eq.mpr same)

theorem hears_listed (matched : rpc.Matched) (found : rpc.calls id = some call) {token : Int}
    (hears : call.token.map Nat.cast = some token ∧ call.phase.live = true ∧ call.heard = none) :
    ∃ number : Nat, (number : Int) = token ∧ (number, id) ∈ rpc.futures := by
  obtain ⟨tokenOf, live, unheard⟩ := hears
  obtain ⟨same, _, listed, _⟩ := matched.calls id call found
  obtain ⟨number, tokenIs, member⟩ := listed (same.trans unheard) live
  rw [tokenIs] at tokenOf
  exact ⟨number, Option.some.inj tokenOf, member⟩

theorem hear_calls (token : Int) (value : FutureValue) (other : Nat) :
    (rpc.hear token value).calls other = (rpc.calls other).map fun call =>
      if call.token.map Nat.cast = some token ∧ call.phase.live = true ∧ call.heard = none then
        { call with heard := some value }
      else call :=
  rfl

theorem deliver_unknown (matched : rpc.Matched) {token : Int} (value : FutureValue)
    (none : rpc.owner token = none) : rpc.deliver token value = rpc := by
  rw [deliver, none]
  have silent : (rpc.hear token value).calls = rpc.calls := by
    funext id
    rw [hear_calls]
    cases found : rpc.calls id with
    | none => rfl
    | some call =>
        rw [Option.map_some, if_neg]
        intro hears
        obtain ⟨number, same, member⟩ := hears_listed matched found hears
        exact owner_none none number same member
  change { rpc with calls := (rpc.hear token value).calls } = rpc
  rw [silent]

theorem deliver_known (matched : rpc.Matched) {token : Int} {value : FutureValue}
    (proper : rpc.Deliverable token value) (owns : rpc.owner token = some id) :
    ∃ call, rpc.calls id = some call ∧ call.phase.live = true ∧ call.future = none ∧
      value.fits call.kind = true ∧
      rpc.deliver token value =
        { rpc.setCall id { call with future := some value, heard := some value } with
          futures := rpc.futures.filter fun entry => entry.2 ≠ id } := by
  obtain ⟨number, rfl, member⟩ := owner_member owns
  obtain ⟨call, found, tokenOf, live, unset⟩ := matched.futures number id member
  have fit := (proper.2 id call owns found).1
  have unheard := (matched.calls id call found).same.symm.trans unset
  refine ⟨call, found, live, unset, fit, ?_⟩
  have calls : ((rpc.hear number value).setFuture id value).calls =
      (rpc.setCall id { call with future := some value, heard := some value }).calls := by
    funext other
    rw [set_call_calls, setFuture]
    dsimp only
    by_cases same : other = id
    · rw [if_pos same, if_pos same, same, hear_calls, found, Option.map_some,
        if_pos ⟨by rw [tokenOf]; rfl, live, unheard⟩, Option.map_some, if_pos fit]
    · rw [if_neg same, if_neg same, hear_calls]
      cases held : rpc.calls other with
      | none => rfl
      | some call =>
          rw [Option.map_some, if_neg]
          intro hears
          obtain ⟨number', tokenIs, listed⟩ := hears_listed matched held hears
          exact same (proper.1 _ listed _ member tokenIs rfl)
  rw [deliver, owns]
  dsimp only
  rw [calls]
  rfl

theorem deliver_matched (matched : rpc.Matched) {token : Int} {value : FutureValue}
    (proper : rpc.Deliverable token value) : (rpc.deliver token value).Matched := by
  cases owns : rpc.owner token with
  | none =>
      rw [deliver_unknown matched value owns]
      exact matched
  | some id =>
      obtain ⟨call, found, live, unset, fit, delivered⟩ := deliver_known matched proper owns
      rw [delivered]
      refine matched.replace found { call with future := some value, heard := some value } rfl rfl
        ?_ ?_ ?_
      · constructor
        · rfl
        · intro other same
          cases same
          exact fit
        · intro absurd
          cases absurd
        · have decided := (matched.calls id call found).decided
          have waits := (proper.2 id call owns found).2
          cases phase : call.phase with
          | waiting => trivial
          | woken result =>
              rw [phase] at decided waits
              intro grab
              change call.kind = .grab at grab
              rw [grab] at fit
              rw [decided grab, unset]
              cases value with
              | number value => cases fit
              | garbled => cases fit
              | image buffer => cases waits buffer rfl
              | noImage => rfl
          | removed result =>
              rw [phase] at live
              cases live
          | returned result =>
              rw [phase] at live
              cases live
      · intro token other differ
        simp [List.mem_filter, differ]
      · intro token member
        simp [List.mem_filter] at member

end Rpc
end Xineliboutput.Server
