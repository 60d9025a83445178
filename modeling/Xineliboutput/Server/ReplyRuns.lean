import Xineliboutput.Server.ReplyMatching

/-!
# Runs of remote calls

The account of the image buffers, and the run theorem: as long as replies can be
delivered and no image comes to a call that has given up, every call returns what it has
heard and every buffer has one owner.
-/

namespace Xineliboutput.Server

open Xineliboutput.Foundation

set_option autoImplicit false

namespace Rpc

variable {rpc next : Rpc} {id : Nat} {call : Call}

/-! ## Image buffers -/

/-- The buffer in the future of a call, and whether the call has returned. -/
def held : Option Call → Option (Nat × Bool)
  | some { future := some (.image buffer), phase := phase, .. } => some (buffer, phase.isReturned)
  | _ => none

def holds (rpc : Rpc) (id : Nat) : Option (Nat × Bool) := held (rpc.calls id)

/-- Every buffer is in one place: with the server thread, in a future, with the caller that
has returned it, or freed. -/
structure Owned (rpc : Rpc) : Prop where
  image : ∀ id buffer returned, rpc.holds id = some (buffer, returned) →
    buffer < rpc.allocated ∧ rpc.buffers buffer = ⟨0, if returned then [id] else []⟩
  sole : ∀ id other buffer returned returned', rpc.holds id = some (buffer, returned) →
    rpc.holds other = some (buffer, returned') → id = other
  reading : ∀ token buffer, rpc.thread = .reading token buffer →
    buffer < rpc.allocated ∧ rpc.buffers buffer = ⟨0, []⟩ ∧
      ∀ id returned, rpc.holds id ≠ some (buffer, returned)
  others : ∀ buffer < rpc.allocated, (∃ token, rpc.thread = .reading token buffer) ∨
    (∃ id returned, rpc.holds id = some (buffer, returned)) ∨ rpc.buffers buffer = ⟨1, []⟩
  unused : ∀ buffer, rpc.allocated ≤ buffer → rpc.buffers buffer = ⟨0, []⟩

def SameReading (rpc next : Rpc) : Prop :=
  ∀ token buffer, next.thread = .reading token buffer ↔ rpc.thread = .reading token buffer

theorem Owned.congr (owned : rpc.Owned) (holds : next.holds = rpc.holds)
    (buffers : next.buffers = rpc.buffers) (allocated : next.allocated = rpc.allocated)
    (thread : SameReading rpc next) : next.Owned := by
  constructor
  · rw [holds, buffers, allocated]
    exact owned.image
  · rw [holds]
    exact owned.sole
  · rw [holds, buffers, allocated]
    intro token buffer reads
    exact owned.reading token buffer ((thread token buffer).mp reads)
  · rw [holds, buffers, allocated]
    intro buffer known
    apply (owned.others buffer known).imp_left
    intro ⟨token, reads⟩
    exact ⟨token, (thread token buffer).mpr reads⟩
  · rw [buffers, allocated]
    exact owned.unused

theorem owned_allocate (owned : rpc.Owned) (token : Int)
    (idle : ∀ token buffer, rpc.thread ≠ .reading token buffer) (holds : next.holds = rpc.holds)
    (buffers : next.buffers = rpc.buffers) (allocated : next.allocated = rpc.allocated + 1)
    (thread : next.thread = .reading token rpc.allocated) : next.Owned := by
  constructor
  · rw [holds, buffers, allocated]
    intro id buffer returned member
    obtain ⟨known, account⟩ := owned.image id buffer returned member
    exact ⟨Nat.lt_succ_of_lt known, account⟩
  · rw [holds]
    exact owned.sole
  · rw [holds, buffers, allocated, thread]
    intro other buffer reads
    cases reads
    refine ⟨Nat.lt_succ_self _, owned.unused _ (Nat.le_refl _), ?_⟩
    intro id returned member
    exact Nat.lt_irrefl _ (owned.image id _ returned member).1
  · rw [holds, buffers, allocated, thread]
    intro buffer known
    by_cases new : buffer = rpc.allocated
    · rw [new]
      exact Or.inl ⟨token, rfl⟩
    · right
      apply (owned.others buffer (by omega)).resolve_left
      intro ⟨other, reads⟩
      exact idle other buffer reads
  · rw [buffers, allocated]
    intro buffer beyond
    exact owned.unused buffer (Nat.le_of_succ_le beyond)

theorem owned_free (owned : rpc.Owned) {token : Int} {buffer : Nat}
    (reads : rpc.thread = .reading token buffer) (holds : next.holds = rpc.holds)
    (buffers : next.buffers = Function.update rpc.buffers buffer
      { rpc.buffers buffer with freed := (rpc.buffers buffer).freed + 1 })
    (allocated : next.allocated = rpc.allocated) (thread : next.thread = .idle) :
    next.Owned := by
  obtain ⟨known, account, free⟩ := owned.reading token buffer reads
  rw [account] at buffers
  have differs : ∀ id other returned, rpc.holds id = some (other, returned) → other ≠ buffer := by
    intro id other returned member same
    rw [same] at member
    exact free id returned member
  constructor
  · rw [holds, buffers, allocated]
    intro id other returned member
    rw [Function.update_of_ne (differs id other returned member)]
    exact owned.image id other returned member
  · rw [holds]
    exact owned.sole
  · rw [thread]
    intro token buffer absurd
    cases absurd
  · rw [holds, buffers, allocated, thread]
    intro other within
    right
    by_cases same : other = buffer
    · rw [same, Function.update_self]
      exact Or.inr rfl
    · rw [Function.update_of_ne same]
      apply (owned.others other within).resolve_left
      intro ⟨_, reads'⟩
      rw [reads] at reads'
      cases reads'
      exact same rfl
  · rw [buffers, allocated]
    intro other beyond
    rw [Function.update_of_ne (by omega)]
    exact owned.unused other beyond

theorem owned_give (owned : rpc.Owned) {token : Int} {buffer : Nat}
    (reads : rpc.thread = .reading token buffer) (empty : rpc.holds id = none)
    (holds : next.holds = Function.update rpc.holds id (some (buffer, false)))
    (buffers : next.buffers = rpc.buffers) (allocated : next.allocated = rpc.allocated)
    (thread : next.thread = .idle) : next.Owned := by
  obtain ⟨known, account, free⟩ := owned.reading token buffer reads
  constructor
  · rw [holds, buffers, allocated]
    intro other image returned member
    rw [Function.update_apply] at member
    split at member
    · cases member
      exact ⟨known, account⟩
    · exact owned.image other image returned member
  · rw [holds]
    intro one other image returned returned' first second
    rw [Function.update_apply] at first second
    split at first
    · rename_i same
      split at second
      · rename_i same'
        rw [same, same']
      · cases first
        exact absurd second (free other returned')
    · split at second
      · cases second
        exact absurd first (free one returned)
      · exact owned.sole one other image returned returned' first second
  · rw [thread]
    intro token buffer absurd
    cases absurd
  · rw [holds, buffers, allocated, thread]
    intro image within
    right
    by_cases same : image = buffer
    · rw [same]
      exact Or.inl ⟨id, false, Function.update_self id _ rpc.holds⟩
    · have elsewhere := (owned.others image within).resolve_left (by
        intro ⟨_, reads'⟩
        rw [reads] at reads'
        cases reads'
        exact same rfl)
      apply elsewhere.imp_left
      intro ⟨other, returned, member⟩
      refine ⟨other, returned, ?_⟩
      rw [Function.update_of_ne]
      · exact member
      · intro equal
        rw [equal, empty] at member
        cases member
  · rw [buffers, allocated]
    exact owned.unused

theorem owned_return (owned : rpc.Owned) {buffer : Nat}
    (member : rpc.holds id = some (buffer, false))
    (holds : next.holds = Function.update rpc.holds id (some (buffer, true)))
    (buffers : next.buffers = Function.update rpc.buffers buffer
      { rpc.buffers buffer with returnedTo := (rpc.buffers buffer).returnedTo ++ [id] })
    (allocated : next.allocated = rpc.allocated) (thread : next.thread = rpc.thread) :
    next.Owned := by
  obtain ⟨known, account⟩ := owned.image id buffer false member
  rw [account] at buffers
  constructor
  · rw [holds, buffers, allocated]
    intro other image returned given
    rw [Function.update_apply] at given
    split at given
    · rename_i same
      cases given
      rw [Function.update_self, same]
      exact ⟨known, rfl⟩
    · rename_i differ
      rw [Function.update_of_ne]
      · exact owned.image other image returned given
      · intro equal
        rw [equal] at given
        exact differ (owned.sole other id buffer returned false given member)
  · rw [holds]
    intro one other image returned returned' first second
    rw [Function.update_apply] at first second
    split at first
    · rename_i same
      split at second
      · rename_i same'
        rw [same, same']
      · cases first
        rw [same]
        exact owned.sole id other buffer false returned' member second
    · split at second
      · rename_i same
        cases second
        rw [same]
        exact owned.sole one id buffer returned false first member
      · exact owned.sole one other image returned returned' first second
  · rw [holds, buffers, allocated, thread]
    intro token image reads
    obtain ⟨within, fresh, free⟩ := owned.reading token image reads
    have differ : image ≠ buffer := by
      intro equal
      rw [equal] at free
      exact free id false member
    rw [Function.update_of_ne differ]
    refine ⟨within, fresh, ?_⟩
    intro other returned given
    rw [Function.update_apply] at given
    split at given
    · cases given
      exact differ rfl
    · exact free other returned given
  · rw [holds, buffers, allocated, thread]
    intro image within
    by_cases same : image = buffer
    · rw [same]
      exact Or.inr (Or.inl ⟨id, true, Function.update_self id _ rpc.holds⟩)
    · rw [Function.update_of_ne same]
      apply (owned.others image within).imp_right
      apply Or.imp_left
      intro ⟨other, returned, given⟩
      refine ⟨other, returned, ?_⟩
      rw [Function.update_of_ne]
      · exact given
      · intro equal
        rw [equal, member] at given
        cases given
        exact same rfl
  · rw [buffers, allocated]
    intro other beyond
    rw [Function.update_of_ne (by omega)]
    exact owned.unused other beyond

/-! ## Steps -/

theorem holds_set_call (changed : Call) :
    (rpc.setCall id changed).holds = Function.update rpc.holds id (held (some changed)) := by
  funext other
  rw [holds, set_call_calls, Function.update_apply]
  split
  · rfl
  · rfl

theorem holds_of (found : rpc.calls id = some call) : rpc.holds id = held (some call) := by
  rw [holds, found]

theorem holds_kept (changed : Call) (same : held (some changed) = rpc.holds id) :
    (rpc.setCall id changed).holds = rpc.holds := by
  rw [holds_set_call, same, Function.update_eq_self]

theorem held_phase (phase : CallPhase) (same : phase.isReturned = call.phase.isReturned) :
    held (some { call with phase := phase }) = held (some call) := by
  obtain ⟨kind, token, before, future, heard⟩ := call
  cases future with
  | none => rfl
  | some value =>
      cases value with
      | image buffer => exact congrArg (fun returned => some (buffer, returned)) same
      | number value => rfl
      | noImage => rfl
      | garbled => rfl

theorem begin_holds (matched : rpc.Matched) (kind : CallKind) (hasClients : Bool) :
    (rpc.beginCall kind hasClients).holds = rpc.holds := by
  have unknown := matched.fresh rpc.started (Nat.le_refl _)
  have empty : rpc.holds rpc.started = none := by
    rw [holds, unknown]
    rfl
  unfold beginCall
  split
  · exact holds_kept _ empty.symm
  · exact holds_kept _ empty.symm

theorem begin_frame (rpc : Rpc) (kind : CallKind) (hasClients : Bool) :
    (rpc.beginCall kind hasClients).buffers = rpc.buffers ∧
      (rpc.beginCall kind hasClients).allocated = rpc.allocated ∧
      (rpc.beginCall kind hasClients).thread = rpc.thread := by
  unfold beginCall
  split
  · exact ⟨rfl, rfl, rfl⟩
  · exact ⟨rfl, rfl, rfl⟩

theorem begin_owned (matched : rpc.Matched) (owned : rpc.Owned) (kind : CallKind)
    (hasClients : Bool) : (rpc.beginCall kind hasClients).Owned := by
  obtain ⟨buffers, allocated, thread⟩ := begin_frame rpc kind hasClients
  apply owned.congr (begin_holds matched kind hasClients) buffers allocated
  intro token buffer
  rw [thread]

theorem wait_owned (owned : rpc.Owned) {answer : Bool}
    (performed : rpc.waitCall id answer = some next) : next.Owned := by
  obtain ⟨call, found, waits, rfl⟩ := wait_cases performed
  refine owned.congr (holds_kept _ ?_) rfl rfl fun _ _ => Iff.rfl
  rw [holds_of found]
  apply held_phase
  rw [waits]
  rfl

theorem remove_owned (owned : rpc.Owned) (performed : rpc.removeCall id = some next) :
    next.Owned := by
  obtain ⟨call, result, found, phase, rfl⟩ := remove_cases performed
  have kept : (rpc.setCall id { call with phase := .removed result }).holds = rpc.holds := by
    apply holds_kept
    rw [holds_of found]
    apply held_phase
    rw [phase]
    rfl
  exact owned.congr kept rfl rfl fun _ _ => Iff.rfl

theorem finish_owned (matched : rpc.Matched) (owned : rpc.Owned)
    (performed : rpc.finishCall id = some next) : next.Owned := by
  obtain ⟨call, decision, found, phase, rfl⟩ := finish_cases performed
  rw [finish_result matched found phase]
  have fits := (matched.calls id call found).fits
  obtain ⟨kind, token, _, future, heard⟩ := call
  cases phase
  cases future with
  | none =>
      have silent : held (some ⟨kind, token, .returned (resultOf kind none), none, heard⟩) =
          rpc.holds id := (holds_of found).symm
      cases kind with
      | control => exact owned.congr (holds_kept _ silent) rfl rfl fun _ _ => Iff.rfl
      | grab => exact owned.congr (holds_kept _ silent) rfl rfl fun _ _ => Iff.rfl
  | some value =>
      have fit := fits value rfl
      cases kind with
      | control =>
          cases value with
          | number value =>
              exact owned.congr (holds_kept _ (holds_of found).symm) rfl rfl fun _ _ => Iff.rfl
          | image buffer => cases fit
          | noImage => cases fit
          | garbled => cases fit
      | grab =>
          cases value with
          | number value => cases fit
          | image buffer =>
              exact owned_return owned (holds_of found) (holds_set_call _) rfl rfl rfl
          | noImage =>
              exact owned.congr (holds_kept _ (holds_of found).symm) rfl rfl fun _ _ => Iff.rfl
          | garbled => cases fit

theorem deliver_owned (matched : rpc.Matched) (owned : rpc.Owned) {token : Int}
    {value : FutureValue} (proper : rpc.Deliverable token value)
    (empty : ∀ buffer, value ≠ .image buffer) : (rpc.deliver token value).Owned := by
  cases owns : rpc.owner token with
  | none =>
      rw [deliver_unknown matched value owns]
      exact owned
  | some id =>
      obtain ⟨call, found, _, unset, _, delivered⟩ := deliver_known matched proper owns
      have before : rpc.holds id = none := by
        rw [holds_of found]
        obtain ⟨kind, number, phase, future, heard⟩ := call
        cases unset
        rfl
      have kept : (rpc.setCall id { call with future := some value, heard := some value }).holds =
          rpc.holds := by
        apply holds_kept
        rw [before]
        cases value with
        | image buffer => exact absurd rfl (empty buffer)
        | number value => rfl
        | noImage => rfl
        | garbled => rfl
      rw [delivered]
      exact owned.congr kept rfl rfl fun _ _ => Iff.rfl

theorem live_unreturned {phase : CallPhase} (live : phase.live = true) :
    phase.isReturned = false := by
  cases phase with
  | returned result => cases live
  | waiting => rfl
  | woken result => rfl
  | removed result => rfl

theorem deliver_image_owned (matched : rpc.Matched) (owned : rpc.Owned) {token : Int}
    {buffer : Nat} (reads : rpc.thread = .reading token buffer)
    (proper : rpc.Deliverable token (.image buffer)) (owns : rpc.owner token = some id) :
    (deliver { rpc with thread := .idle } token (.image buffer)).Owned := by
  have resting : Matched { rpc with thread := .idle } := matched.congr rfl rfl rfl
  obtain ⟨call, found, live, unset, _, delivered⟩ := deliver_known resting proper owns
  have before : rpc.holds id = none := by
    rw [holds_of (show rpc.calls id = some call from found)]
    obtain ⟨kind, number, phase, future, heard⟩ := call
    cases unset
    rfl
  have after : held (some { call with future := some (.image buffer), heard := some (.image buffer) }) =
      some (buffer, false) := by
    rw [← live_unreturned live]
    rfl
  rw [delivered]
  refine owned_give owned reads before ?_ rfl rfl rfl
  rw [← after]
  exact holds_set_call _

theorem read_cases {complete : Bool} (performed : rpc.readImage complete = some next) :
    ∃ token buffer, rpc.thread = .reading token buffer ∧
      (next = free { rpc with thread := .idle } buffer ∨
        complete = true ∧
          (rpc.owner token = none ∧
              next = (deliver { rpc with thread := .idle } token (.image buffer)).free buffer ∨
            ∃ id, rpc.owner token = some id ∧
              next = deliver { rpc with thread := .idle } token (.image buffer))) := by
  unfold readImage at performed
  cases thread : rpc.thread with
  | idle => simp [thread] at performed
  | configuring id => simp [thread] at performed
  | reading token buffer =>
      refine ⟨token, buffer, rfl, ?_⟩
      rw [thread] at performed
      dsimp only at performed
      cases complete with
      | false =>
          cases performed
          exact Or.inl rfl
      | true =>
          rw [if_pos rfl] at performed
          cases owns : rpc.owner token with
          | none =>
              rw [owns] at performed
              cases performed
              exact Or.inr ⟨rfl, Or.inl ⟨rfl, rfl⟩⟩
          | some id =>
              rw [owns] at performed
              cases performed
              exact Or.inr ⟨rfl, Or.inr ⟨id, rfl, rfl⟩⟩

structure Sound (rpc : Rpc) : Prop where
  matched : rpc.Matched
  owned : rpc.Owned

theorem start_sound : start.Sound := by
  constructor
  · exact start_matched
  · constructor
    · intro id buffer returned member
      cases member
    · intro id other buffer returned returned' member
      cases member
    · intro token buffer reads
      cases reads
    · intro buffer known
      exact absurd known (Nat.not_lt_zero buffer)
    · intro buffer _
      rfl

/-- A call does not give up with an image in its future, and every reply can be delivered. -/
def Proper (rpc : Rpc) : RpcStep → Prop
  | .wait id answer => ∀ call buffer, answer = false → rpc.calls id = some call →
      call.future ≠ some (.image buffer)
  | .process index =>
      match rpc.pending[index]? with
      | some (.result token value) => rpc.Deliverable token (.number value)
      | some (.grab token size) => properSize size = false → rpc.Deliverable token .noImage
      | none => True
  | .read complete => ∀ token buffer, complete = true → rpc.thread = .reading token buffer →
      rpc.Deliverable token (.image buffer)
  | .begin _ _ | .remove _ | .finish _ | .arrive _ | .play _ | .configure _ | .resume => True

theorem process_sound (sound : rpc.Sound) {index : Nat} (proper : rpc.Proper (.process index))
    (performed : rpc.processReply index = some next) : next.Sound := by
  obtain ⟨matched, owned⟩ := sound
  unfold processReply at performed
  dsimp only [Proper] at proper
  cases thread : rpc.thread with
  | reading token buffer => simp [thread] at performed
  | configuring id => simp [thread] at performed
  | idle =>
      have fewer : Matched { rpc with pending := rpc.pending.eraseIdx index, thread := .idle } :=
        matched.congr rfl rfl rfl
      have same : Owned { rpc with pending := rpc.pending.eraseIdx index, thread := .idle } := by
        refine owned.congr rfl rfl rfl ?_
        intro token buffer
        rw [thread]
      cases reply : rpc.pending[index]? with
      | none => simp [thread, reply] at performed
      | some message =>
          rw [thread, reply] at performed
          rw [reply] at proper
          cases message with
          | result token value =>
              cases performed
              constructor
              · exact deliver_matched fewer proper
              · exact deliver_owned fewer same proper fun _ absurd => by cases absurd
          | grab token size =>
              dsimp only at performed proper
              split at performed
              · cases performed
                constructor
                · exact matched.congr rfl rfl rfl
                · refine owned_allocate owned token ?_ rfl rfl rfl rfl
                  intro other buffer reads
                  rw [thread] at reads
                  cases reads
              · rename_i bad
                have deliverable := proper (Bool.eq_false_iff.mpr bad)
                cases performed
                constructor
                · exact deliver_matched fewer deliverable
                · exact deliver_owned fewer same deliverable fun _ absurd => by cases absurd

theorem read_sound (sound : rpc.Sound) {complete : Bool} (proper : rpc.Proper (.read complete))
    (performed : rpc.readImage complete = some next) : next.Sound := by
  obtain ⟨matched, owned⟩ := sound
  have resting : Matched { rpc with thread := .idle } := matched.congr rfl rfl rfl
  obtain ⟨token, buffer, reads, freed | ⟨whole, ⟨lost, dropped⟩ | ⟨id, owns, given⟩⟩⟩ :=
    read_cases performed
  · rw [freed]
    exact ⟨resting.congr rfl rfl rfl, owned_free owned reads rfl rfl rfl rfl⟩
  · have same : deliver { rpc with thread := .idle } token (.image buffer) =
        { rpc with thread := .idle } := deliver_unknown resting _ lost
    rw [dropped, same]
    exact ⟨resting.congr rfl rfl rfl, owned_free owned reads rfl rfl rfl rfl⟩
  · have deliverable := proper token buffer whole reads
    rw [given]
    constructor
    · exact deliver_matched resting deliverable
    · exact deliver_image_owned matched owned reads deliverable owns

theorem configure_sound (sound : rpc.Sound) (hasClients : Bool)
    (performed : rpc.configure hasClients = some next) : next.Sound := by
  obtain ⟨matched, owned⟩ := sound
  unfold configure at performed
  by_cases idle : rpc.thread = .idle
  · rw [if_pos idle] at performed
    split at performed
    · cases performed
      have begun := begin_matched matched .control hasClients
      have begunOwned := begin_owned matched owned .control hasClients
      have thread := (begin_frame rpc .control hasClients).2.2
      constructor
      · exact begun.congr rfl rfl rfl
      · refine begunOwned.congr rfl rfl rfl ?_
        intro token buffer
        rw [thread, idle]
        constructor
        · intro absurd
          cases absurd
        · intro absurd
          cases absurd
    · cases performed
      exact ⟨matched, owned⟩
  · rw [if_neg idle] at performed
    cases performed

theorem resume_cases (performed : rpc.resume = some next) :
    ∃ id pos, rpc.thread = .configuring id ∧
      (rpc.calls id).map Call.phase = some (.returned (.number pos)) ∧
      next =
        { rpc with
          thread := .idle
          playfiles := rpc.playfiles ++ if rpc.playing then [playPosition pos] else [] } := by
  unfold resume at performed
  cases thread : rpc.thread with
  | idle => simp [thread] at performed
  | reading token buffer => simp [thread] at performed
  | configuring id =>
      rw [thread] at performed
      dsimp only at performed
      split at performed
      · rename_i pos returned
        cases performed
        exact ⟨id, pos, rfl, returned, rfl⟩
      · cases performed

theorem resume_sound (sound : rpc.Sound) (performed : rpc.resume = some next) : next.Sound := by
  obtain ⟨matched, owned⟩ := sound
  obtain ⟨id, pos, thread, _, rfl⟩ := resume_cases performed
  constructor
  · exact matched.congr rfl rfl rfl
  · refine owned.congr rfl rfl rfl ?_
    intro token buffer
    rw [thread]
    constructor
    · intro absurd
      cases absurd
    · intro absurd
      cases absurd

theorem step_sound (step : RpcStep) (sound : rpc.Sound) (proper : rpc.Proper step)
    (performed : rpc.perform step = some next) : next.Sound := by
  obtain ⟨matched, owned⟩ := sound
  cases step with
  | begin kind hasClients =>
      cases performed
      exact ⟨begin_matched matched kind hasClients, begin_owned matched owned kind hasClients⟩
  | wait id answer =>
      exact ⟨wait_matched matched answer proper performed, wait_owned owned performed⟩
  | remove id => exact ⟨remove_matched matched performed, remove_owned owned performed⟩
  | finish id => exact ⟨finish_matched matched performed, finish_owned matched owned performed⟩
  | arrive reply =>
      cases performed
      exact ⟨matched.congr rfl rfl rfl, owned.congr rfl rfl rfl fun _ _ => Iff.rfl⟩
  | process index => exact process_sound ⟨matched, owned⟩ proper performed
  | read complete => exact read_sound ⟨matched, owned⟩ proper performed
  | play playing =>
      cases performed
      exact ⟨matched.congr rfl rfl rfl, owned.congr rfl rfl rfl fun _ _ => Iff.rfl⟩
  | configure hasClients => exact configure_sound ⟨matched, owned⟩ hasClients performed
  | resume => exact resume_sound ⟨matched, owned⟩ performed

/-! ## Runs -/

/-- The server thread still has the image, or a call that has not returned. -/
def InFlight (rpc : Rpc) (buffer : Nat) : Prop :=
  (∃ token, rpc.thread = .reading token buffer) ∨
    ∃ id call, rpc.calls id = some call ∧ call.future = some (.image buffer) ∧
      call.phase.isReturned = false

/-- A call returns what it has heard, or what stands for a timeout; its future is gone; and
every buffer is freed once, returned once, or on its way to one of them. -/
structure RepliesRight (rpc : Rpc) : Prop where
  results : ∀ id call result, rpc.calls id = some call → call.phase = .returned result →
    result = resultOf call.kind call.heard
  removed : ∀ id call result token, rpc.calls id = some call → call.phase = .returned result →
    (token, id) ∉ rpc.futures
  buffers : ∀ buffer < rpc.allocated, rpc.buffers buffer = ⟨1, []⟩ ∨
    (∃ id, rpc.buffers buffer = ⟨0, [id]⟩) ∨ rpc.buffers buffer = ⟨0, []⟩ ∧ rpc.InFlight buffer

theorem holds_image {buffer : Nat} {returned : Bool}
    (member : rpc.holds id = some (buffer, returned)) :
    ∃ call, rpc.calls id = some call ∧ call.future = some (.image buffer) ∧
      call.phase.isReturned = returned := by
  unfold holds at member
  cases found : rpc.calls id with
  | none =>
      rw [found] at member
      cases member
  | some call =>
      obtain ⟨kind, token, phase, future, heard⟩ := call
      rw [found] at member
      cases future with
      | none => cases member
      | some value =>
          cases value with
          | image image =>
              cases member
              exact ⟨_, rfl, rfl, rfl⟩
          | number value => cases member
          | noImage => cases member
          | garbled => cases member

theorem sound_right (sound : rpc.Sound) : rpc.RepliesRight := by
  obtain ⟨matched, owned⟩ := sound
  constructor
  · intro id call result found phase
    obtain ⟨heard, _, _, decided⟩ := matched.calls id call found
    rw [phase] at decided
    rw [decided, heard]
  · intro id call result token found phase member
    obtain ⟨other, same, _, live, _⟩ := matched.futures token id member
    rw [found] at same
    cases same
    rw [phase] at live
    cases live
  · intro buffer known
    cases owned.others buffer known with
    | inl reads =>
        obtain ⟨token, thread⟩ := reads
        exact Or.inr (Or.inr ⟨(owned.reading token buffer thread).2.1, Or.inl ⟨token, thread⟩⟩)
    | inr elsewhere =>
        cases elsewhere with
        | inl member =>
            obtain ⟨id, returned, member⟩ := member
            have account := (owned.image id buffer returned member).2
            obtain ⟨call, found, future, phase⟩ := holds_image member
            cases returned with
            | true => exact Or.inr (Or.inl ⟨id, account⟩)
            | false => exact Or.inr (Or.inr ⟨account, Or.inr ⟨id, call, found, future, phase⟩⟩)
        | inr freed => exact Or.inl freed

/-- In a run of proper steps all calls and buffers are right in every state. -/
theorem replies_right_throughout (steps : List RpcStep)
    (proper : ∀ (count : Nat) (within : count < steps.length) (rpc next : Rpc),
      Machine.follow perform start (steps.take count) = some rpc →
      rpc.perform steps[count] = some next → rpc.Proper steps[count]) :
    ∀ count ≤ steps.length, ∀ rpc,
      Machine.follow perform start (steps.take count) = some rpc → rpc.RepliesRight := by
  intro count within rpc reached
  apply sound_right
  exact Machine.follow_invariant start_sound (fun state step next sound allowed performed =>
    step_sound step sound allowed performed) steps proper count within rpc reached

def answeredCall : List RpcStep :=
  [.begin .control true, .arrive (.result 2 7), .process 0, .wait 0 true, .remove 0, .finish 0]

theorem answered_call_right :
    ∃ rpc, Machine.follow perform start answeredCall = some rpc ∧ rpc.RepliesRight := by
  refine ⟨_, rfl, replies_right_throughout answeredCall ?_ 6 (Nat.le_refl 6) _ rfl⟩
  intro count within rpc next reached performed
  match count with
  | 0 | 1 | 4 | 5 => trivial
  | 2 =>
      cases reached
      constructor
      · intro entry member other member' _ _
        cases List.mem_singleton.mp member
        cases List.mem_singleton.mp member'
        rfl
      · intro id call owns found
        cases owns
        cases found
        exact ⟨rfl, fun buffer absurd => by cases absurd⟩
  | 3 =>
      intro call buffer absurd
      cases absurd

/-- The image arrives after the wait has timed out and before the future is removed. -/
def lateImage : List RpcStep :=
  [.begin .grab true, .wait 0 false, .arrive (.grab 2 100), .process 0, .read true, .remove 0,
    .finish 0]

/-- The call has heard its image and returns none, and nobody has the buffer. -/
theorem late_image_lost :
    ∃ rpc call, Machine.follow perform start lateImage = some rpc ∧ rpc.calls 0 = some call ∧
      call.heard = some (.image 0) ∧ call.phase = .returned (.image none) ∧
      rpc.buffers 0 = ⟨0, []⟩ ∧ rpc.thread = .idle ∧ ¬rpc.RepliesRight := by
  refine ⟨_, _, rfl, rfl, rfl, rfl, rfl, rfl, ?_⟩
  intro right
  have result := right.results 0 _ _ rfl rfl
  cases result

end Rpc
end Xineliboutput.Server
