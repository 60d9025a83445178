import Mathlib.Data.Int.DivMod
import Xineliboutput.Server.ReplyRuns

/-!
# Where a new client starts

`Handle_Control_CONFIG` asks the other clients for the position and waits for the answer in
the server thread, which is the one that reads answers. While it waits nothing is read, so
the call always ends without an answer.
-/

namespace Xineliboutput.Server

open Xineliboutput.Foundation

set_option autoImplicit false

namespace Rpc

variable {rpc next : Rpc} {id : Nat} {call : Call}

/-- A call of the server thread: nothing is in its future, and it returns the timeout. -/
structure Unanswered (call : Call) : Prop where
  kind : call.kind = .control
  future : call.future = none
  phase : ∀ result, call.phase = .returned result → result = .number (-1)

/-- The call the server thread waits for is unanswered, and so were those before it. -/
structure Deaf (rpc : Rpc) : Prop where
  waits : ∀ id, rpc.thread = .configuring id →
    id < rpc.started ∧ ∃ call, rpc.calls id = some call ∧ Unanswered call
  sent : ∀ pos ∈ rpc.playfiles, pos = 0

theorem deaf_set_call (deaf : rpc.Deaf) (changed : Call)
    (calls : next.calls = (rpc.setCall id changed).calls)
    (thread : next.thread = rpc.thread) (started : rpc.started ≤ next.started)
    (playfiles : next.playfiles = rpc.playfiles)
    (own : rpc.thread = .configuring id → Unanswered changed) : next.Deaf := by
  constructor
  · rw [thread, calls]
    intro other waits
    obtain ⟨older, call, found, unanswered⟩ := deaf.waits other waits
    refine ⟨Nat.lt_of_lt_of_le older started, ?_⟩
    rw [set_call_calls]
    by_cases same : other = id
    · rw [if_pos same]
      rw [same] at waits
      exact ⟨changed, rfl, own waits⟩
    · rw [if_neg same]
      exact ⟨call, found, unanswered⟩
  · rw [playfiles]
    exact deaf.sent

theorem begin_deaf (deaf : rpc.Deaf) (kind : CallKind) (hasClients : Bool) :
    (rpc.beginCall kind hasClients).Deaf := by
  have newer : ∀ changed, rpc.thread = .configuring rpc.started → Unanswered changed := by
    intro changed waits
    exact absurd (deaf.waits rpc.started waits).1 (Nat.lt_irrefl _)
  unfold beginCall
  split
  · exact deaf_set_call deaf _ rfl rfl (Nat.le_succ _) rfl (newer _)
  · exact deaf_set_call deaf _ rfl rfl (Nat.le_succ _) rfl (newer _)

theorem known_unanswered (deaf : rpc.Deaf) (found : rpc.calls id = some call)
    (waits : rpc.thread = .configuring id) : Unanswered call := by
  obtain ⟨_, other, same, unanswered⟩ := deaf.waits id waits
  rw [found] at same
  cases same
  exact unanswered

theorem wait_deaf (deaf : rpc.Deaf) {answer : Bool}
    (performed : rpc.waitCall id answer = some next) : next.Deaf := by
  obtain ⟨call, found, _, rfl⟩ := wait_cases performed
  refine deaf_set_call deaf _ rfl rfl (Nat.le_refl _) rfl ?_
  intro waits
  have unanswered := known_unanswered deaf found waits
  exact ⟨unanswered.kind, unanswered.future, fun result absurd => by cases absurd⟩

theorem remove_deaf (deaf : rpc.Deaf) (performed : rpc.removeCall id = some next) :
    next.Deaf := by
  obtain ⟨call, result, found, _, rfl⟩ := remove_cases performed
  refine deaf_set_call deaf { call with phase := .removed result } rfl rfl (Nat.le_refl _) rfl ?_
  intro waits
  have unanswered := known_unanswered deaf found waits
  exact ⟨unanswered.kind, unanswered.future, fun result absurd => by cases absurd⟩

theorem return_buffer_frame (rpc : Rpc) (id : Nat) (result : CallResult) :
    (rpc.returnBuffer id result).thread = rpc.thread ∧
      (rpc.returnBuffer id result).playfiles = rpc.playfiles := by
  unfold returnBuffer
  split
  · exact ⟨rfl, rfl⟩
  · exact ⟨rfl, rfl⟩

theorem finish_deaf (deaf : rpc.Deaf) (performed : rpc.finishCall id = some next) :
    next.Deaf := by
  obtain ⟨call, decided, found, _, rfl⟩ := finish_cases performed
  obtain ⟨calls, _, started⟩ := return_buffer_calls
    (rpc.setCall id { call with phase := .returned (finalResult call decided) }) id
    (finalResult call decided)
  obtain ⟨thread, playfiles⟩ := return_buffer_frame
    (rpc.setCall id { call with phase := .returned (finalResult call decided) }) id
    (finalResult call decided)
  refine deaf_set_call deaf _ calls thread (Nat.le_of_eq started.symm) playfiles ?_
  intro waits
  have unanswered := known_unanswered deaf found waits
  refine ⟨unanswered.kind, unanswered.future, ?_⟩
  intro result returned
  cases returned
  rw [finalResult, unanswered.kind, unanswered.future]
  rfl

theorem deaf_reading (deaf : rpc.Deaf) (free : ∀ id, next.thread ≠ .configuring id)
    (playfiles : next.playfiles = rpc.playfiles) : next.Deaf := by
  constructor
  · intro id waits
    exact absurd waits (free id)
  · rw [playfiles]
    exact deaf.sent

theorem deliver_frame (rpc : Rpc) (token : Int) (value : FutureValue) :
    (rpc.deliver token value).thread = rpc.thread ∧
      (rpc.deliver token value).playfiles = rpc.playfiles := by
  unfold deliver
  split
  · exact ⟨rfl, rfl⟩
  · exact ⟨rfl, rfl⟩

theorem process_deaf (deaf : rpc.Deaf) {index : Nat}
    (performed : rpc.processReply index = some next) : next.Deaf := by
  unfold processReply at performed
  split at performed
  · rename_i token value thread _
    cases performed
    obtain ⟨kept, playfiles⟩ := deliver_frame
      { rpc with pending := rpc.pending.eraseIdx index } token (.number value)
    apply deaf_reading deaf _ playfiles
    intro id
    rw [kept, thread]
    intro absurd
    cases absurd
  · rename_i token size thread _
    split at performed
    · cases performed
      exact deaf_reading deaf (fun id absurd => by cases absurd) rfl
    · cases performed
      obtain ⟨kept, playfiles⟩ := deliver_frame
        { rpc with pending := rpc.pending.eraseIdx index } token .noImage
      apply deaf_reading deaf _ playfiles
      intro id
      rw [kept, thread]
      intro absurd
      cases absurd
  · cases performed

theorem read_deaf (deaf : rpc.Deaf) {complete : Bool}
    (performed : rpc.readImage complete = some next) : next.Deaf := by
  obtain ⟨token, buffer, _, taken⟩ := read_cases performed
  obtain ⟨kept, playfiles⟩ := deliver_frame { rpc with thread := .idle } token (.image buffer)
  have frame : next.thread = .idle ∧ next.playfiles = rpc.playfiles := by
    obtain rfl | ⟨_, ⟨_, rfl⟩ | ⟨_, _, rfl⟩⟩ := taken
    · exact ⟨rfl, rfl⟩
    · exact ⟨kept, playfiles⟩
    · exact ⟨kept, playfiles⟩
  apply deaf_reading deaf _ frame.2
  intro id
  rw [frame.1]
  intro absurd
  cases absurd

theorem configure_deaf (deaf : rpc.Deaf) {hasClients : Bool}
    (performed : rpc.configure hasClients = some next) : next.Deaf := by
  unfold configure at performed
  split at performed
  · split at performed
    · cases performed
      have begun := begin_deaf deaf .control hasClients
      constructor
      · intro id waits
        cases waits
        unfold beginCall
        split
        · refine ⟨Nat.lt_succ_self _, _, Function.update_self _ _ _, rfl, rfl, ?_⟩
          intro result returned
          cases returned
        · refine ⟨Nat.lt_succ_self _, _, Function.update_self _ _ _, rfl, rfl, ?_⟩
          intro result returned
          cases returned
          rfl
      · exact begun.sent
    · cases performed
      exact deaf
  · cases performed

theorem resume_deaf (deaf : rpc.Deaf) (performed : rpc.resume = some next) :
    next.Deaf ∧ next.playfiles = rpc.playfiles ++ if rpc.playing then [0] else [] := by
  obtain ⟨id, pos, thread, returned, rfl⟩ := resume_cases performed
  obtain ⟨_, call, found, unanswered⟩ := deaf.waits id thread
  rw [found] at returned
  have result := unanswered.phase _ (Option.some.inj returned)
  cases result
  have sent : rpc.playfiles ++ (if rpc.playing then [playPosition (-1)] else []) =
      rpc.playfiles ++ if rpc.playing then [0] else [] := rfl
  refine ⟨?_, sent⟩
  constructor
  · intro other absurd
    cases absurd
  · intro pos member
    dsimp only at member
    rw [sent] at member
    cases List.mem_append.mp member with
    | inl old => exact deaf.sent pos old
    | inr new =>
        split at new
        · exact List.mem_singleton.mp new
        · cases new

theorem step_deaf (step : RpcStep) (deaf : rpc.Deaf) (performed : rpc.perform step = some next) :
    next.Deaf := by
  cases step with
  | begin kind hasClients =>
      cases performed
      exact begin_deaf deaf kind hasClients
  | wait id answer => exact wait_deaf deaf performed
  | remove id => exact remove_deaf deaf performed
  | finish id => exact finish_deaf deaf performed
  | arrive reply =>
      cases performed
      exact ⟨deaf.waits, deaf.sent⟩
  | process index => exact process_deaf deaf performed
  | read complete => exact read_deaf deaf performed
  | play playing =>
      cases performed
      exact ⟨deaf.waits, deaf.sent⟩
  | configure hasClients => exact configure_deaf deaf performed
  | resume => exact (resume_deaf deaf performed).1

theorem start_deaf : start.Deaf := by
  constructor
  · intro id absurd
    cases absurd
  · intro pos absurd
    cases absurd

theorem follow_deaf (steps : List RpcStep) (deaf : rpc.Deaf)
    (followed : Machine.follow perform rpc steps = some next) : next.Deaf := by
  induction steps generalizing rpc with
  | nil =>
      cases followed
      exact deaf
  | cons step steps induction =>
      obtain ⟨middle, performed, followed⟩ := Option.bind_eq_some_iff.mp followed
      exact induction (step_deaf step deaf performed) followed

/-! ## The answer -/

/-- The server thread asks for the position, and the answer of a client has arrived while
the call still waits. -/
def AnsweredInTime (rpc : Rpc) (id : Nat) (position : Int) : Prop :=
  rpc.thread = .configuring id ∧ ∃ call token, rpc.calls id = some call ∧ call.phase = .waiting ∧
    call.token = some token ∧ ClientReply.result token position ∈ rpc.pending

theorem milliseconds_zero_iff (position : Int) :
    position.tdiv 1000 = 0 ↔ position.natAbs < 1000 := by
  rw [← Int.natAbs_eq_zero, Int.natAbs_tdiv]
  change position.natAbs / 1000 = 0 ↔ position.natAbs < 1000
  omega

/-- Whatever happens until the server thread goes on, the new client is sent the position
of the answer exactly if that is within the first second. -/
theorem start_position_iff : ∀ (steps more : List RpcStep) (asked ready sent : Rpc) (id : Nat)
    (position : Int), Machine.follow perform start steps = some asked →
    asked.AnsweredInTime id position → Machine.follow perform asked more = some ready →
    ready.thread = .configuring id → ready.playing = true → ready.resume = some sent →
    (sent.playfiles = ready.playfiles ++ [position.tdiv 1000] ↔ position.natAbs < 1000) := by
  intro steps more asked ready sent id position reached _ followed _ playing resumed
  have deaf := follow_deaf more (follow_deaf steps start_deaf reached) followed
  have zero := (resume_deaf deaf resumed).2
  rw [playing, if_pos rfl] at zero
  rw [zero, List.append_cancel_left_eq, ← milliseconds_zero_iff]
  constructor
  · intro same
    exact (List.singleton_inj.mp same).symm
  · intro same
    rw [same]

/-- A file is being played, and a client that is connected answers at once. -/
def lateViewer : List RpcStep := [.play true, .configure true, .arrive (.result 2 5000)]

def callEnds : List RpcStep := [.wait 0 false, .remove 0, .finish 0]

theorem start_position_first_second :
    ∃ sent, Machine.follow perform start
        ([.play true, .configure true, .arrive (.result 2 900)] ++ callEnds ++ [.resume]) = some sent ∧
      sent.playfiles = [(900 : Int).tdiv 1000] := by
  refine ⟨_, rfl, ?_⟩
  exact (start_position_iff [.play true, .configure true, .arrive (.result 2 900)] callEnds _ _ _ 0
    900 rfl ⟨rfl, _, 2, rfl, rfl, rfl, List.mem_singleton_self _⟩ rfl rfl rfl rfl).mpr (by decide)

theorem start_position_lost :
    ∃ asked sent, Machine.follow perform start lateViewer = some asked ∧
      asked.AnsweredInTime 0 5000 ∧
      Machine.follow perform asked (callEnds ++ [.resume]) = some sent ∧ sent.playfiles = [0] ∧
      sent.playfiles ≠ [(5000 : Int).tdiv 1000] := by
  refine ⟨_, _, rfl, ⟨rfl, _, 2, rfl, rfl, rfl, List.mem_singleton_self _⟩, rfl, rfl, ?_⟩
  decide

end Rpc
end Xineliboutput.Server
