import Xineliboutput.Server.ControlChannel

/-!
# Runs of the control channel

What is on its way is all of the messages that got the lock, or, once the channel was stopped,
a first part of them. So the server handles the messages of all threads in the order of the
lock, none twice and none torn.
-/

namespace Xineliboutput.Server

open Xineliboutput.Foundation Xineliboutput.Foundation.Machine

set_option autoImplicit false

variable {Writer : Type}

/-- The messages in the order in which they got the lock. -/
def lockedOf : LinkLabel Writer → Option (Writer × ControlMessage)
  | .lock writer message => some (writer, message)
  | _ => none

def locked (labels : List (LinkLabel Writer)) : List (Writer × ControlMessage) :=
  labels.filterMap lockedOf

def receivedOf : LinkLabel Writer → Option UInt8
  | .receive byte => some byte
  | _ => none

def received (labels : List (LinkLabel Writer)) : List UInt8 := labels.filterMap receivedOf

def lockedBytes (labels : List (LinkLabel Writer)) : List UInt8 :=
  (locked labels).flatMap fun entry => entry.2.encode

theorem locked_snoc (labels : List (LinkLabel Writer)) (label : LinkLabel Writer) :
    locked (labels ++ [label]) = locked labels ++ (lockedOf label).toList := by
  rw [locked, List.filterMap_append]
  cases same : lockedOf label <;> simp [locked, same]

theorem received_snoc (labels : List (LinkLabel Writer)) (label : LinkLabel Writer) :
    received (labels ++ [label]) = received labels ++ (receivedOf label).toList := by
  rw [received, List.filterMap_append]
  cases same : receivedOf label <;> simp [received, same]

theorem locked_same (labels : List (LinkLabel Writer)) {label : LinkLabel Writer}
    (unlocks : lockedOf label = none) : locked (labels ++ [label]) = locked labels := by
  rw [locked_snoc, unlocks]
  exact List.append_nil _

theorem received_same (labels : List (LinkLabel Writer)) {label : LinkLabel Writer}
    (unreads : receivedOf label = none) : received (labels ++ [label]) = received labels := by
  rw [received_snoc, unreads]
  exact List.append_nil _

namespace ControlLink

def remaining (link : ControlLink Writer) : List UInt8 :=
  link.holder.elim [] fun holder => holder.piece ++ holder.more.flatten

/-- Where the bytes of all messages are. Nothing is sent behind a message that is torn. -/
inductive Flows (sent all : List UInt8) (link : ControlLink Writer) : Prop where
  | intact (whole : sent ++ link.wire ++ link.remaining = all)
  | torn (stopped : link.running = false)
      (unchecked : ∀ holder, link.holder = some holder → holder.checked = false)
      (part : sent ++ link.wire <+: all)

variable {sent all : List UInt8} {link next : ControlLink Writer}

theorem Flows.part (flows : link.Flows sent all) : sent ++ link.wire <+: all := by
  cases flows with
  | intact whole => exact ⟨link.remaining, whole⟩
  | torn _ _ part => exact part

theorem Flows.whole (flows : link.Flows sent all) (running : link.running = true) :
    sent ++ link.wire ++ link.remaining = all := by
  cases flows with
  | intact whole => exact whole
  | torn stopped _ _ =>
      rw [stopped] at running
      cases running

theorem Flows.giveUp (flows : link.Flows sent all) {holder : LockHolder Writer}
    (unchecked : holder.checked = false) :
    ({ link with running := false, holder := some holder } : ControlLink Writer).Flows sent all := by
  refine .torn rfl ?_ flows.part
  intro other same
  cases same
  exact unchecked

theorem Flows.rehold (flows : link.Flows sent all) {holder : Option (LockHolder Writer)}
    (same : holder.elim [] (fun holder => holder.piece ++ holder.more.flatten) = link.remaining)
    (unchecked : link.running = false → ∀ holder', holder = some holder' → holder'.checked = true →
      ∃ before, link.holder = some before ∧ before.checked = true) :
    ({ link with holder } : ControlLink Writer).Flows sent all := by
  cases flows with
  | intact whole =>
      refine .intact ?_
      rw [← whole]
      exact congrArg (sent ++ link.wire ++ ·) same
  | torn stopped idle part =>
      refine .torn stopped ?_ part
      intro holder' is
      apply Bool.eq_false_iff.mpr
      intro checks
      obtain ⟨before, was, checked⟩ := unchecked stopped holder' is checks
      rw [idle before was] at checked
      cases checked

variable [DecidableEq Writer]

def Inner : LinkLabel Writer → Prop
  | .lock _ _ => False
  | .receive _ => False
  | .imageTimeout => False
  | .drop => False
  | _ => True

theorem inner_step {label : LinkLabel Writer} (inner : Inner label)
    (ran : link.perform label = some next) (flows : link.Flows sent all) :
    next.Flows sent all ∧ next.programs = link.programs ∧ next.reader = link.reader := by
  cases label with
  | lock writer message => cases inner
  | receive byte => cases inner
  | imageTimeout => cases inner
  | drop => cases inner
  | stop =>
      cases ran
      refine ⟨?_, rfl, rfl⟩
      cases flows with
      | intact whole => exact .intact whole
      | torn _ unchecked part => exact .torn rfl unchecked part
  | check =>
      obtain ⟨holder, held, ran⟩ := Option.bind_eq_some_iff.mp ran
      split_ifs at ran with allowed
      cases ran
      refine ⟨flows.rehold (by rw [remaining, held]; rfl) ?_, rfl, rfl⟩
      intro stopped
      rw [stopped] at allowed
      exact absurd allowed.2.2 Bool.false_ne_true
  | abort =>
      obtain ⟨holder, held, ran⟩ := Option.bind_eq_some_iff.mp ran
      split_ifs at ran with allowed
      cases ran
      obtain ⟨_, unchecked, stopped⟩ := allowed
      have gone : ({ link with running := false, holder := some { holder with piece := [] } } :
          ControlLink Writer).Flows sent all := flows.giveUp unchecked
      rw [Bool.not_eq_true'] at stopped
      rw [← stopped] at gone
      exact ⟨gone, rfl, rfl⟩
  | selectFails =>
      obtain ⟨holder, held, ran⟩ := Option.bind_eq_some_iff.mp ran
      split_ifs at ran with allowed
      cases ran
      exact ⟨flows.giveUp allowed.2.1, rfl, rfl⟩
  | send count =>
      obtain ⟨holder, held, ran⟩ := Option.bind_eq_some_iff.mp ran
      split_ifs at ran with allowed
      cases ran
      refine ⟨?_, rfl, rfl⟩
      cases flows with
      | intact whole =>
          refine .intact ?_
          rw [← whole]
          simp only [remaining, held, Option.elim_some, List.append_assoc]
          rw [← List.append_assoc (holder.piece.take count), List.take_append_drop]
      | torn _ unchecked _ =>
          rw [unchecked holder held] at allowed
          exact absurd allowed.1 Bool.false_ne_true
  | again =>
      obtain ⟨holder, held, ran⟩ := Option.bind_eq_some_iff.mp ran
      split_ifs at ran with allowed
      cases ran
      refine ⟨flows.rehold (by rw [remaining, held]; rfl) ?_, rfl, rfl⟩
      intro _ other same checks
      cases same
      cases checks
  | sendFails =>
      obtain ⟨holder, held, ran⟩ := Option.bind_eq_some_iff.mp ran
      split_ifs at ran with allowed
      cases ran
      exact ⟨flows.giveUp rfl, rfl, rfl⟩
  | nextCall =>
      obtain ⟨holder, held, ran⟩ := Option.bind_eq_some_iff.mp ran
      split at ran
      · next written follows =>
          cases ran
          refine ⟨flows.rehold ?_ ?_, rfl, rfl⟩
          · rw [remaining, held, Option.elim_some, Option.elim_some, written, follows]
            rfl
          · intro _ other same checks
            cases same
            exact ⟨holder, held, checks⟩
      · cases ran
  | unlock =>
      obtain ⟨holder, held, ran⟩ := Option.bind_eq_some_iff.mp ran
      split_ifs at ran with allowed
      cases ran
      refine ⟨flows.rehold ?_ ?_, rfl, rfl⟩
      · rw [remaining, held, Option.elim_some, allowed.1, allowed.2]
        rfl
      · intro _ other none
        cases none

end ControlLink

/-! ## Runs -/

variable [DecidableEq Writer] {programs : Writer → List ControlMessage}

structure LinkInvariant (programs : Writer → List ControlMessage) (labels : List (LinkLabel Writer))
    (link : ControlLink Writer) : Prop where
  flows : link.Flows (received labels) (lockedBytes labels)
  handled : link.reader.handled = (controlReceiver.feedAll .start (received labels)).handled
  reads : link.reader.closed = false →
    link.reader = controlReceiver.feedAll .start (received labels)
  own : ∀ writer, programs writer =
    ((locked labels).filter fun entry => entry.1 = writer).map Prod.snd ++ link.programs writer

omit [DecidableEq Writer] in
theorem locked_bytes_lock (labels : List (LinkLabel Writer)) (writer : Writer)
    (message : ControlMessage) :
    lockedBytes (labels ++ [.lock writer message]) = lockedBytes labels ++ message.encode := by
  rw [lockedBytes, locked_snoc, List.flatMap_append]
  exact congrArg (lockedBytes labels ++ ·) (List.append_nil _)

theorem lock_step {labels : List (LinkLabel Writer)} {link next : ControlLink Writer}
    {writer : Writer} {message : ControlMessage} (holds : LinkInvariant programs labels link)
    (ran : link.perform (.lock writer message) = some next) :
    LinkInvariant programs (labels ++ [.lock writer message]) next := by
  obtain ⟨flows, handled, reads, own⟩ := holds
  have unread := @received_same _ labels (.lock writer message) rfl
  simp only [ControlLink.perform] at ran
  split at ran
  · next first rest free program =>
      split_ifs at ran with same
      subst same
      split at ran
      · cases ran
      · next piece more pieces =>
          cases ran
          constructor
          · rw [unread, locked_bytes_lock]
            cases flows with
            | intact whole =>
                refine .intact ?_
                rw [← whole, ControlLink.remaining, ControlLink.remaining, free,
                  ControlMessage.encode, pieces]
                simp only [Option.elim_none, Option.elim_some, List.append_nil, List.flatten_cons]
            | torn stopped _ part =>
                refine .torn stopped ?_ (part.trans (List.prefix_append _ _))
                intro holder is
                cases is
                rfl
          · rw [unread]
            exact handled
          · rw [unread]
            exact reads
          · intro other
            rw [locked_snoc, List.filter_append, List.map_append, own other, List.append_assoc]
            by_cases mine : other = writer
            · subst mine
              rw [program]
              simp [lockedOf]
            · simp [lockedOf, Ne.symm mine, Function.update_of_ne mine]
  · cases ran

theorem receive_step {labels : List (LinkLabel Writer)} {link next : ControlLink Writer}
    {byte : UInt8} (holds : LinkInvariant programs labels link)
    (ran : link.perform (.receive byte) = some next) :
    LinkInvariant programs (labels ++ [.receive byte]) next := by
  obtain ⟨flows, handled, reads, own⟩ := holds
  have unlocked := @locked_same _ labels (.receive byte) rfl
  have read : received (labels ++ [.receive byte]) = received labels ++ [byte] := received_snoc _ _
  simp only [ControlLink.perform] at ran
  split at ran
  · cases ran
  · next first wire arriving =>
      split_ifs at ran with allowed
      cases ran
      obtain ⟨rfl, opened⟩ := allowed
      have moved : received labels ++ [first] ++ wire = received labels ++ link.wire := by
        rw [arriving, List.append_assoc]
        rfl
      have fed : link.reader.feed first =
          controlReceiver.feedAll .start (received labels ++ [first]) := by
        rw [controlReceiver.feed_all_append, ← reads opened]
        rfl
      constructor
      · rw [lockedBytes, unlocked, read]
        cases flows with
        | intact whole =>
            refine .intact ?_
            rw [moved]
            exact whole
        | torn stopped unchecked part =>
            refine .torn stopped unchecked ?_
            rw [moved]
            exact part
      · rw [read, ← fed]
      · intro _
        rw [read]
        exact fed
      · rw [unlocked]
        exact own

theorem close_step {labels : List (LinkLabel Writer)} {link : ControlLink Writer}
    {label : LinkLabel Writer} (holds : LinkInvariant programs labels link)
    (unlocks : lockedOf label = none) (unreads : receivedOf label = none) :
    LinkInvariant programs (labels ++ [label])
      { link with reader := { link.reader with closed := true } } := by
  obtain ⟨flows, handled, reads, own⟩ := holds
  have unlocked := locked_same labels unlocks
  have unread := received_same labels unreads
  constructor
  · rw [lockedBytes, unlocked, unread]
    cases flows with
    | intact whole => exact .intact whole
    | torn stopped unchecked part => exact .torn stopped unchecked part
  · rw [unread]
    exact handled
  · exact fun opened => absurd opened.symm Bool.false_ne_true
  · rw [unlocked]
    exact own

theorem inner_link_step {labels : List (LinkLabel Writer)} {link next : ControlLink Writer}
    {label : LinkLabel Writer} (holds : LinkInvariant programs labels link)
    (inner : ControlLink.Inner label) (ran : link.perform label = some next) :
    LinkInvariant programs (labels ++ [label]) next := by
  obtain ⟨flows, handled, reads, own⟩ := holds
  obtain ⟨onward, left, reader⟩ := ControlLink.inner_step inner ran flows
  have unlocked : locked (labels ++ [label]) = locked labels := by
    cases label <;> first | exact locked_same _ rfl | cases inner
  have unread : received (labels ++ [label]) = received labels := by
    cases label <;> first | exact received_same _ rfl | cases inner
  constructor
  · rw [lockedBytes, unlocked, unread]
    exact onward
  · rw [reader, unread]
    exact handled
  · rw [reader, unread]
    exact reads
  · rw [unlocked, left]
    exact own

theorem link_step {labels : List (LinkLabel Writer)} {link next : ControlLink Writer}
    {label : LinkLabel Writer} (holds : LinkInvariant programs labels link)
    (ran : link.perform label = some next) : LinkInvariant programs (labels ++ [label]) next := by
  cases label with
  | lock writer message => exact lock_step holds ran
  | receive byte => exact receive_step holds ran
  | imageTimeout =>
      simp only [ControlLink.perform] at ran
      split_ifs at ran
      cases ran
      exact close_step holds rfl rfl
  | drop =>
      cases ran
      exact close_step holds rfl rfl
  | _ => exact inner_link_step holds trivial ran

theorem ready_invariant (programs : Writer → List ControlMessage) :
    LinkInvariant programs [] (.ready programs) where
  flows := .intact rfl
  handled := rfl
  reads _ := rfl
  own _ := rfl

theorem run_invariant {labels : List (LinkLabel Writer)} {link : ControlLink Writer}
    (run : Run (linkMachine programs) labels link) : LinkInvariant programs labels link := by
  induction run with
  | start initially =>
      rw [show _ = ControlLink.ready programs from initially]
      exact ready_invariant programs
  | snoc prior move ih => exact link_step ih move

end Xineliboutput.Server
