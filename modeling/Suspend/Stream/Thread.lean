import Suspend.Transition.Core
import Mathlib.Tactic.Common

/-!
# The thread's channel pointer

Items of an `AsyncStream` travel through one thread-local pointer.  Each
`stream_poll` keeps the item slot in its own stack frame, points `CHANNEL` at
it and puts the previous pointer back when the poll returns; `stream_send`
writes through whatever `CHANNEL` points at.  A pointer is modelled by the
number of the slot, and no slot is used twice.
-/

namespace Suspend.Stream

open Suspend.Transition

universe u v

/-- The frame of a `stream_poll`: for whom it polls, the slot `item`, and
`prev_ptr`. -/
structure Frame (σ : Type u) (α : Type v) where
  owner : σ
  slot : Nat
  item : Option α := none
  prev : Option Nat
  deriving DecidableEq, Repr

/-- One thread: `CHANNEL`, the polls in progress with the innermost first, the
next unused slot, and what has been written to slots that are gone. -/
structure Thread (σ : Type u) (α : Type v) where
  channel : Option Nat := none
  frames : List (Frame σ α) := []
  fresh : Nat := 0
  stray : List α := []
  deriving DecidableEq, Repr

namespace Thread

variable {σ : Type u} {α : Type v}

/-- The beginning of `stream_poll`. -/
def beginPoll (owner : σ) (th : Thread σ α) : Thread σ α :=
  { th with
    channel := some th.fresh
    frames := { owner := owner, slot := th.fresh, prev := th.channel } :: th.frames
    fresh := th.fresh + 1 }

/-- The end of `stream_poll` in the frame `top`, whose item it returns. -/
def endPoll (top : Frame σ α) (rest : List (Frame σ α)) (th : Thread σ α) : Thread σ α :=
  { th with channel := top.prev, frames := rest }

/-- A panic that leaves `stream_poll` does not put the pointer back. -/
def unwind (rest : List (Frame σ α)) (th : Thread σ α) : Thread σ α :=
  { th with frames := rest }

/-- What `replace(value)` does to the slot that is pointed at. -/
def writeSlot (slot : Nat) (value : α) (frames : List (Frame σ α)) : List (Frame σ α) :=
  frames.map fun frame => if frame.slot = slot then { frame with item := some value } else frame

/-- `stream_send`, and whether it panics: without a channel, or over an item
that is still there. -/
def send (value : α) (th : Thread σ α) : Thread σ α × Bool :=
  match th.channel with
  | none => (th, true)
  | some slot =>
      let isLive := th.frames.any fun frame => frame.slot = slot
      ({ th with
          channel := none
          frames := writeSlot slot value th.frames
          stray := if isLive then th.stray else th.stray ++ [value] },
        th.frames.any fun frame => frame.slot = slot && frame.item.isSome)

/-- `stream_flush`. -/
def flush (th : Thread σ α) : Bool :=
  th.channel.isSome

end Thread

/-! ## Whose slot an item reaches -/

/-- An item, with the stream whose scope it was sent through. -/
structure Sent (α : Type v) where
  scope : Nat
  value : α
  deriving DecidableEq, Repr

/-- The stream that is polled, and whether a poll nested in this one has
panicked and been caught. -/
structure Owner where
  stream : Nat
  caught : Bool := false
  deriving DecidableEq, Repr

/-- The streams of one thread: the polls in progress, and the items that
`poll_next` has returned with the stream that it returned them for. -/
structure Streams (α : Type v) where
  thread : Thread Owner (Sent α) := {}
  returned : List (Nat × Sent α) := []
  deriving DecidableEq, Repr

/-- What the code of a thread may do: poll a stream, return from the innermost
poll, leave it by a panic, or send through a scope, whichever it holds. -/
inductive Label (α : Type v) where
  | poll (stream : Nat)
  | ret
  | unwind
  | send (scope : Nat) (value : α)
  deriving DecidableEq, Repr

namespace Streams

variable {α : Type v}

/-- The panic is caught in the frame below, if anywhere on the thread. -/
def markCaught : List (Frame Owner (Sent α)) → List (Frame Owner (Sent α))
  | [] => []
  | frame :: rest => { frame with owner := { frame.owner with caught := true } } :: rest

def step : Step (Streams α) (Label α) := fun s label =>
  match label, s.thread.frames with
  | .poll stream, _ => some { s with thread := s.thread.beginPoll { stream := stream } }
  | .ret, top :: rest =>
      some {
        thread := s.thread.endPoll top rest
        returned := s.returned ++ (top.item.map fun item => (top.owner.stream, item)).toList }
  | .unwind, _ :: rest => some { s with thread := s.thread.unwind (markCaught rest) }
  | .send scope value, _ => some { s with thread := (s.thread.send ⟨scope, value⟩).1 }
  | .ret, [] | .unwind, [] => none

/-- Every item stands in a slot of its own stream, has been returned by its own
stream, and none went to a slot that was gone. -/
structure ReachOwn (s : Streams α) : Prop where
  slots : ∀ frame ∈ s.thread.frames, ∀ item, frame.item = some item →
    item.scope = frame.owner.stream
  returned : ∀ item ∈ s.returned, item.2.scope = item.1
  stray : s.thread.stray = []

/-- A send is careful if it fails for want of a channel, or if the innermost
poll is that of the scope's own stream and no poll nested in it has panicked. -/
def careful (s : Streams α) : Label α → Bool
  | .send scope _ =>
      s.thread.channel.isNone ||
        match s.thread.frames with
        | top :: _ => top.owner.stream = scope && !top.owner.caught
        | [] => false
  | _ => true

instance (s : Streams α) : Decidable s.ReachOwn :=
  decidable_of_iff
    ((∀ frame ∈ s.thread.frames, ∀ item ∈ frame.item.toList, item.scope = frame.owner.stream) ∧
      (∀ item ∈ s.returned, item.2.scope = item.1) ∧ s.thread.stray.length = 0)
    (by
      constructor
      · rintro ⟨slots, returned, stray⟩
        exact ⟨by simpa using slots, returned, List.length_eq_zero_iff.mp stray⟩
      · rintro ⟨slots, returned, stray⟩
        exact ⟨by simpa using slots, returned, by rw [stray]; rfl⟩)

/-- Where `CHANNEL` may point in a frame: at its own slot or nowhere, unless a
nested poll has panicked, and then at no live slot. -/
def Points (channel : Option Nat) : List (Frame Owner (Sent α)) → Prop
  | [] => True
  | top :: rest =>
      (∀ slot ∈ channel, (top.owner.caught = false → slot = top.slot) ∧
        (top.owner.caught = true → slot ∉ (top :: rest).map Frame.slot)) ∧
      Points top.prev rest

/-- The live slots are distinct, and the pointers point as they should. -/
structure Wired (s : Streams α) : Prop where
  used : ∀ frame ∈ s.thread.frames, frame.slot < s.thread.fresh
  distinct : (s.thread.frames.map Frame.slot).Nodup
  points : Points s.thread.channel s.thread.frames

variable {s next : Streams α}

@[simp]
theorem markCaught_slots (frames : List (Frame Owner (Sent α))) :
    (markCaught frames).map Frame.slot = frames.map Frame.slot := by
  cases frames <;> rfl

theorem writeSlot_of_notMem {slot : Nat} (value : Sent α) {frames : List (Frame Owner (Sent α))}
    (gone : slot ∉ frames.map Frame.slot) : Thread.writeSlot slot value frames = frames := by
  apply (List.map_congr_left _).trans frames.map_id
  intro frame isIn
  have differs : frame.slot ≠ slot := by
    rintro rfl
    exact gone (List.mem_map_of_mem isIn)
  rw [if_neg differs]
  rfl

/-- Writing through a pointer to the innermost slot fills that slot only. -/
theorem writeSlot_top (value : Sent α) {top : Frame Owner (Sent α)}
    {rest : List (Frame Owner (Sent α))} (distinct : ((top :: rest).map Frame.slot).Nodup) :
    Thread.writeSlot top.slot value (top :: rest) = { top with item := some value } :: rest := by
  have gone : top.slot ∉ rest.map Frame.slot := (List.nodup_cons.mp distinct).1
  have others := writeSlot_of_notMem value gone
  unfold Thread.writeSlot at others ⊢
  rw [List.map_cons, others, if_pos rfl]

namespace Wired

theorem initial : Wired ({} : Streams α) where
  used := by simp
  distinct := by simp
  points := trivial

theorem poll (stream : Nat) (wired : s.Wired) :
    Wired { s with thread := s.thread.beginPoll { stream := stream } } where
  used := by
    intro frame isIn
    rcases List.mem_cons.mp isIn with rfl | below
    · exact Nat.lt_succ_self _
    · exact Nat.lt_succ_of_lt (wired.used frame below)
  distinct := by
    apply List.nodup_cons.mpr
    refine ⟨?_, wired.distinct⟩
    intro isIn
    obtain ⟨frame, below, same⟩ := List.mem_map.mp isIn
    have older := wired.used frame below
    simp only at same
    omega
  points := by
    refine ⟨?_, wired.points⟩
    rintro slot ⟨rfl⟩
    exact ⟨fun _ => rfl, fun caught => by cases caught⟩

theorem ret {top : Frame Owner (Sent α)} {rest : List (Frame Owner (Sent α))}
    (frames : s.thread.frames = top :: rest) (returned : List (Nat × Sent α)) (wired : s.Wired) :
    Wired { thread := s.thread.endPoll top rest, returned := returned } := by
  obtain ⟨used, distinct, points⟩ := wired
  rw [frames] at used distinct points
  constructor
  · intro frame below
    exact used frame (List.mem_cons_of_mem _ below)
  · exact (List.nodup_cons.mp distinct).2
  · exact points.2

/-- After a panic the pointer still points at the slot that is gone. -/
theorem unwind {top : Frame Owner (Sent α)} {rest : List (Frame Owner (Sent α))}
    (frames : s.thread.frames = top :: rest) (wired : s.Wired) :
    Wired { s with thread := s.thread.unwind (markCaught rest) } := by
  obtain ⟨used, distinct, points⟩ := wired
  rw [frames] at used distinct points
  obtain ⟨gone, distinct⟩ := List.nodup_cons.mp distinct
  constructor
  · intro frame isIn
    have isSlot : frame.slot ∈ rest.map Frame.slot := by
      rw [← markCaught_slots]
      exact List.mem_map_of_mem isIn
    obtain ⟨older, below, same⟩ := List.mem_map.mp isSlot
    rw [← same]
    exact used older (List.mem_cons_of_mem _ below)
  · change ((markCaught rest).map Frame.slot).Nodup
    rw [markCaught_slots]
    exact distinct
  · cases rest with
    | nil => trivial
    | cons below rest =>
        refine ⟨?_, points.2.2⟩
        intro slot isSlot
        refine ⟨fun never => (Bool.noConfusion never), fun _ => ?_⟩
        obtain ⟨own, dead⟩ := points.1 slot isSlot
        cases caught : top.owner.caught with
        | true => exact fun isIn => dead caught (List.mem_cons_of_mem _ isIn)
        | false =>
            rw [own caught]
            exact gone

end Wired

/-- A careful send fails for want of a channel, or fills the innermost slot. -/
theorem send_careful {scope : Nat} {value : α} (wired : s.Wired)
    (isCareful : s.careful (.send scope value) = true) :
    (s.thread.send ⟨scope, value⟩).1 = s.thread ∨
      ∃ top rest, s.thread.frames = top :: rest ∧ top.owner.stream = scope ∧
        (s.thread.send ⟨scope, value⟩).1 =
          { s.thread with
            channel := none
            frames := { top with item := some ⟨scope, value⟩ } :: rest } := by
  cases channel : s.thread.channel with
  | none => simp [Thread.send, channel]
  | some slot =>
      right
      obtain ⟨_, distinct, points⟩ := wired
      cases frames : s.thread.frames with
      | nil => simp [careful, channel, frames] at isCareful
      | cons top rest =>
          simp only [careful, channel, frames, Option.isNone_some, Bool.false_or,
            Bool.and_eq_true, decide_eq_true_eq, Bool.not_eq_true'] at isCareful
          obtain ⟨own, uncaught⟩ := isCareful
          rw [channel, frames] at points
          rw [frames] at distinct
          obtain rfl := (points.1 slot rfl).1 uncaught
          refine ⟨top, rest, rfl, own, ?_⟩
          simp only [Thread.send, channel, frames, writeSlot_top _ distinct]
          simp

/-- A careless send reaches a slot that is gone, or the slot of another
stream. -/
theorem send_careless {scope : Nat} {value : α} (wired : s.Wired)
    (careless : s.careful (.send scope value) = false) :
    ¬ ReachOwn { s with thread := (s.thread.send ⟨scope, value⟩).1 } := by
  rintro ⟨slots, _, stray⟩
  obtain ⟨_, distinct, points⟩ := wired
  cases channel : s.thread.channel with
  | none => simp [careful, channel] at careless
  | some slot =>
      by_cases live : slot ∈ s.thread.frames.map Frame.slot
      · cases frames : s.thread.frames with
        | nil => simp [frames] at live
        | cons top rest =>
            rw [channel, frames] at points
            rw [frames] at live distinct
            obtain ⟨own, dead⟩ := points.1 slot rfl
            have uncaught : top.owner.caught = false := by
              by_contra caught
              exact dead (by simpa using caught) live
            obtain rfl := own uncaught
            have foreign : top.owner.stream ≠ scope := by
              simpa [careful, channel, frames, uncaught] using careless
            have reached := slots { top with item := some ⟨scope, value⟩ }
              (by simp [Thread.send, channel, frames, writeSlot_top _ distinct]) _ rfl
            exact foreign reached.symm
      · have gone : s.thread.frames.any (fun frame => frame.slot = slot) = false := by
          simpa [List.mem_map] using live
        simp [Thread.send, channel, gone] at stray

theorem step_wired (wired : s.Wired) {label : Label α} (isCareful : s.careful label = true)
    (step : Streams.step s label = some next) : next.Wired := by
  cases label with
  | poll stream =>
      cases step
      exact wired.poll stream
  | ret =>
      cases frames : s.thread.frames with
      | nil => simp [Streams.step, frames] at step
      | cons top rest =>
          simp only [Streams.step, frames, Option.some.injEq] at step
          subst step
          exact wired.ret frames _
  | unwind =>
      cases frames : s.thread.frames with
      | nil => simp [Streams.step, frames] at step
      | cons top rest =>
          simp only [Streams.step, frames, Option.some.injEq] at step
          subst step
          exact wired.unwind frames
  | send scope value =>
      simp only [Streams.step, Option.some.injEq] at step
      subst step
      rcases send_careful wired isCareful with same | ⟨top, rest, frames, _, filled⟩
      · rw [same]
        exact wired
      · rw [filled]
        obtain ⟨used, distinct, points⟩ := wired
        rw [frames] at used distinct points
        constructor
        · intro frame isIn
          rcases List.mem_cons.mp isIn with rfl | below
          · exact used top List.mem_cons_self
          · exact used frame (List.mem_cons_of_mem _ below)
        · exact distinct
        · exact ⟨fun slot never => (Option.not_mem_none slot never).elim, points.2⟩

theorem step_reachOwn (wired : s.Wired) (reach : s.ReachOwn) {label : Label α}
    (isCareful : s.careful label = true) (step : Streams.step s label = some next) :
    next.ReachOwn := by
  obtain ⟨slots, returned, stray⟩ := reach
  cases label with
  | poll stream =>
      cases step
      refine ⟨?_, returned, stray⟩
      intro frame isIn item isItem
      rcases List.mem_cons.mp isIn with rfl | below
      · cases isItem
      · exact slots frame below item isItem
  | ret =>
      cases frames : s.thread.frames with
      | nil => simp [Streams.step, frames] at step
      | cons top rest =>
          simp only [Streams.step, frames, Option.some.injEq] at step
          subst step
          rw [frames] at slots
          refine ⟨fun frame below => slots frame (List.mem_cons_of_mem _ below), ?_, stray⟩
          intro item isIn
          rcases List.mem_append.mp isIn with earlier | last
          · exact returned item earlier
          · obtain ⟨sent, isItem, rfl⟩ := by simpa using last
            exact slots top List.mem_cons_self sent isItem
  | unwind =>
      cases frames : s.thread.frames with
      | nil => simp [Streams.step, frames] at step
      | cons top rest =>
          simp only [Streams.step, frames, Option.some.injEq] at step
          subst step
          rw [frames] at slots
          refine ⟨?_, returned, stray⟩
          intro frame isIn item isItem
          cases rest with
          | nil => cases isIn
          | cons below rest =>
              rcases List.mem_cons.mp isIn with rfl | deeper
              · exact slots below (by simp) item isItem
              · exact slots frame (by simp [deeper]) item isItem
  | send scope value =>
      simp only [Streams.step, Option.some.injEq] at step
      subst step
      rcases send_careful wired isCareful with same | ⟨top, rest, frames, own, filled⟩
      · rw [same]
        exact ⟨slots, returned, stray⟩
      · rw [filled]
        rw [frames] at slots
        refine ⟨?_, returned, stray⟩
        intro frame isIn item isItem
        rcases List.mem_cons.mp isIn with rfl | below
        · obtain rfl := Option.some.inj isItem
          exact own.symm
        · exact slots frame (List.mem_cons_of_mem _ below) item isItem

theorem wired_of_reachable
    (reachable : ReachableUnder step (fun s label => s.careful label = true) ({} : Streams α) s) :
    s.Wired :=
  reachable.invariant Wired.initial fun _ _ _ wired isCareful step =>
    step_wired wired isCareful step

end Streams

/-- A generator that captures the scope of the stream around it sends into its
own stream's slot, and `poll_next` returns the item for the wrong stream. -/
theorem item_reaches_other_stream :
    ¬ ∀ s : Streams Nat, Reachable Streams.step {} s → s.ReachOwn := by
  intro always
  obtain ⟨s, ran, foreign⟩ : ∃ s ∈ runFrom Streams.step ({} : Streams Nat)
      [.poll 0, .poll 1, .send 0 7, .ret], ¬ s.ReachOwn := by
    decide
  exact foreign (always s (reachable_of_runFrom ran))

/-- As long as every send is careful, items reach their own stream; and the
first send that is not reaches another one. -/
theorem items_reach_own {α : Type v} {s : Streams α}
    (reachable : ReachableUnder Streams.step (fun s label => s.careful label = true) {} s) :
    s.ReachOwn ∧ ∀ scope value, s.careful (.send scope value) = false →
      ¬ Streams.ReachOwn { s with thread := (s.thread.send ⟨scope, value⟩).1 } := by
  constructor
  · exact ReachableUnder.invariant_with (fun _ => Streams.wired_of_reachable)
      ⟨by simp, by simp, rfl⟩
      (fun _ _ _ wired reach isCareful step => Streams.step_reachOwn wired reach isCareful step)
      reachable
  · intro scope value careless
    exact Streams.send_careless (Streams.wired_of_reachable reachable) careless

/-- Two nested streams that send through their own scopes. -/
theorem items_reach_own_nested :
    ∃ s ∈ runFrom (guarded Streams.step Streams.careful) ({} : Streams Nat)
        [.poll 0, .poll 1, .send 1 7, .ret, .send 0 8, .ret],
      s.returned = [(1, ⟨1, 7⟩), (0, ⟨0, 8⟩)] ∧ s.ReachOwn := by
  obtain ⟨s, ran, items⟩ : ∃ s ∈ runFrom (guarded Streams.step Streams.careful)
      ({} : Streams Nat) [.poll 0, .poll 1, .send 1 7, .ret, .send 0 8, .ret],
      s.returned = [(1, ⟨1, 7⟩), (0, ⟨0, 8⟩)] := by
    decide
  exact ⟨s, ran, items, (items_reach_own (reachableUnder_of_runFrom ran)).1⟩

end Suspend.Stream
