import Suspend.Stream.Thread

/-!
# What a panic leaves in the channel pointer

`stream_poll` puts the previous pointer back when the poll returns, not when a
panic leaves it.  After the unwinding `CHANNEL` is what it was at the panic,
and that is what it was before the `poll_next` only if it was null both times.
-/

namespace Suspend.Stream

open Suspend.Transition

universe u

/-- A poll that a panic has left: its slot, `CHANNEL` before the `poll_next`,
and `CHANNEL` after the unwinding. -/
structure Unwinding where
  slot : Nat
  before : Option Nat
  after : Option Nat
  deriving DecidableEq, Repr

/-- A send that has not panicked, with the slot and the stream of the innermost
poll. -/
structure Delivery (α : Type u) where
  poll : Option (Nat × Nat)
  item : Sent α
  deriving DecidableEq, Repr

/-- The streams of one thread, with the polls left by a panic and the sends
that have not panicked. -/
structure Unwound (α : Type u) where
  streams : Streams α := {}
  left : List Unwinding := []
  accepted : List (Delivery α) := []
  deriving DecidableEq, Repr

namespace Unwound

variable {α : Type u}

def leaves (u : Unwound α) (after : Option Nat) : Label α → List Unwinding
  | .unwind => u.streams.thread.frames.head?.toList.map fun top => ⟨top.slot, top.prev, after⟩
  | _ => []

def accepts (u : Unwound α) : Label α → List (Delivery α)
  | .send scope value =>
      if (u.streams.thread.send ⟨scope, value⟩).2 then []
      else
        [⟨u.streams.thread.frames.head?.map fun top => (top.slot, top.owner.stream),
          ⟨scope, value⟩⟩]
  | _ => []

def step : Step (Unwound α) (Label α) := fun u label =>
  (Streams.step u.streams label).map fun next =>
    { streams := next
      left := u.left ++ u.leaves next.thread.channel label
      accepted := u.accepted ++ u.accepts label }

/-- A panic leaves the innermost poll with `CHANNEL` null, as it was before
that poll. -/
def restores (u : Unwound α) : Label α → Bool
  | .unwind =>
      u.streams.thread.channel.isNone &&
        u.streams.thread.frames.head?.all fun top => top.prev.isNone
  | _ => true

/-- What was sent is in the slot of the poll that it was sent in, has been
returned by its stream, or was lost with the poll. -/
def Arrives (u : Unwound α) (sent : Delivery α) : Prop :=
  ∃ slot stream, sent.poll = some (slot, stream) ∧
    ((∃ frame ∈ u.streams.thread.frames, frame.slot = slot ∧ frame.owner.stream = stream ∧
        frame.item = some sent.item) ∨
      (stream, sent.item) ∈ u.streams.returned ∨ ∃ poll ∈ u.left, poll.slot = slot)

/-- Every panic has put the pointer back: a send outside of the polls panics,
one in a poll without an item does not, and what is sent arrives. -/
structure Uncorrupted (u : Unwound α) : Prop where
  restored : ∀ poll ∈ u.left, poll.after = poll.before
  refuses : u.streams.thread.frames = [] → ∀ item, (u.streams.thread.send item).2 = true
  accepts : ∀ top ∈ u.streams.thread.frames.head?, top.item = none →
    ∀ item, (u.streams.thread.send item).2 = false
  arrives : ∀ sent ∈ u.accepted, u.Arrives sent
  stray : u.streams.thread.stray = []

/-- The pointer of each poll in progress is at its own slot while that is empty,
and null once there is an item in it.  Outside of the polls it is null. -/
def Straight (channel : Option Nat) : List (Frame Owner (Sent α)) → Prop
  | [] => channel = none
  | top :: rest =>
      (channel = some top.slot ∧ top.item = none ∨ channel = none ∧ top.item.isSome = true) ∧
        Straight top.prev rest

/-- What a run whose panics put the pointer back keeps. -/
structure Kept (u : Unwound α) : Prop where
  used : ∀ frame ∈ u.streams.thread.frames, frame.slot < u.streams.thread.fresh
  distinct : (u.streams.thread.frames.map Frame.slot).Nodup
  straight : Straight u.streams.thread.channel u.streams.thread.frames
  restored : ∀ poll ∈ u.left, poll.after = poll.before
  arrives : ∀ sent ∈ u.accepted, u.Arrives sent
  stray : u.streams.thread.stray = []

variable {u next : Unwound α} {label : Label α}

theorem step_cases (step : Unwound.step u label = some next) :
    (∃ stream, label = .poll stream ∧
      next = { u with streams := { u.streams with
        thread := u.streams.thread.beginPoll { stream := stream } } }) ∨
    (∃ top rest, label = .ret ∧ u.streams.thread.frames = top :: rest ∧
      next = { u with streams := {
        thread := u.streams.thread.endPoll top rest
        returned := u.streams.returned ++
          (top.item.map fun item => (top.owner.stream, item)).toList } }) ∨
    (∃ top rest, label = .unwind ∧ u.streams.thread.frames = top :: rest ∧
      next = {
        streams := { u.streams with
          thread := u.streams.thread.unwind (Streams.markCaught rest) }
        left := u.left ++ [⟨top.slot, top.prev, u.streams.thread.channel⟩]
        accepted := u.accepted }) ∨
    ∃ scope value, label = .send scope value ∧
      next = { u with
        streams := { u.streams with thread := (u.streams.thread.send ⟨scope, value⟩).1 }
        accepted := u.accepted ++ u.accepts (.send scope value) } := by
  cases label with
  | poll stream =>
      left
      refine ⟨stream, rfl, ?_⟩
      simpa [Unwound.step, Streams.step, leaves, accepts] using step.symm
  | ret =>
      right
      left
      cases frames : u.streams.thread.frames with
      | nil => simp [Unwound.step, Streams.step, frames] at step
      | cons top rest =>
          refine ⟨top, rest, rfl, rfl, ?_⟩
          simpa [Unwound.step, Streams.step, frames, leaves, accepts] using step.symm
  | unwind =>
      right
      right
      left
      cases frames : u.streams.thread.frames with
      | nil => simp [Unwound.step, Streams.step, frames] at step
      | cons top rest =>
          refine ⟨top, rest, rfl, rfl, ?_⟩
          simpa [Unwound.step, Streams.step, frames, leaves, accepts, Thread.unwind] using step.symm
  | send scope value =>
      right
      right
      right
      refine ⟨scope, value, rfl, ?_⟩
      simpa [Unwound.step, Streams.step, leaves] using step.symm

/-- A send with the pointers straight panics over an item, or fills the empty
slot of the innermost poll. -/
theorem Kept.send_cases (kept : u.Kept) (item : Sent α) :
    (u.streams.thread.send item = (u.streams.thread, true) ∧
      ∀ top ∈ u.streams.thread.frames.head?, top.item.isSome = true) ∨
    ∃ top rest, u.streams.thread.frames = top :: rest ∧ top.item = none ∧
      u.streams.thread.send item =
        ({ u.streams.thread with
            channel := none
            frames := { top with item := some item } :: rest }, false) := by
  have straight := kept.straight
  have distinct := kept.distinct
  cases frames : u.streams.thread.frames with
  | nil =>
      rw [frames] at straight
      left
      constructor
      · simp [Thread.send, show u.streams.thread.channel = none from straight]
      · simp
  | cons top rest =>
      rw [frames] at straight distinct
      rcases straight.1 with ⟨channel, empty⟩ | ⟨channel, filled⟩
      · right
        refine ⟨top, rest, rfl, empty, ?_⟩
        have others : ∀ frame ∈ rest, frame.slot = top.slot → frame.item = none := by
          intro frame isIn same
          exact absurd (same ▸ List.mem_map_of_mem isIn) (List.nodup_cons.mp distinct).1
        simp only [Thread.send, channel, frames, Streams.writeSlot_top _ distinct]
        simpa [empty] using others
      · left
        constructor
        · simp [Thread.send, channel]
        · simpa using filled

theorem Kept.uncorrupted (kept : u.Kept) : u.Uncorrupted where
  restored := kept.restored
  refuses := by
    intro outside item
    rcases kept.send_cases item with ⟨refused, _⟩ | ⟨top, rest, frames, _⟩
    · rw [refused]
    · rw [outside] at frames
      cases frames
  accepts := by
    intro top isTop empty item
    rcases kept.send_cases item with ⟨_, filled⟩ | ⟨_, _, _, _, sent⟩
    · have isSome := filled top isTop
      rw [empty] at isSome
      cases isSome
    · rw [sent]
  arrives := kept.arrives
  stray := kept.stray

/-- What has arrived stays where it is, as long as its frame does. -/
theorem Arrives.keep {sent : Delivery α} (arrives : u.Arrives sent)
    (frames : ∀ frame ∈ u.streams.thread.frames, frame.item = some sent.item →
      (∃ kept ∈ next.streams.thread.frames, kept.slot = frame.slot ∧
          kept.owner.stream = frame.owner.stream ∧ kept.item = frame.item) ∨
        (frame.owner.stream, sent.item) ∈ next.streams.returned ∨
        ∃ poll ∈ next.left, poll.slot = frame.slot)
    (returned : ∀ item ∈ u.streams.returned, item ∈ next.streams.returned)
    (left : ∀ poll ∈ u.left, poll ∈ next.left) : next.Arrives sent := by
  obtain ⟨slot, stream, isPoll,
      ⟨frame, isIn, rfl, rfl, isItem⟩ | isReturned | ⟨poll, isLeft, same⟩⟩ :=
    arrives
  · refine ⟨_, _, isPoll, ?_⟩
    rcases frames frame isIn isItem with ⟨kept, isKept, sameSlot, sameStream, sameItem⟩ | later
    · exact .inl ⟨kept, isKept, sameSlot, sameStream, sameItem.trans isItem⟩
    · exact .inr later
  · exact ⟨slot, stream, isPoll, .inr (.inl (returned _ isReturned))⟩
  · exact ⟨slot, stream, isPoll, .inr (.inr ⟨poll, left poll isLeft, same⟩)⟩

namespace Kept

theorem init : Kept ({} : Unwound α) := by
  constructor <;> simp [Straight]

theorem poll (stream : Nat) (kept : u.Kept) :
    Kept { u with streams := { u.streams with
      thread := u.streams.thread.beginPoll { stream := stream } } } where
  used := by
    intro frame isIn
    rcases List.mem_cons.mp isIn with rfl | below
    · exact Nat.lt_succ_self _
    · exact Nat.lt_succ_of_lt (kept.used frame below)
  distinct := by
    apply List.nodup_cons.mpr
    refine ⟨?_, kept.distinct⟩
    intro isIn
    obtain ⟨frame, below, same⟩ := List.mem_map.mp isIn
    exact absurd same (Nat.ne_of_lt (kept.used frame below))
  straight := ⟨.inl ⟨rfl, rfl⟩, kept.straight⟩
  restored := kept.restored
  arrives := by
    intro sent isSent
    apply (kept.arrives sent isSent).keep
    · intro frame isIn _
      exact .inl ⟨frame, List.mem_cons_of_mem _ isIn, rfl, rfl, rfl⟩
    · exact fun _ isIn => isIn
    · exact fun _ isIn => isIn
  stray := kept.stray

theorem ret {top : Frame Owner (Sent α)} {rest : List (Frame Owner (Sent α))}
    (frames : u.streams.thread.frames = top :: rest) (kept : u.Kept) :
    Kept { u with streams := {
      thread := u.streams.thread.endPoll top rest
      returned := u.streams.returned ++
        (top.item.map fun item => (top.owner.stream, item)).toList } } := by
  obtain ⟨used, distinct, straight, restored, arrives, stray⟩ := kept
  rw [frames] at used distinct straight
  constructor
  · intro frame below
    exact used frame (List.mem_cons_of_mem _ below)
  · exact (List.nodup_cons.mp distinct).2
  · exact straight.2
  · exact restored
  · intro sent isSent
    apply (arrives sent isSent).keep
    · intro frame isIn isItem
      rw [frames] at isIn
      rcases List.mem_cons.mp isIn with rfl | below
      · right
        left
        simp [isItem]
      · exact .inl ⟨frame, below, rfl, rfl, rfl⟩
    · exact fun _ isIn => List.mem_append_left _ isIn
    · exact fun _ isIn => isIn
  · exact stray

/-- The pointer is null as it was before the poll. -/
theorem unwind {top : Frame Owner (Sent α)} {rest : List (Frame Owner (Sent α))}
    (frames : u.streams.thread.frames = top :: rest)
    (same : u.streams.thread.channel = top.prev) (kept : u.Kept) :
    Kept {
      streams := { u.streams with
        thread := u.streams.thread.unwind (Streams.markCaught rest) }
      left := u.left ++ [⟨top.slot, top.prev, u.streams.thread.channel⟩]
      accepted := u.accepted } := by
  obtain ⟨used, distinct, straight, restored, arrives, stray⟩ := kept
  rw [frames] at used distinct straight
  -- the frame in which the panic is caught keeps its slot and its item
  have marks : ∀ frame ∈ rest, ∃ kept ∈ Streams.markCaught rest, kept.slot = frame.slot ∧
      kept.owner.stream = frame.owner.stream ∧ kept.item = frame.item := by
    intro frame isIn
    cases rest with
    | nil => cases isIn
    | cons below deeper =>
        rcases List.mem_cons.mp isIn with rfl | isDeeper
        · exact ⟨_, List.mem_cons_self, rfl, rfl, rfl⟩
        · exact ⟨frame, List.mem_cons_of_mem _ isDeeper, rfl, rfl, rfl⟩
  constructor
  · intro frame isIn
    have isSlot : frame.slot ∈ rest.map Frame.slot := by
      rw [← Streams.markCaught_slots]
      exact List.mem_map_of_mem isIn
    obtain ⟨older, below, sameSlot⟩ := List.mem_map.mp isSlot
    rw [← sameSlot]
    exact used older (List.mem_cons_of_mem _ below)
  · change ((Streams.markCaught rest).map Frame.slot).Nodup
    rw [Streams.markCaught_slots]
    exact (List.nodup_cons.mp distinct).2
  · change Straight u.streams.thread.channel (Streams.markCaught rest)
    rw [same]
    cases rest with
    | nil => exact straight.2
    | cons below deeper => exact straight.2
  · intro poll isIn
    rcases List.mem_append.mp isIn with earlier | last
    · exact restored poll earlier
    · obtain rfl := List.mem_singleton.mp last
      exact same
  · intro sent isSent
    apply (arrives sent isSent).keep
    · intro frame isIn _
      rw [frames] at isIn
      rcases List.mem_cons.mp isIn with rfl | below
      · right
        right
        exact ⟨_, List.mem_append_right _ List.mem_cons_self, rfl⟩
      · exact .inl (marks frame below)
    · exact fun _ isIn => isIn
    · exact fun _ isIn => List.mem_append_left _ isIn
  · exact stray

theorem send (scope : Nat) (value : α) (kept : u.Kept) :
    Kept { u with
      streams := { u.streams with thread := (u.streams.thread.send ⟨scope, value⟩).1 }
      accepted := u.accepted ++ u.accepts (.send scope value) } := by
  rcases kept.send_cases ⟨scope, value⟩ with ⟨refused, _⟩ | ⟨top, rest, frames, empty, sent⟩
  · have nothing : u.accepts (.send scope value) = [] := by
      rw [Unwound.accepts, refused]
      rfl
    rw [refused, nothing, List.append_nil]
    exact kept
  · have one : u.accepts (.send scope value) =
        [⟨some (top.slot, top.owner.stream), ⟨scope, value⟩⟩] := by
      rw [Unwound.accepts, sent, frames]
      rfl
    rw [sent, one]
    obtain ⟨used, distinct, straight, restored, arrives, stray⟩ := kept
    rw [frames] at used distinct straight
    constructor
    · intro frame isIn
      rcases List.mem_cons.mp isIn with rfl | below
      · exact used top List.mem_cons_self
      · exact used frame (List.mem_cons_of_mem _ below)
    · exact distinct
    · exact ⟨.inr ⟨rfl, rfl⟩, straight.2⟩
    · exact restored
    · intro delivery isIn
      rcases List.mem_append.mp isIn with earlier | last
      · apply (arrives delivery earlier).keep
        · intro frame isIn isItem
          rw [frames] at isIn
          rcases List.mem_cons.mp isIn with rfl | below
          · rw [empty] at isItem
            cases isItem
          · exact .inl ⟨frame, List.mem_cons_of_mem _ below, rfl, rfl, rfl⟩
        · exact fun _ isIn => isIn
        · exact fun _ isIn => isIn
      · obtain rfl := List.mem_singleton.mp last
        exact ⟨_, _, rfl, .inl ⟨_, List.mem_cons_self, rfl, rfl, rfl⟩⟩
    · exact stray

theorem step (kept : u.Kept) (restores : u.restores label = true)
    (step : Unwound.step u label = some next) : next.Kept := by
  rcases step_cases step with ⟨stream, rfl, rfl⟩ | ⟨top, rest, rfl, frames, rfl⟩ |
    ⟨top, rest, rfl, frames, rfl⟩ | ⟨scope, value, rfl, rfl⟩
  · exact kept.poll stream
  · exact kept.ret frames
  · obtain ⟨channel, prev⟩ : u.streams.thread.channel = none ∧ top.prev = none := by
      simpa [Unwound.restores, frames] using restores
    exact kept.unwind frames (channel.trans prev.symm)
  · exact kept.send scope value

end Kept

/-! ## When a panic puts the pointer back -/

/-- The slots were handed out in order: what is pointed at is no older than the
innermost slot, and what was pointed at before that poll is older. -/
def Ordered (channel : Option Nat) : List (Frame Owner (Sent α)) → Prop
  | [] => True
  | top :: rest =>
      (∀ slot ∈ channel, top.slot ≤ slot) ∧ (∀ slot ∈ top.prev, slot < top.slot) ∧
        (∀ below ∈ rest.head?, below.slot < top.slot) ∧ Ordered top.prev rest

/-- Slots and pointers are older than the next slot, and in order. -/
structure Aged (u : Unwound α) : Prop where
  channel : ∀ slot ∈ u.streams.thread.channel, slot < u.streams.thread.fresh
  top : ∀ top ∈ u.streams.thread.frames.head?, top.slot < u.streams.thread.fresh
  ordered : Ordered u.streams.thread.channel u.streams.thread.frames

theorem Ordered.map {channel : Option Nat} {frames : List (Frame Owner (Sent α))}
    {change : Frame Owner (Sent α) → Frame Owner (Sent α)}
    (slot : ∀ frame, (change frame).slot = frame.slot)
    (prev : ∀ frame, (change frame).prev = frame.prev) (ordered : Ordered channel frames) :
    Ordered channel (frames.map change) := by
  induction frames generalizing channel with
  | nil => trivial
  | cons top rest inductionHypothesis =>
      obtain ⟨younger, older, below, ordered⟩ := ordered
      rw [List.map_cons, Ordered, slot, prev]
      refine ⟨younger, older, ?_, inductionHypothesis ordered⟩
      intro frame isBelow
      obtain ⟨source, isSource, rfl⟩ : ∃ source ∈ rest.head?, change source = frame := by
        simpa using isBelow
      rw [slot]
      exact below source isSource

/-- Only the innermost pointer is read, and nothing is older than null. -/
theorem Ordered.null {channel : Option Nat} {frames : List (Frame Owner (Sent α))}
    (ordered : Ordered channel frames) : Ordered none frames := by
  cases frames with
  | nil => trivial
  | cons top rest => exact ⟨by simp, ordered.2⟩

namespace Aged

theorem init : Aged ({} : Unwound α) := by
  constructor <;> simp [Ordered]

theorem step (aged : u.Aged) (step : Unwound.step u label = some next) : next.Aged := by
  obtain ⟨channel, isTop, ordered⟩ := aged
  rcases step_cases step with ⟨stream, rfl, rfl⟩ | ⟨top, rest, rfl, frames, rfl⟩ |
    ⟨top, rest, rfl, frames, rfl⟩ | ⟨scope, value, rfl, rfl⟩
  · constructor
    · rintro slot ⟨rfl⟩
      exact Nat.lt_succ_self _
    · rintro frame ⟨rfl⟩
      exact Nat.lt_succ_self _
    · refine ⟨?_, channel, isTop, ordered⟩
      rintro slot ⟨rfl⟩
      exact Nat.le_refl _
  · rw [frames] at isTop ordered
    obtain ⟨_, older, below, ordered⟩ := ordered
    have fresh := isTop top rfl
    constructor
    · intro slot isSlot
      exact Nat.lt_trans (older slot isSlot) fresh
    · intro frame isBelow
      exact Nat.lt_trans (below frame isBelow) fresh
    · exact ordered
  · rw [frames] at isTop ordered
    obtain ⟨younger, older, below, ordered⟩ := ordered
    have fresh := isTop top rfl
    constructor
    · exact channel
    · intro frame isFrame
      cases rest with
      | nil => cases isFrame
      | cons caught deeper =>
          obtain rfl := Option.some.inj isFrame
          exact Nat.lt_trans (below caught rfl) fresh
    · cases rest with
      | nil => trivial
      | cons caught deeper =>
          refine ⟨?_, ordered.2⟩
          intro slot isSlot
          exact Nat.le_trans (Nat.le_of_lt (below caught rfl)) (younger slot isSlot)
  · cases isChannel : u.streams.thread.channel with
    | none =>
        have same : (u.streams.thread.send ⟨scope, value⟩).1 = u.streams.thread := by
          simp [Thread.send, isChannel]
        rw [same]
        exact ⟨channel, isTop, ordered⟩
    | some slot =>
        have sent : (u.streams.thread.send ⟨scope, value⟩).1.frames =
            u.streams.thread.frames.map fun frame =>
              if frame.slot = slot then { frame with item := some ⟨scope, value⟩ } else frame := by
          simp [Thread.send, isChannel, Thread.writeSlot]
        have fresh : (u.streams.thread.send ⟨scope, value⟩).1.fresh = u.streams.thread.fresh := by
          simp [Thread.send, isChannel]
        have null : (u.streams.thread.send ⟨scope, value⟩).1.channel = none := by
          simp [Thread.send, isChannel]
        constructor
        · rw [null]
          simp
        · rw [sent, fresh]
          intro frame isFrame
          obtain ⟨source, isSource, rfl⟩ : ∃ source ∈ u.streams.thread.frames.head?,
              (if source.slot = slot then { source with item := some ⟨scope, value⟩ }
                else source) = frame := by
            simpa using isFrame
          have older := isTop source isSource
          split_ifs <;> exact older
        · rw [sent, null]
          apply ordered.null.map
          · intro frame
            split_ifs <;> rfl
          · intro frame
            split_ifs <;> rfl

theorem of_reachable (reachable : Reachable Unwound.step {} u) : u.Aged :=
  reachable.invariant init fun _ _ _ aged _ step => aged.step step

end Aged

/-- A panic puts the pointer back exactly if it was null and is. -/
theorem Aged.restored_iff {top : Frame Owner (Sent α)} {rest : List (Frame Owner (Sent α))}
    (frames : u.streams.thread.frames = top :: rest) (aged : u.Aged) :
    u.streams.thread.channel = top.prev ↔ u.restores .unwind = true := by
  have ordered := aged.ordered
  rw [frames] at ordered
  obtain ⟨younger, older, _⟩ := ordered
  simp only [restores, frames, List.head?_cons, Option.all_some, Bool.and_eq_true,
    Option.isNone_iff_eq_none]
  constructor
  · intro same
    cases isPrev : top.prev with
    | none => exact ⟨same.trans isPrev, rfl⟩
    | some slot =>
        have isYounger := younger slot (same.trans isPrev)
        have isOlder := older slot isPrev
        exact absurd isOlder (Nat.not_lt.mpr isYounger)
  · rintro ⟨null, prev⟩
    exact null.trans prev.symm

end Unwound

/-- As long as every panic leaves its poll with the pointer null, and null
before, it does no harm; and each panic puts the pointer back exactly then. -/
theorem panics_restore {α : Type u} :
    (∀ u : Unwound α, ReachableUnder Unwound.step (fun u label => u.restores label = true) {} u →
      u.Uncorrupted) ∧
    ∀ u next : Unwound α, Reachable Unwound.step {} u → Unwound.step u .unwind = some next →
      ((∀ poll ∈ next.left.getLast?, poll.after = poll.before) ↔ u.restores .unwind = true) := by
  constructor
  · intro u reachable
    have kept : u.Kept := reachable.invariant Unwound.Kept.init
      fun _ _ _ kept restores step => kept.step restores step
    exact kept.uncorrupted
  · intro u next reachable step
    rcases Unwound.step_cases step with ⟨_, isLabel, _⟩ | ⟨_, _, isLabel, _⟩ |
      ⟨top, rest, _, frames, rfl⟩ | ⟨_, _, isLabel, _⟩
    · cases isLabel
    · cases isLabel
    · rw [← (Unwound.Aged.of_reachable reachable).restored_iff frames]
      simp
    · cases isLabel

/-- A nested stream whose generator sends and then panics, polled by a generator
that has sent its own item. -/
theorem panics_restore_nested : ∃ u ∈ runFrom (guarded Unwound.step Unwound.restores)
    ({} : Unwound Nat) [.poll 0, .send 0 7, .poll 1, .send 1 8, .unwind, .ret],
    u.left = [⟨1, none, none⟩] ∧ u.streams.returned = [(0, ⟨0, 7⟩)] ∧ u.Uncorrupted := by
  obtain ⟨u, ran, left, returned⟩ : ∃ u ∈ runFrom (guarded Unwound.step Unwound.restores)
      ({} : Unwound Nat) [.poll 0, .send 0 7, .poll 1, .send 1 8, .unwind, .ret],
      u.left = [⟨1, none, none⟩] ∧ u.streams.returned = [(0, ⟨0, 7⟩)] := by
    decide
  exact ⟨u, ran, left, returned, panics_restore.1 u (reachableUnder_of_runFrom ran)⟩

/-- A generator that panics before it has sent leaves the pointer at its slot,
and a send outside of the polls writes there. -/
theorem panic_leaves_pointer :
    ¬ ∀ u : Unwound Nat, Reachable Unwound.step {} u → u.Uncorrupted := by
  intro always
  obtain ⟨u, ran, strays⟩ : ∃ u ∈ runFrom Unwound.step ({} : Unwound Nat)
      [.poll 0, .unwind, .send 0 7], u.streams.thread.stray = [⟨0, 7⟩] := by
    decide
  have nothing := (always u (reachable_of_runFrom ran)).stray
  rw [strays] at nothing
  cases nothing

end Suspend.Stream
