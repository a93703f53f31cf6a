import Suspend.Stream.Thread

/-!
# What a stream yields

A generator is an `async` block that sends values, awaits other futures and
iterates over nested streams.  A suspended generator is the rest of its
program, so that polling it is a function from programs to programs; the items
that it passes on travel through the thread's channel pointer only.
-/

namespace Suspend.Stream

universe u

/-- What the body of a loop over a nested stream does with an item: send a
value and await it, drop the item, or end the block with an error (`item?`). -/
inductive Handled (α : Type u) where
  | resend (value : α)
  | discard
  | fail (error : α)

/-- `AsyncStreamState`. -/
inductive Status where
  | init
  | poll
  | complete
  deriving DecidableEq, Repr

/-- The rest of a generator.  `flush` is an `AsyncStreamFlush` that is being
awaited, `other` a future that is pending for some more polls, `iterate` a loop
over the items of a nested stream.  `done` is the end of the block; the wrapper
of `try_stream_fn` then sends the error that the block has returned, if any. -/
inductive Gen (α : Type u) where
  | done (error : Option α)
  | send (value : α) (rest : Gen α)
  | flush (first : Bool) (rest : Gen α)
  | other (polls : Nat) (rest : Gen α)
  | iterate (status : Status) (inner : Gen α) (body : α → Handled α) (rest : Gen α)

/-- An `AsyncStream`; a complete one has dropped its future. -/
structure AsyncStream (α : Type u) where
  status : Status := .init
  gen : Gen α

/-- The result of polling a generator. -/
inductive Polled (α : Type u) where
  | pending (gen : Gen α)
  | ready
  | panic

/-- The result of `poll_next`. -/
inductive Next (α : Type u) where
  | pending
  | ready (item : Option α)
  | panic
  deriving DecidableEq, Repr

variable {α : Type u}

/-- `stream_poll` of a generator that has been suspended or is complete. -/
def streamPoll (poll : Thread Unit α → Option (Thread Unit α × Polled α)) (th : Thread Unit α) :
    Option (Thread Unit α × Option α × Polled α) :=
  (poll (th.beginPoll ())).map fun
    | (th, .panic) => (th.unwind th.frames.tail, none, .panic)
    | (th, result) =>
        match th.frames with
        | top :: rest => (th.endPoll top rest, top.item, result)
        | [] => (th, none, result)

/-- `AsyncStream::poll_next`, for a poll of the generator inside. -/
def pollNext (poll : Gen α → Thread Unit α → Option (Thread Unit α × Polled α))
    (stream : AsyncStream α) (th : Thread Unit α) :
    Option (Thread Unit α × AsyncStream α × Next α) :=
  match stream.status with
  | .complete => some (th, stream, .ready none)
  | .init | .poll =>
      (streamPoll (poll stream.gen) th).map fun
        | (th, item, .ready) => (th, ⟨.complete, .done none⟩, .ready item)
        | (th, item, .pending gen) =>
            (th, ⟨.poll, gen⟩, if item.isSome then .ready item else .pending)
        | (th, _, .panic) => (th, stream, .panic)

/-- One poll of a generator, up to its next suspension.  `none` means that the
fuel is used up. -/
def Gen.poll : Nat → Gen α → Thread Unit α → Option (Thread Unit α × Polled α)
  | 0, _, _ => none
  | _ + 1, .done none, th => some (th, .ready)
  | _ + 1, .done (some error), th =>
      let (th, panicked) := th.send error
      some (th, if panicked then .panic else .ready)
  | fuel + 1, .send value rest, th =>
      let (th, panicked) := th.send value
      if panicked then some (th, .panic) else poll fuel (.flush true rest) th
  | fuel + 1, .flush first rest, th =>
      -- `AsyncStreamFlush::poll`
      if first || !th.flush then some (th, .pending (.flush false rest)) else poll fuel rest th
  | fuel + 1, .other 0 rest, th => poll fuel rest th
  | _ + 1, .other (polls + 1) rest, th => some (th, .pending (.other polls rest))
  | fuel + 1, .iterate status inner body rest, th =>
      (pollNext (poll fuel) ⟨status, inner⟩ th).bind fun
        | (th, stream, .pending) =>
            some (th, .pending (.iterate stream.status stream.gen body rest))
        | (th, _, .ready none) => poll fuel rest th
        | (th, stream, .ready (some item)) =>
            match body item with
            | .resend value =>
                poll fuel (.send value (.iterate stream.status stream.gen body rest)) th
            | .discard => poll fuel (.iterate stream.status stream.gen body rest) th
            | .fail error => poll fuel (.done (some error)) th
        | (th, _, .panic) => some (th, .panic)

/-- A bound on the steps that a generator has still to take. -/
def Gen.weight : Gen α → Nat
  | .done none => 1
  | .done (some _) => 2
  | .send _ rest => rest.weight + 3
  | .flush first rest => rest.weight + first.toNat + 1
  | .other polls rest => rest.weight + polls + 1
  | .iterate _ inner _ rest => 4 * inner.weight + rest.weight + 2

/-- `poll_next` with fuel for the whole of the generator. -/
def AsyncStream.next (stream : AsyncStream α) (th : Thread Unit α) :
    Option (Thread Unit α × AsyncStream α × Next α) :=
  pollNext (Gen.poll stream.gen.weight) stream th

/-- Polling a stream some number of times. -/
def AsyncStream.nexts : Nat → AsyncStream α → Thread Unit α →
    Option (Thread Unit α × AsyncStream α × List (Next α))
  | 0, stream, th => some (th, stream, [])
  | count + 1, stream, th =>
      (stream.next th).bind fun (th, stream, result) =>
        (nexts count stream th).map fun (th, stream, results) => (th, stream, result :: results)

/-! ## The program of a generator -/

/-- The values that a loop sends for the items of a nested stream, and then the
values of the rest of the block. -/
def handle (body : α → Handled α) (rest : List α) : List α → List α
  | [] => rest
  | item :: items =>
      match body item with
      | .resend value => value :: handle body rest items
      | .discard => handle body rest items
      | .fail error => [error]

/-- The values that a generator sends, in program order, with the error that
ends it. -/
def Gen.items : Gen α → List α
  | .done error => error.toList
  | .send value rest => value :: rest.items
  | .flush _ rest => rest.items
  | .other _ rest => rest.items
  | .iterate .complete _ _ rest => rest.items
  | .iterate _ inner body rest => handle body rest.items inner.items

def AsyncStream.items (stream : AsyncStream α) : List α :=
  match stream.status with
  | .complete => []
  | .init | .poll => stream.gen.items

/-! ## One poll -/

namespace Thread

/-- Live slots have been handed out. -/
def Sane (th : Thread Unit α) : Prop :=
  ∀ frame ∈ th.frames, frame.slot < th.fresh

/-- The innermost poll has the slot `slot`, and `item` in it; the pointer is
gone as soon as something has been sent. -/
structure Polling (slot : Nat) (prev : Option Nat) (rest : List (Frame Unit α)) (item : Option α)
    (th : Thread Unit α) : Prop where
  frames : th.frames = { owner := (), slot := slot, item := item, prev := prev } :: rest
  channel : th.channel = if item.isSome then none else some slot
  alone : ∀ frame ∈ rest, frame.slot ≠ slot
  sane : th.Sane

variable {th : Thread Unit α} {slot : Nat} {prev : Option Nat} {rest : List (Frame Unit α)}

theorem Polling.begin (sane : th.Sane) :
    (th.beginPoll ()).Polling th.fresh th.channel th.frames none where
  frames := rfl
  channel := rfl
  alone := fun frame isIn => Nat.ne_of_lt (sane frame isIn)
  sane := by
    intro frame isIn
    rcases List.mem_cons.mp isIn with rfl | below
    · exact Nat.lt_succ_self _
    · exact Nat.lt_succ_of_lt (sane frame below)

theorem Polling.flush (polling : th.Polling slot prev rest none) : th.flush = true := by
  rw [Thread.flush, polling.channel]
  rfl

/-- A send into the innermost slot. -/
theorem Polling.send (polling : th.Polling slot prev rest none) (value : α) :
    (th.send value).2 = false ∧ (th.send value).1.Polling slot prev rest (some value) := by
  obtain ⟨frames, channel, alone, sane⟩ := polling
  have unchanged : writeSlot slot value rest = rest := by
    apply (List.map_congr_left _).trans rest.map_id
    intro frame isIn
    rw [if_neg (alone frame isIn)]
    rfl
  have filled : (th.send value).1.frames =
      { owner := (), slot := slot, item := some value, prev := prev } :: rest := by
    simp only [Thread.send, channel, frames]
    unfold writeSlot at unchanged ⊢
    simp [unchanged]
  refine ⟨?_, filled, by simp [Thread.send, channel], alone, ?_⟩
  · have others : rest.any (fun frame => frame.slot = slot && frame.item.isSome) = false := by
      apply List.any_eq_false.mpr
      intro frame isIn
      simp [alone frame isIn]
    simpa [Thread.send, channel, frames] using others
  · intro frame isIn
    rw [filled] at isIn
    have fresh : (th.send value).1.fresh = th.fresh := by simp [Thread.send, channel]
    rw [fresh]
    rcases List.mem_cons.mp isIn with rfl | below
    · exact sane { owner := (), slot := slot, item := none, prev := prev }
        (by rw [frames]; exact List.mem_cons_self)
    · exact sane frame (by rw [frames]; exact List.mem_cons_of_mem _ below)

end Thread

/-- What a poll has left of the program, when it has put `item` into its slot. -/
def Gen.Progress (gen : Gen α) (item : Option α) : Polled α → Prop
  | .pending next => gen.items = item.toList ++ next.items ∧ next.weight < gen.weight
  | .ready => gen.items = item.toList
  | .panic => False

/-- What `poll_next` has left of a stream. -/
def AsyncStream.Progress (stream next : AsyncStream α) : Next α → Prop
  | .pending => stream.items = next.items ∧ next.gen.weight < stream.gen.weight
  | .ready (some item) =>
      stream.items = item :: next.items ∧ next.gen.weight < stream.gen.weight
  | .ready none => stream.items = [] ∧ next.status = .complete
  | .panic => False

/-- A way of polling answers for a generator, whatever thread it runs on. -/
def Gen.Answers (poll : Gen α → Thread Unit α → Option (Thread Unit α × Polled α))
    (gen : Gen α) : Prop :=
  ∀ slot prev rest th, th.Polling slot prev rest none →
    ∃ after item result, poll gen th = some (after, result) ∧
      after.Polling slot prev rest item ∧ gen.Progress item result

theorem Gen.weight_pos (gen : Gen α) : 0 < gen.weight := by
  cases gen with
  | done error => cases error <;> simp [Gen.weight]
  | _ => simp [Gen.weight]

theorem Gen.weight_of_items {gen : Gen α} (sends : gen.items ≠ []) : 1 < gen.weight := by
  cases gen with
  | done error =>
      cases error with
      | none => exact absurd rfl sends
      | some error => exact Nat.lt_succ_self 1
  | send value rest | flush first rest | other polls rest | iterate status rest body last =>
      have positive := rest.weight_pos
      simp only [Gen.weight]
      omega

/-- What a generator goes on as makes progress for it. -/
theorem Gen.Progress.trans {gen next : Gen α} {item : Option α} {result : Polled α}
    (progress : next.Progress item result) (same : gen.items = next.items)
    (less : next.weight < gen.weight) : gen.Progress item result := by
  cases result with
  | panic => exact progress.elim
  | ready => exact same.trans progress
  | pending rest => exact ⟨same.trans progress.1, Nat.lt_trans progress.2 less⟩

/-- A poll that has put its slot back leaves the thread as it found it. -/
theorem Thread.Polling.restores {th after : Thread Unit α} {item : Option α}
    (polling : after.Polling th.fresh th.channel th.frames item) :
    ∃ restored : Thread Unit α, restored =
        after.endPoll { owner := (), slot := th.fresh, item := item, prev := th.channel }
          th.frames ∧
      restored.channel = th.channel ∧ restored.frames = th.frames ∧ restored.Sane := by
  refine ⟨_, rfl, rfl, rfl, ?_⟩
  intro frame isIn
  apply polling.sane frame
  rw [polling.frames]
  exact List.mem_cons_of_mem _ isIn

/-- `poll_next` leaves the thread as it found it. -/
theorem pollNext_spec {poll : Gen α → Thread Unit α → Option (Thread Unit α × Polled α)}
    (stream : AsyncStream α) {th : Thread Unit α} (answers : stream.gen.Answers poll)
    (sane : th.Sane) :
    ∃ after next result, pollNext poll stream th = some (after, next, result) ∧
      after.channel = th.channel ∧ after.frames = th.frames ∧ after.Sane ∧
      stream.Progress next result := by
  obtain ⟨after, item, result, polled, polling, progress⟩ :=
    answers _ _ _ _ (Thread.Polling.begin sane)
  obtain ⟨restored, isRestored, channel, frames, saneAfter⟩ := polling.restores
  rcases stream with ⟨_ | _ | _, gen⟩
  case complete =>
    exact ⟨th, _, _, rfl, rfl, rfl, sane, rfl, rfl⟩
  all_goals
    simp only at polled progress
    simp only [pollNext, streamPoll, polled, Option.map_some]
    cases result with
    | panic => exact progress.elim
    | ready =>
        simp only [polling.frames, ← isRestored]
        refine ⟨restored, _, _, rfl, channel, frames, saneAfter, ?_⟩
        cases item with
        | none => exact ⟨progress, rfl⟩
        | some item =>
            refine ⟨progress, Gen.weight_of_items ?_⟩
            rw [progress]
            simp
    | pending rest =>
        simp only [polling.frames, ← isRestored]
        refine ⟨restored, _, _, rfl, channel, frames, saneAfter, ?_⟩
        cases item <;> exact progress

theorem Gen.items_iterate (status : Status) (inner : Gen α) (body : α → Handled α)
    (rest : Gen α) :
    (Gen.iterate status inner body rest).items =
      handle body rest.items (AsyncStream.items ⟨status, inner⟩) := by
  cases status <;> rfl

/-- A poll of a generator answers if it has fuel for its weight. -/
theorem Gen.poll_answers {fuel : Nat} {gen : Gen α} (enough : gen.weight ≤ fuel) :
    gen.Answers (Gen.poll fuel) := by
  induction fuel generalizing gen with
  | zero =>
      have positive := gen.weight_pos
      omega
  | succ fuel ih =>
      intro slot prev rest th polling
      -- the poll goes on with `next` in the same slot
      have goesOn (next : Gen α) (th : Thread Unit α) (polling : th.Polling slot prev rest none)
          (same : gen.items = next.items) (less : next.weight < gen.weight) :
          ∃ after item result, Gen.poll fuel next th = some (after, result) ∧
            after.Polling slot prev rest item ∧ gen.Progress item result := by
        obtain ⟨after, item, result, polled, left, progress⟩ :=
          ih (Nat.le_of_lt_succ (Nat.lt_of_lt_of_le less enough)) slot prev rest th polling
        exact ⟨after, item, result, polled, left, progress.trans same less⟩
      cases gen with
      | done error =>
          cases error with
          | none => exact ⟨th, none, .ready, rfl, polling, rfl⟩
          | some error =>
              obtain ⟨fine, sent⟩ := polling.send error
              refine ⟨_, some error, .ready, ?_, sent, rfl⟩
              simp [Gen.poll, fine]
      | send value next =>
          obtain ⟨fine, sent⟩ := polling.send value
          -- the flush is pending on its first poll
          obtain ⟨left, rfl⟩ : ∃ left, fuel = left + 1 :=
            Nat.exists_eq_add_one.mpr (by simp only [Gen.weight] at enough; omega)
          refine ⟨_, some value, .pending (.flush false next), ?_, sent, rfl, ?_⟩
          · simp [Gen.poll, fine]
          · simp [Gen.weight]
      | flush first next =>
          cases first with
          | true =>
              refine ⟨th, none, .pending (.flush false next), rfl, polling, rfl, ?_⟩
              simp [Gen.weight]
          | false =>
              simp only [Gen.poll, polling.flush, Bool.not_true, Bool.or_false]
              exact goesOn next th polling rfl (by simp [Gen.weight])
      | other polls next =>
          cases polls with
          | zero => exact goesOn next th polling rfl (by simp [Gen.weight])
          | succ polls =>
              refine ⟨th, none, .pending (.other polls next), rfl, polling, rfl, ?_⟩
              simp [Gen.weight]
      | iterate status inner body next =>
          have inside : inner.Answers (Gen.poll fuel) :=
            ih (by simp only [Gen.weight] at enough; omega)
          obtain ⟨after, stream, result, polled, channel, frames, sane, progress⟩ :=
            pollNext_spec ⟨status, inner⟩ inside polling.sane
          have polling : after.Polling slot prev rest none :=
            ⟨frames.trans polling.frames, channel.trans polling.channel, polling.alone, sane⟩
          have items := Gen.items_iterate status inner body next
          have itemsAfter := Gen.items_iterate stream.status stream.gen body next
          simp only [Gen.poll, polled, Option.bind_some]
          rcases result with _ | (_ | item) | _
          case panic => exact progress.elim
          case pending =>
            obtain ⟨same, less⟩ : _ ∧ stream.gen.weight < inner.weight := progress
            refine ⟨after, none, _, rfl, polling, ?_, ?_⟩
            · rw [items, same]
              exact itemsAfter.symm
            · simp only [Gen.weight]
              omega
          case ready.none =>
            refine goesOn next after polling ?_ (by simp only [Gen.weight]; omega)
            rw [items, progress.1]
            rfl
          case ready.some =>
            obtain ⟨same, less⟩ : _ ∧ stream.gen.weight < inner.weight := progress
            rw [same] at items
            cases handled : body item with
            | resend value =>
                simp only [handled]
                apply goesOn (.send value (.iterate stream.status stream.gen body next)) _ polling
                · simp only [items, handle, handled, Gen.items, itemsAfter]
                · simp only [Gen.weight]
                  omega
            | discard =>
                simp only [handled]
                apply goesOn (.iterate stream.status stream.gen body next) _ polling
                · simp only [items, handle, handled, itemsAfter]
                · simp only [Gen.weight]
                  omega
            | fail error =>
                simp only [handled]
                apply goesOn (.done (some error)) _ polling
                · simp only [items, handle, handled, Gen.items, Option.toList]
                · simp only [Gen.weight]
                  omega

/-! ## All polls -/

/-- `poll_next` with its own fuel. -/
theorem AsyncStream.next_spec (stream : AsyncStream α) {th : Thread Unit α} (sane : th.Sane) :
    ∃ after next result, stream.next th = some (after, next, result) ∧
      after.channel = th.channel ∧ after.frames = th.frames ∧ after.Sane ∧
      stream.Progress next result :=
  pollNext_spec stream (Gen.poll_answers (Nat.le_refl _)) sane

/-- A complete stream stays complete. -/
theorem AsyncStream.nexts_complete (gen : Gen α) (count : Nat) (th : Thread Unit α) :
    AsyncStream.nexts count ⟨.complete, gen⟩ th =
      some (th, ⟨.complete, gen⟩, List.replicate count (.ready none)) := by
  induction count with
  | zero => rfl
  | succ count ih =>
      simp only [AsyncStream.nexts, AsyncStream.next, pollNext, Option.bind_some, ih,
        Option.map_some]
      rfl

/-- The item that a poll has yielded. -/
def Next.item : Next α → Option α
  | .ready item => item
  | .pending | .panic => none

/-- More padding than is taken makes no difference. -/
theorem take_padded (results : List (Next α)) (pad : Next α) (count : Nat) :
    (results ++ List.replicate (count + 1) pad).take count =
      (results ++ List.replicate count pad).take count := by
  rw [List.take_append, List.take_append, List.take_replicate, List.take_replicate]
  congr 2
  omega

/-- Polling a stream any number of times yields its items in program order,
each once, and then `Ready(None)` for ever; the thread's pointer is each time
left as it was found. -/
theorem stream_yields (stream : AsyncStream α) (th : Thread Unit α) (sane : th.Sane) :
    ∃ results : List (Next α), Next.ready none ∉ results ∧
      results.filterMap Next.item = stream.items ∧
      ∀ count, ∃ after next,
        stream.nexts count th =
          some (after, next, (results ++ List.replicate count (Next.ready none)).take count) ∧
        after.channel = th.channel ∧ after.frames = th.frames := by
  induction bound : stream.gen.weight using Nat.strongRecOn generalizing stream th with
  | ind weight ih =>
      obtain ⟨after, next, result, polled, channel, frames, saneAfter, progress⟩ :=
        stream.next_spec sane
      have goesOn (less : next.gen.weight < stream.gen.weight) (notEnd : result ≠ .ready none)
          (items : stream.items = result.item.toList ++ next.items) :
          ∃ results : List (Next α), Next.ready none ∉ results ∧
            results.filterMap Next.item = stream.items ∧
            ∀ count, ∃ after next,
              stream.nexts count th =
                some (after, next, (results ++ List.replicate count (Next.ready none)).take count) ∧
              after.channel = th.channel ∧ after.frames = th.frames := by
        obtain ⟨results, notIn, yields, runs⟩ := ih _ (bound ▸ less) next after saneAfter rfl
        refine ⟨result :: results, ?_, ?_, ?_⟩
        · simp [notIn, Ne.symm notEnd]
        · rw [items, ← yields]
          rw [List.filterMap_cons]
          cases result.item <;> rfl
        · intro count
          cases count with
          | zero => exact ⟨th, stream, rfl, rfl, rfl⟩
          | succ count =>
              obtain ⟨last, left, ran, sameChannel, sameFrames⟩ := runs count
              refine ⟨last, left, ?_, sameChannel.trans channel, sameFrames.trans frames⟩
              simp only [AsyncStream.nexts, polled, Option.bind_some, ran, Option.map_some,
                List.cons_append, List.take_succ_cons, take_padded]
      rcases result with _ | (_ | item) | _
      case panic => exact progress.elim
      case pending => exact goesOn progress.2 (by simp) progress.1
      case ready.some => exact goesOn progress.2 (by simp) progress.1
      case ready.none =>
        obtain ⟨ends, status⟩ := progress
        refine ⟨[], by simp, ends.symm, ?_⟩
        intro count
        cases count with
        | zero => exact ⟨th, stream, rfl, rfl, rfl⟩
        | succ count =>
            obtain ⟨_, gen⟩ := next
            obtain rfl : _ = Status.complete := status
            refine ⟨after, ⟨.complete, gen⟩, ?_, channel, frames⟩
            simp only [AsyncStream.nexts, polled, Option.bind_some, AsyncStream.nexts_complete,
              Option.map_some, List.nil_append, List.take_replicate, Nat.min_self]
            rfl

/-- Two items of a nested stream are sent on, and then a third of the block's
own. -/
def nested : AsyncStream Nat :=
  ⟨.init, .iterate .init (.send 1 (.other 2 (.send 2 (.done none)))) .resend
    (.send 3 (.done (some 4)))⟩

theorem stream_yields_nested :
    ∃ results : List (Next Nat), Next.ready none ∉ results ∧
      results.filterMap Next.item = [1, 2, 3, 4] ∧
      ∀ count, ∃ after next,
        nested.nexts count {} =
          some (after, next, (results ++ List.replicate count (Next.ready none)).take count) ∧
        after.channel = none ∧ after.frames = [] :=
  stream_yields nested {} (by simp [Thread.Sane])

example : (nested.nexts 8 {}).map (fun r => r.2.2) =
    some [.ready (some 1), .pending, .pending, .ready (some 2), .ready (some 3),
      .ready (some 4), .ready none, .ready none] := by
  decide

end Suspend.Stream
