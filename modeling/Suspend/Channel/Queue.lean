import Mathlib
import Suspend.Channel.Delivery
import Suspend.Channel.OneShot

/-!
# The queue of a flushed channel

As long as the sending side goes on with the channel, the receiving side takes
out the announced values in order, and only those.  The last value published is
then in the cell or with the receiving side, until a `write` or a `flush` that
has found the other side gone takes it back.
-/

namespace Suspend.Channel

open Suspend.Transition

universe u v

variable {T : Type u} {W : Type v}

/-! ## The receiving side -/

/-- What a step of the receiving side does to the queue: nothing, or it takes
the announced value out of the cell, or withdraws the announcement of one that
it has taken.  Once the sending side has closed, the queue is empty. -/
inductive World.Moves (m : World T W) (D : RecvCell) (m' : World T W) (D' : RecvCell) : Prop
  | stay (loaded : m'.state.loaded = m.state.loaded) (taken : D'.taken = D.taken)
      (value : m'.value = m.value) (received : m'.received = m.received)
  | take (isOpen : m.receiverClosed = false) (loaded : m.state.loaded = true)
      (stays : m'.state.loaded = true) (untaken : D.taken = false) (taken : D'.taken = true)
      (received : m'.received = m.received ++ m.value.toList)
  | withdraw (taken : D.taken = true) (untaken : D'.taken = false)
      (unloaded : m'.state.loaded = false) (received : m'.received = m.received)
  | shut (closed : m.senderClosed = true) (unloaded : m.state.loaded = false)
      (stays : m'.state.loaded = false) (received : m'.received = m.received)

/-- While the sending side has not closed over a value, the receiving side
takes values under its lock only. -/
structure World.Shut (m : World T W) (D : RecvCell) : Prop where
  shut : m.senderClosed = true → m.state.loaded = false
  claims : D.claims = true → m.senderClosed = true
  unswapped : D.swapped = false

section Receiving

variable {m m' : World T W} {S : SendSections} {finalize cancels : Bool}

theorem ReadPc.loop_cells (finalize cancels : Bool) {prev : State} (waker : Option W)
    (orCancel : Bool) (unclosed : prev.active = false → prev.loaded = false) :
    let D := (ReadPc.loop (T := T) prev waker orCancel).elim (ReadPc.cell finalize)
      (ReadPc.cellAfter finalize cancels)
    D.taken = false ∧ D.claims = false ∧ D.swapped = false := by
  cases waker <;> simp only [ReadPc.loop] <;> split_ifs <;>
    simp_all [Outcome.elim, ReadPc.cell, ReadPc.cellAfter]

theorem ReadPc.isOpen {pc : ReadPc T W} (locks : Locks m S pc.sections) :
    m.receiverClosed = false := by
  have ended := locks.receiver_ended
  cases pc <;> simp_all [ReadPc.sections]

theorem World.Shut.read_step {pc : ReadPc T W} (spurious : Bool) (locks : Locks m S pc.sections)
    (points : pc.Local cancels) (shut : m.Shut (pc.cell finalize)) :
    let m' := (pc.step spurious m).1
    let D' := (pc.step spurious m).2.elim (ReadPc.cell finalize) (ReadPc.cellAfter finalize cancels)
    m.Moves (pc.cell finalize) m' D' ∧ m'.Shut D' ∧ m'.published = m.published := by
  have isOpen := ReadPc.isOpen locks
  have unclosed : m.state.active = false → m.state.loaded = false := by
    intro inactive
    rw [locks.active_eq, isOpen, Bool.or_false, Bool.not_eq_false'] at inactive
    exact shut.shut inactive
  have unset : (m.state.unset { rlock := true, wlock := true, wake := true }).active = false →
      (m.state.unset { rlock := true, wlock := true, wake := true }).loaded = false := by
    simpa using unclosed
  have taking := locks.taking
  have swaps := locks.swaps
  have stays (m' : World T W) (D' : RecvCell) (loaded : m'.state.loaded = m.state.loaded)
      (kept : m'.value = m.value ∧ m'.received = m.received ∧ m'.published = m.published ∧
        m'.senderClosed = m.senderClosed)
      (same : D'.taken = (pc.cell finalize).taken ∧ D'.claims = false ∧ D'.swapped = false) :
      m.Moves (pc.cell finalize) m' D' ∧ m'.Shut D' ∧ m'.published = m.published := by
    obtain ⟨value, received, published, closed⟩ := kept
    obtain ⟨taken, claims, swapped⟩ := same
    refine ⟨.stay loaded taken value received, ⟨?_, ?_, swapped⟩, published⟩
    · rw [closed, loaded]
      exact shut.shut
    · simp [claims]
  cases pc with
  | load waker orCancel =>
      exact stays _ _ rfl ⟨rfl, rfl, rfl, rfl⟩ (ReadPc.loop_cells _ _ _ _ unclosed)
  | swap prev =>
      obtain ⟨_, rfl, inactive, loaded⟩ := swaps prev rfl
      simp [unclosed inactive] at loaded
  | takeClosed =>
      have unswapped := shut.unswapped
      simp [ReadPc.cell] at unswapped
  | lock prev waker orCancel =>
      by_cases exchanged : m.state = prev ∧ !spurious
      · simp only [ReadPc.step, if_pos exchanged]
        exact stays _ _ (by simp [World.store, exchanged.1]) ⟨rfl, rfl, rfl, rfl⟩ ⟨rfl, rfl, rfl⟩
      · simp only [ReadPc.step, if_neg exchanged]
        exact stays _ _ rfl ⟨rfl, rfl, rfl, rfl⟩ (ReadPc.loop_cells _ _ _ _ unclosed)
  | register prev waker orCancel =>
      by_cases exchanged : m.state = prev ∧ !spurious
      · simp only [ReadPc.step, if_pos exchanged, ReadPc.registered]
        refine stays _ _ (by simp [World.store, exchanged.1]) ⟨rfl, rfl, rfl, rfl⟩ ?_
        cases waker <;> split_ifs <;> exact ⟨rfl, rfl, rfl⟩
      · simp only [ReadPc.step, if_neg exchanged]
        exact stays _ _ rfl ⟨rfl, rfl, rfl, rfl⟩ (ReadPc.loop_cells _ _ _ _ unclosed)
  | cancel prev waker =>
      by_cases exchanged : m.state = prev
      · simp only [ReadPc.step, if_pos exchanged]
        refine stays _ _ ?_ ⟨rfl, rfl, rfl, rfl⟩ ⟨rfl, rfl, rfl⟩
        simp [World.store, World.closeReceiver, exchanged]
      · simp only [ReadPc.step, if_neg exchanged]
        exact stays _ _ rfl ⟨rfl, rfl, rfl, rfl⟩ (ReadPc.loop_cells _ _ _ _ unclosed)
  | take prev =>
      have loaded := taking rfl
      have closed : m.senderClosed = true → False := fun closed => by
        simp [shut.shut closed] at loaded
      simp only [ReadPc.step]
      split_ifs
      · exact ⟨.take isOpen loaded loaded rfl rfl rfl, ⟨fun never => (closed never).elim, by
          simp [Outcome.elim, ReadPc.cell], rfl⟩, rfl⟩
      · exact ⟨.take isOpen loaded loaded rfl rfl rfl, ⟨fun never => (closed never).elim, by
          simp [Outcome.elim, ReadPc.cell], rfl⟩, rfl⟩
  | unlock prev value flushWaker =>
      have unloaded : (m.state.unset (ReadPc.unlockMask prev)).loaded = false := by
        simp [ReadPc.unlockMask]
      cases flushWaker with
      | none => exact ⟨.withdraw rfl rfl unloaded rfl,
        ⟨fun _ => unloaded, (fun never => by cases never), rfl⟩, rfl⟩
      | some waker => exact ⟨.withdraw rfl rfl unloaded rfl,
        ⟨fun _ => unloaded, (fun never => by cases never), rfl⟩, rfl⟩
  | clearPrev prev waker orCancel =>
      refine stays _ _ rfl ⟨rfl, rfl, rfl, rfl⟩ ?_
      cases waker <;> exact ⟨rfl, rfl, rfl⟩
  | release prev waker orCancel =>
      simp only [ReadPc.step]
      split_ifs with expected
      · refine stays _ _ ?_ ⟨rfl, rfl, rfl, rfl⟩ ⟨rfl, rfl, rfl⟩
        simp [World.store, expected]
      · exact stays _ _ rfl ⟨rfl, rfl, rfl, rfl⟩ ⟨rfl, rfl, rfl⟩
  | unlockOwn orCancel =>
      exact stays _ _ (by simp [ReadPc.step, World.fetchAnd]) ⟨rfl, rfl, rfl, rfl⟩
        (ReadPc.loop_cells _ _ _ _ unset)
  | unlockBare orCancel =>
      simp only [ReadPc.step]
      split_ifs
      · exact stays _ _ (by simp [World.fetchAnd]) ⟨rfl, rfl, rfl, rfl⟩ ⟨rfl, rfl, rfl⟩
      · exact stays _ _ (by simp [World.fetchAnd]) ⟨rfl, rfl, rfl, rfl⟩
          (ReadPc.loop_cells _ _ _ _ unset)
  | takeFlush | wakeFlush | wake | storeWaker | clearOwn =>
      exact stays _ _ rfl ⟨rfl, rfl, rfl, rfl⟩ ⟨rfl, rfl, rfl⟩

/-- A drop is to clear a value only where it has found the channel inactive. -/
theorem DropPc.claims_of_step {isWriter : Bool} {pc : DropPc W}
    (isClaim : (pc.step isWriter m).2.elim claims (fun _ => false) = true) :
    pc.claims = true ∨ pc.ended = false ∧ m.state.active = false := by
  cases pc with
  | lock | unlock waker | close =>
      refine .inr ⟨rfl, ?_⟩
      simp only [DropPc.step, DropPc.finish] at isClaim
      grind -linarith -ring -order -lia -ac [Outcome.elim, DropPc.claims]
  | wake waker last =>
      cases last with
      | true => exact .inl rfl
      | false => cases isClaim
  | clearValue prev =>
      exact .inl rfl
  | clearWaker | takeWaker | clearOwn | clearLast => cases isClaim

theorem World.Shut.drop_step {pc : DropPc W} {ended : Bool} (locks : Locks m S pc.recvSections)
    (shut : m.Shut { claims := pc.claims, ended := ended }) :
    let m' := (pc.step false m).1
    let D' := (pc.step false m).2.elim
      (fun pc => ({ claims := pc.claims, ended := pc.ended } : RecvCell)) fun _ => { ended := true }
    m.Moves { claims := pc.claims, ended := ended } m' D' ∧ m'.Shut D' ∧
      m'.published = m.published := by
  have closing (notEnded : pc.ended = false) (inactive : m.state.active = false) :
      m.senderClosed = true := by
    have isOpen : m.receiverClosed = false := by
      by_contra closed
      have ended := (locks.receiver_ended (by simpa using closed)).1
      simp [DropPc.recvSections, notEnded] at ended
    simpa [locks.active_eq, isOpen] using inactive
  have claims := shut.claims
  have unloaded := shut.shut
  have claimed : (pc.step false m).2.elim DropPc.claims (fun _ => false) = true →
      m.senderClosed = true := by
    intro isClaim
    rcases DropPc.claims_of_step isClaim with isClaim | ⟨notEnded, inactive⟩
    · exact claims isClaim
    · exact closing notEnded inactive
  have stays (loaded : (pc.step false m).1.state.loaded = m.state.loaded)
      (kept : (pc.step false m).1.value = m.value ∧ (pc.step false m).1.received = m.received ∧
        (pc.step false m).1.published = m.published ∧
        (pc.step false m).1.senderClosed = m.senderClosed) :
      let D' := (pc.step false m).2.elim
        (fun pc => ({ claims := pc.claims, ended := pc.ended } : RecvCell)) fun _ =>
        { ended := true }
      m.Moves { claims := pc.claims, ended := ended } (pc.step false m).1 D' ∧
        (pc.step false m).1.Shut D' ∧ (pc.step false m).1.published = m.published := by
    obtain ⟨value, received, published, closed⟩ := kept
    rw [← closed, ← loaded] at unloaded
    generalize (pc.step false m).2 = next at claimed
    cases next with
    | goto next =>
        exact ⟨.stay loaded rfl value received, ⟨unloaded, fun isClaim =>
          closed.trans (claimed isClaim), rfl⟩, published⟩
    | ret last => exact ⟨.stay loaded rfl value received,
      ⟨unloaded, (fun never => by cases never), rfl⟩, published⟩
  cases pc with
  | clearValue prev =>
      have closed := claims rfl
      refine ⟨.shut closed (unloaded closed) (unloaded closed) rfl, ⟨unloaded, fun _ => closed, ?_⟩,
        rfl⟩
      cases isWake : prev.wake <;> simp [DropPc.step, isWake, Outcome.elim]
  | clearLast =>
      have closed := claims rfl
      exact ⟨.shut closed (unloaded closed) (unloaded closed) rfl, ⟨unloaded, fun _ => closed, rfl⟩,
        rfl⟩
  | lock => exact stays (by simp [DropPc.step, World.fetchOr]) ⟨rfl, rfl, rfl, rfl⟩
  | unlock | close =>
      refine stays ?_ ⟨rfl, rfl, rfl, rfl⟩
      simp [DropPc.step, DropPc.closeSide, World.fetchAnd, World.closeReceiver]
  | wake | clearWaker | takeWaker | clearOwn => exact stays rfl ⟨rfl, rfl, rfl, rfl⟩

/-- Neither the queue nor who has closed is changed. -/
structure World.SameQueue (m m' : World T W) : Prop where
  loaded : m'.state.loaded = m.state.loaded
  value : m'.value = m.value
  received : m'.received = m.received
  published : m'.published = m.published
  senderClosed : m'.senderClosed = m.senderClosed
  receiverClosed : m'.receiverClosed = m.receiverClosed

variable {D D' D'' : RecvCell} {after : World T W}

theorem World.SameQueue.trans (same : m.SameQueue after) (still : after.SameQueue m') :
    m.SameQueue m' where
  loaded := still.loaded.trans same.loaded
  value := still.value.trans same.value
  received := still.received.trans same.received
  published := still.published.trans same.published
  senderClosed := still.senderClosed.trans same.senderClosed
  receiverClosed := still.receiverClosed.trans same.receiverClosed

theorem World.Moves.finish (moves : m.Moves D after D') (same : after.SameQueue m')
    (taken : D''.taken = D'.taken) : m.Moves D m' D'' := by
  induction moves with
  | stay loaded isTaken value received =>
      exact .stay (same.loaded.trans loaded) (taken.trans isTaken) (same.value.trans value)
        (same.received.trans received)
  | take isOpen loaded stays untaken isTaken received =>
      exact .take isOpen loaded (same.loaded.trans stays) untaken (taken.trans isTaken)
        (same.received.trans received)
  | withdraw isTaken untaken unloaded received =>
      exact .withdraw isTaken (taken.trans untaken) (same.loaded.trans unloaded)
        (same.received.trans received)
  | shut closed unloaded stays received =>
      exact .shut closed unloaded (same.loaded.trans stays) (same.received.trans received)

theorem World.Shut.keep (shut : m.Shut D) (same : m.SameQueue m')
    (claims : D'.claims = true → D.claims = true) (swapped : D'.swapped = false) : m'.Shut D' where
  shut := by
    rw [same.senderClosed, same.loaded]
    exact shut.shut
  claims isClaim := same.senderClosed.trans (shut.claims (claims isClaim))
  unswapped := swapped

theorem Receiver.Noted.sameQueue {result : PollResult T} (noted : Noted m result m') :
    m.SameQueue m' := by
  induction noted <;> exact ⟨rfl, rfl, rfl, rfl, rfl, rfl⟩

theorem Receiver.Left.cell_rests {call : ReceiveCall W} {result : PollResult T}
    {r : Receiver T W} (left : Left kind m call result m' r) :
    (r.cell kind).taken = false ∧ (r.cell kind).claims = false ∧
      (r.cell kind).swapped = false := by
  induction left with
  | @idle _ next => cases next <;> exact ⟨rfl, rfl, rfl⟩
  | _ => exact ⟨rfl, rfl, rfl⟩

theorem Receiver.finishRead_queue (kind : Kind) (call : ReceiveCall W) (result : PollResult T) :
    m.SameQueue (finishRead kind m call result).1 ∧
      ((finishRead kind m call result).2.cell kind).taken = false ∧
        ((finishRead kind m call result).2.cell kind).claims = false ∧
          ((finishRead kind m call result).2.cell kind).swapped = false :=
  ⟨(finishRead_noted kind m call result).sameQueue,
    (finishRead_left kind m call result).cell_rests⟩

theorem ReadPc.cellAfter_taken {result : PollResult T} :
    (ReadPc.cellAfter finalize cancels result).taken = false := by
  cases result <;> rfl

/-- What a step of the receiving side can do to the queue. -/
theorem World.Shut.receiver_step {kind : Kind} {spurious : Bool} {R R' : Receiver T W}
    (locks : Locks m S R.sections) (points : R.Local) (shut : m.Shut (R.cell kind))
    (step : R.Stepped kind spurious m m' R') :
    m.Moves (R.cell kind) m' (R'.cell kind) ∧ m'.Shut (R'.cell kind) ∧
      m'.published = m.published := by
  induction step with
  | read inner =>
      have kept := shut.read_step spurious locks points
      rw [inner] at kept
      exact kept
  | @readEnd call _ result _ inner =>
      have kept := shut.read_step spurious locks points
      rw [inner] at kept
      obtain ⟨moves, shut, published⟩ := kept
      obtain ⟨same, taken, claims, swapped⟩ :=
        Receiver.finishRead_queue kind call result
      refine ⟨moves.finish same (taken.trans ReadPc.cellAfter_taken.symm),
        shut.keep same ?_ swapped, same.published.trans published⟩
      rw [claims]
      exact fun never => by cases never
  | unpark isParked =>
      exact ⟨.stay rfl rfl rfl rfl, shut.keep ⟨rfl, rfl, rfl, rfl, rfl, rfl⟩
        (fun never => by cases never) rfl, rfl⟩
  | drop inner =>
      have kept := shut.drop_step locks
      rw [inner] at kept
      exact kept
  | @dropEnd next _ last after inner =>
      have kept := shut.drop_step locks
      rw [inner] at kept
      obtain ⟨moves, atEnd, published⟩ := kept
      have same : after.SameQueue { after with receiverDropped := true } :=
        ⟨rfl, rfl, rfl, rfl, rfl, rfl⟩
      cases last with
      | true => exact ⟨moves.finish same rfl, atEnd.keep same
        (fun never => by cases never) rfl, published⟩
      | false =>
          cases next with
          | connected => exact absurd rfl points
          | detached | gone => exact ⟨moves.finish same rfl,
            atEnd.keep same (fun never => by cases never) rfl, published⟩
  | @free next =>
      cases next with
      | connected => exact absurd rfl points
      | _ => exact ⟨.stay rfl rfl rfl rfl, shut.keep ⟨rfl, rfl, rfl, rfl, rfl, rfl⟩
        (fun never => by cases never) rfl, rfl⟩

/-- The beginning of a receiving call leaves the queue alone. -/
theorem Receiver.Begun.queue {kind : Kind} {handle : ReceiverHandle} {op : RecvOp W}
    {R' : Receiver T W} (begun : Begun kind m handle op m' R') :
    m.SameQueue m' ∧ (R'.cell kind).taken = false ∧ (R'.cell kind).claims = false ∧
      (R'.cell kind).swapped = false := by
  induction begun with
  | @detached op next answers remains =>
      cases next with
      | connected => exact absurd rfl remains
      | detached | gone => exact ⟨⟨rfl, rfl, rfl, rfl, rfl, rfl⟩, rfl, rfl, rfl⟩
  | poll | read | cancel | drop | leave =>
      exact ⟨⟨rfl, rfl, rfl, rfl, rfl, rfl⟩, rfl, rfl, rfl⟩

end Receiving

/-! ## The queue -/

/-- The values received are the first of those published.  While the receiving
side has not closed, only an announced value is missing. -/
structure World.Queue (m : World T W) (D : RecvCell) : Prop where
  inOrder : m.received <+: m.published
  queue : m.receiverClosed = false → m.published = m.received ++ m.pending D

/-- How the value `v`, published as number `place`, stands: it is announced in
the cell, or the receiving side has it. -/
inductive World.Stands (m : World T W) (D : RecvCell) (v : T) (place : Option Nat) : Prop
  | waits {earlier : List T} (isPlace : place = some earlier.length)
      (published : m.published = earlier ++ [v]) (received : m.received = earlier)
      (loaded : m.state.loaded = true) (untaken : D.taken = false) (value : m.value = some v)
  | taken {earlier : List T} (isPlace : place = some earlier.length)
      (published : m.published = earlier ++ [v]) (received : m.received = earlier ++ [v])
      (gone : m.state.loaded = true → D.taken = true)

/-- The value is in the cell and the receiving side has closed. -/
structure World.Left (m : World T W) (v : T) (place : Option Nat) : Prop where
  closed : m.receiverClosed = true
  value : m.value = some v
  place : ∃ earlier : List T, place = some earlier.length ∧ m.published = earlier ++ [v] ∧
    m.received = earlier

section Queue

variable {m m' : World T W} {D D' : RecvCell} {v : T} {place : Option Nat}

theorem World.Queue.receiver_step (queue : m.Queue D) (shut : m.Shut D) (shut' : m'.Shut D')
    (moves : m.Moves D m' D') (published : m'.published = m.published)
    (closed : m.receiverClosed = true → m'.receiverClosed = true) : m'.Queue D' := by
  obtain ⟨inOrder, isQueue⟩ := queue
  have unswapped := shut.unswapped
  have unswapped' := shut'.unswapped
  induction moves with
  | stay loaded taken value received =>
      constructor
      · rwa [received, published]
      · intro isOpen
        have wasOpen : m.receiverClosed = false := by grind -linarith -ring -order -lia -ac
        rw [published, received, isQueue wasOpen]
        simp [World.pending, loaded, taken, value, unswapped, unswapped']
  | take isOpen loaded stays untaken taken received =>
      have order := isQueue isOpen
      simp only [World.pending, loaded, untaken, Bool.not_false, Bool.and_true, Bool.true_or,
        if_true] at order
      constructor
      · have same : m'.received = m'.published := by rw [received, published, order]
        exact same ▸ List.prefix_rfl
      · intro _
        rw [received, published, order]
        simp [World.pending, taken, unswapped']
  | withdraw taken untaken unloaded received =>
      constructor
      · rwa [received, published]
      · intro isOpen
        have wasOpen : m.receiverClosed = false := by grind -linarith -ring -order -lia -ac
        rw [published, received, isQueue wasOpen]
        simp [World.pending, taken, unloaded, unswapped, unswapped']
  | shut isClosed unloaded stays received =>
      constructor
      · rwa [received, published]
      · intro isOpen
        have wasOpen : m.receiverClosed = false := by grind -linarith -ring -order -lia -ac
        rw [published, received, isQueue wasOpen]
        simp [World.pending, unloaded, stays, unswapped, unswapped']

theorem World.Stands.receiver_step (stands : m.Stands D v place) (isOpen : m.senderClosed = false)
    (moves : m.Moves D m' D') (published : m'.published = m.published) : m'.Stands D' v place := by
  induction moves with
  | stay loaded taken value received =>
      cases stands with
      | waits isPlace isPublished isReceived isLoaded untaken isValue =>
          exact .waits isPlace (published.trans isPublished) (received.trans isReceived)
            (loaded.trans isLoaded) (taken.trans untaken) (value.trans isValue)
      | taken isPlace isPublished isReceived gone =>
          refine .taken isPlace (published.trans isPublished) (received.trans isReceived) ?_
          rwa [loaded, taken]
  | take wasOpen loaded stays untaken taken received =>
      cases stands with
      | waits isPlace isPublished isReceived isLoaded _ isValue =>
          refine .taken isPlace (published.trans isPublished) ?_ fun _ => taken
          rw [received, isReceived, isValue, Option.toList_some]
      | taken isPlace isPublished isReceived gone =>
          rw [gone loaded] at untaken
          cases untaken
  | withdraw taken untaken unloaded received =>
      cases stands with
      | waits _ _ _ _ isUntaken _ =>
          rw [taken] at isUntaken
          cases isUntaken
      | taken isPlace isPublished isReceived gone =>
          refine .taken isPlace (published.trans isPublished) (received.trans isReceived) ?_
          rw [unloaded]
          exact fun never => by cases never
  | shut closed =>
      rw [closed] at isOpen
      cases isOpen

theorem World.Left.receiver_step (left : m.Left v place) (isOpen : m.senderClosed = false)
    (untaken : D.taken = false) (moves : m.Moves D m' D') (published : m'.published = m.published)
    (closed : m.receiverClosed = true → m'.receiverClosed = true) : m'.Left v place := by
  obtain ⟨isClosed, isValue, earlier, isPlace, isPublished, isReceived⟩ := left
  induction moves with
  | stay loaded taken value received =>
      exact ⟨closed isClosed, value.trans isValue, earlier, isPlace, published.trans isPublished,
        received.trans isReceived⟩
  | take wasOpen =>
      rw [isClosed] at wasOpen
      cases wasOpen
  | withdraw taken =>
      rw [taken] at untaken
      cases untaken
  | shut closed =>
      rw [closed] at isOpen
      cases isOpen

end Queue

/-! ## The sending side -/

section Sending

variable {m m' : World T W} {R : RecvSections} {D : RecvCell} {polled : Bool}

theorem World.Queue.keep (queue : m.Queue D) (same : m.SameQueue m') : m'.Queue D := by
  obtain ⟨loaded, value, received, published, _, closed⟩ := same
  constructor
  · rw [received, published]
    exact queue.inOrder
  · rw [closed, received, published]
    simp only [World.pending, loaded, value]
    exact queue.queue

theorem World.Queue.empty (queue : m.Queue D) (shut : m.Shut D)
    (isOpen : m.receiverClosed = false) (unloaded : m.state.loaded = false) :
    m.published = m.received := by
  rw [queue.queue isOpen]
  simp [World.pending, unloaded, shut.unswapped]

/-- A value that is no longer announced has been received. -/
theorem World.Stands.received {v : T} {place : Option Nat} (stands : m.Stands D v place)
    (unloaded : m.state.loaded = false) :
    ∃ earlier : List T, place = some earlier.length ∧ m.published = earlier ++ [v] ∧
      m.received = earlier ++ [v] := by
  cases stands with
  | waits _ _ _ loaded => simp [unloaded] at loaded
  | @taken earlier isPlace published received => exact ⟨earlier, isPlace, published, received⟩

/-- A value that the receiving side has left behind is in the cell. -/
theorem World.Stands.left {v : T} {place : Option Nat} (stands : m.Stands D v place)
    (loaded : m.state.loaded = true) (untaken : D.taken = false)
    (closed : m.receiverClosed = true) : m.Left v place := by
  cases stands with
  | waits isPlace published received _ _ value =>
      exact ⟨closed, value, _, isPlace, published, received⟩
  | taken _ _ _ gone => simp [gone loaded] at untaken

theorem World.Stands.keep {v : T} {place : Option Nat} (stands : m.Stands D v place)
    (same : m.SameQueue m') : m'.Stands D v place := by
  obtain ⟨loaded, value, received, published, _, closed⟩ := same
  cases stands with
  | waits isPlace isPublished isReceived isLoaded untaken isValue =>
      exact .waits isPlace (published.trans isPublished) (received.trans isReceived)
        (loaded.trans isLoaded) untaken (value.trans isValue)
  | taken isPlace isPublished isReceived gone =>
      exact .taken isPlace (published.trans isPublished) (received.trans isReceived)
        (loaded ▸ gone)

/-- What a write of a side that goes on does to the queue. -/
theorem World.Queue.write_step {pc : WritePc T W} (finalize spurious : Bool)
    (locks : Locks m (pc.sections false) R) (points : pc.Local polled)
    (goesOn : finalize = true → polled = true) (takes : D.taken = true → R.taking = true)
    (left : pc = .takeBack → m.receiverClosed = true) (shut : m.Shut D) (queue : m.Queue D) :
    let m' := (pc.step finalize spurious m).1
    m'.Queue D ∧ m'.Shut D ∧ m'.senderClosed = false := by
  have isOpen : m.senderClosed = false := by
    apply locks.live
    cases pc <;> rfl
  have unclaimed : D.claims = false := by
    have claims := shut.claims
    simp_all
  have shuts (m' : World T W) (closed : m'.senderClosed = m.senderClosed) :
      m'.Shut D ∧ m'.senderClosed = false := by
    rw [isOpen] at closed
    refine ⟨⟨?_, ?_, shut.unswapped⟩, closed⟩
    · simp [closed]
    · simp [unclaimed]
  have unpublished := locks.unpublished
  have unlocked : m.state.loaded = false → D.taken = false := by
    intro unloaded
    by_contra taken
    have loaded := locks.taking (takes (by simpa using taken))
    simp [unloaded] at loaded
  have publishes (m' : World T W) (unloaded : m.state.loaded = false)
      (loaded : m'.state.loaded = true) (value : m'.value = m.value)
      (received : m'.received = m.received)
      (published : m'.published = m.published ++ m.value.toList)
      (closed : m'.receiverClosed = m.receiverClosed) : m'.Queue D := by
    constructor
    · rw [received, published]
      exact queue.inOrder.trans (List.prefix_append _ _)
    · intro isOpen
      rw [received, published, queue.empty shut (closed.symm.trans isOpen) unloaded]
      simp [World.pending, loaded, value, unlocked unloaded]
  cases pc with
  | load | takeReader | storeWaker | clearWaker | sync | wake =>
      exact ⟨queue.keep ⟨rfl, rfl, rfl, rfl, rfl, rfl⟩, shuts _ rfl⟩
  | unlockRead =>
      refine ⟨queue.keep ⟨?_, rfl, rfl, rfl, rfl, rfl⟩, shuts _ rfl⟩
      simp [WritePc.step, World.fetchAnd]
  | release prev =>
      by_cases exchanged : m.state = prev.set { loaded := true, wlock := true, wake := true }
      · simp only [WritePc.step, if_pos exchanged]
        refine ⟨queue.keep ⟨?_, rfl, rfl, rfl, rfl, rfl⟩, shuts _ rfl⟩
        simp [World.store, exchanged]
      · simp only [WritePc.step, if_neg exchanged]
        exact ⟨queue.keep ⟨rfl, rfl, rfl, rfl, rfl, rfl⟩, shuts _ rfl⟩
  | unlock =>
      cases finalize with
      | true =>
          rw [show polled = false from points] at goesOn
          cases goesOn rfl
      | false =>
          refine ⟨queue.keep ⟨?_, rfl, rfl, rfl, rfl, rfl⟩, shuts _ rfl⟩
          simp [WritePc.step, World.fetchAnd]
  | fast state =>
      obtain ⟨_, unloaded, _, unpolled⟩ := points
      cases finalize with
      | true =>
          rw [unpolled] at goesOn
          cases goesOn rfl
      | false =>
          by_cases exchanged : m.state = state ∧ !spurious
          · simp only [WritePc.step, if_pos exchanged]
            refine ⟨publishes _ (exchanged.1 ▸ unloaded) ?_ rfl rfl rfl rfl, shuts _ rfl⟩
            simp [World.store]
          · simp only [WritePc.step, if_neg exchanged]
            exact ⟨queue.keep ⟨rfl, rfl, rfl, rfl, rfl, rfl⟩, shuts _ rfl⟩
  | lock waker =>
      refine ⟨publishes _ (unpublished rfl) ?_ rfl rfl rfl rfl, shuts _ rfl⟩
      simp [WritePc.step, World.fetchOr]
  | store state value waker =>
      refine ⟨⟨queue.inOrder, ?_⟩, shuts _ rfl⟩
      intro isOpen
      have unloaded := unpublished rfl
      refine (queue.empty shut isOpen unloaded).trans ?_
      simp [WritePc.step, World.pending, World.storeValue, World.access, unloaded,
        shut.unswapped]
  | takeBack =>
      refine ⟨⟨queue.inOrder, ?_⟩, shuts _ rfl⟩
      intro isOpen
      rw [show (WritePc.step finalize spurious m .takeBack).1.receiverClosed = true from
        left rfl] at isOpen
      cases isOpen

end Sending

end Suspend.Channel
