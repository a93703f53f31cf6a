import Suspend.Channel.Sequential

/-!
# A pair whose calls do not overlap

The runs of a pair made by `send_once` or `task_fn` in which one call ends
before the next begins.  Every call returns, its answer is that of the one-shot
cell, and when both sides are finished nothing is left: each value and each
registered waker has gone one way, and the allocation has been freed once.
-/

namespace Suspend.Channel

open Suspend.Transition

universe u v

variable {T : Type u} {W : Type v} {kind : Kind} {cell : OneShot T} {owed : Option (Answer T)}

/-! ## Calls return -/

/-- How far the call in progress is from its end. -/
def Sender.rank : Sender T W → Nat
  | idle _ => 0
  | freeing _ => 1
  | trySending pc | flushWriting _ _ pc => pc.rank + 2
  | flushing _ _ pc => pc.rank + 2
  | dropping pc => pc.rank + 2

def Receiver.rank : Receiver T W → Nat
  | idle _ | parked _ => 0
  | freeing _ => 1
  | dropping _ pc => pc.rank + 2
  | reading _ pc => pc.rank + 7

section Returns

variable {m : World T W} {result : WriteResult T} {polled : PollResult T} {owner last : Bool}
  {waker : W}

theorem Sender.rank_of_rests {s : Sender T W} (rests : s.rests = true) : s.rank ≤ 1 := by
  cases s <;> first | exact Nat.zero_le _ | exact Nat.le_refl _ | cases rests

/-- A receiving side that owes no answer has at most its channel to close. -/
theorem Tracks.receiver_rank {s : System T W} (tracks : Tracks kind cell none s) :
    s.receiver.rank ≤ 6 := by
  cases tracks with
  | @receiverDropping _ _ pc => cases pc <;> simp [Receiver.rank, DropPc.rank]
  | _ => simp [Receiver.rank]

variable {m' : World T W}

theorem Tracks.sender_falls {s : System T W} {S' : Sender T W} (once : kind ≠ .channel)
    (tracks : Tracks kind cell owed s) (step : s.sender.Stepped kind false s.world m' S') :
    S'.rank < s.sender.rank := by
  have finalize := Kind.finalize_of_once once
  cases tracks with
  | trySending put clean solo =>
      have falls := solo.falls
      rw [← finalize] at falls
      cases step with
      | trySend inner =>
          rw [inner] at falls
          exact Nat.add_lt_add_right falls 2
      | trySendEnd inner =>
          exact Nat.lt_of_le_of_lt (Sender.rank_of_rests (Sender.finishTrySend_rests ..))
            (by simp [Sender.rank])
  | flushWriting notTask put clean solo =>
      have falls := solo.falls
      rw [← finalize] at falls
      cases step with
      | flushWrite inner =>
          rw [inner] at falls
          exact Nat.add_lt_add_right falls 2
      | flushWriteEnd inner =>
          exact Nat.lt_of_le_of_lt (Sender.rank_of_rests (Sender.finishFlushWrite_rests ..))
            (by simp [Sender.rank])
  | flushing notTask formed pending polled clean solo =>
      have falls := solo.falls
      rw [← finalize] at falls
      cases step with
      | flush inner =>
          rw [inner] at falls
          exact Nat.add_lt_add_right falls 2
      | flushEnd inner =>
          exact Nat.lt_of_le_of_lt (Sender.rank_of_rests (Sender.finishFlush_rests ..))
            (by simp [Sender.rank])
  | senderDropping formed left content clean solo =>
      have falls := solo.falls true
      cases step with
      | drop inner =>
          rw [inner] at falls
          exact Nat.add_lt_add_right falls 2
      | @dropEnd _ last _ inner => cases last <;> simp [Sender.finishDrop, Sender.rank]
  | senderFreeing =>
      cases step with
      | free => exact Nat.one_pos
  | quiet | reading | receiverDropping | receiverFreeing => cases step

theorem Tracks.receiver_falls {s : System T W} {R' : Receiver T W} (once : kind ≠ .channel)
    (tracks : Tracks kind cell owed s) (step : s.receiver.Stepped kind false s.world m' R') :
    R'.rank < s.receiver.rank := by
  cases tracks with
  | @reading before _ _ m call pc formed connected received clean solo =>
      cases step with
      | read inner =>
          have falls := solo.falls
          rw [inner] at falls
          exact Nat.add_lt_add_right falls 7
      | @readEnd _ _ result after inner =>
          obtain ⟨sender, receiver, content⟩ := before
          obtain rfl : receiver = .connected := connected
          have kept := solo.step false clean
          simp only [inner] at kept
          have isOpen : (⟨sender, .connected, content⟩ : OneShot T).bothOpen = !sender.closed := by
            simp [OneShot.bothOpen]
          have ended := Tracks.finish_read once formed received kept.1.clean (isOpen ▸ kept.2)
          exact Nat.lt_of_le_of_lt ended.1.receiver_rank (by simp [Receiver.rank])
  | receiverDropping formed left content clean solo =>
      have falls := solo.falls false
      cases step with
      | drop inner =>
          rw [inner] at falls
          exact Nat.add_lt_add_right falls 2
      | @dropEnd _ _ last _ inner => cases last <;> simp [Receiver.finishDrop, Receiver.rank]
  | receiverFreeing =>
      cases step with
      | free => exact Nat.one_pos
  | quiet | trySending | flushWriting | flushing | senderDropping | senderFreeing => cases step

end Returns

/-- No call is in progress. -/
def System.resting (s : System T W) : Bool :=
  match s.sender, s.receiver with
  | .idle _, .idle _ => true
  | _, _ => false

/-- A side inside a call can make its next access. -/
theorem Sender.step_isSome {S : Sender T W} (kind : Kind) (spurious : Bool) (m : World T W)
    (busy : ∀ handle, S ≠ .idle handle) : ∃ r, S.step kind spurious m = some r := by
  cases S with
  | idle handle => exact absurd rfl (busy handle)
  | trySending pc | flushWriting owner waker pc =>
      rcases inner : pc.step kind.finalize spurious m with ⟨after, next | result⟩ <;>
        simp [Sender.step, inner]
  | flushing owner waker pc =>
      rcases inner : pc.step (T := T) kind.finalize spurious m with ⟨after, next | result⟩ <;>
        simp [Sender.step, inner]
  | dropping pc =>
      rcases inner : pc.step true m with ⟨after, next | last⟩ <;> simp [Sender.step, inner]
  | freeing next => exact ⟨_, rfl⟩

theorem Tracks.receiver_isSome {s : System T W} (spurious : Bool)
    (tracks : Tracks kind cell owed s) (busy : ∀ handle, s.receiver ≠ .idle handle) :
    ∃ r, s.receiver.step kind spurious s.world = some r := by
  cases tracks with
  | @reading _ _ _ m call pc =>
      rcases inner : pc.step spurious m with ⟨after, next | result⟩ <;> simp [Receiver.step, inner]
  | @receiverDropping _ m pc =>
      rcases inner : pc.step false m with ⟨after, next | last⟩ <;> simp [Receiver.step, inner]
  | receiverFreeing => exact ⟨_, rfl⟩
  | _ => exact absurd rfl (busy _)

namespace Observed

variable {o : Observed T W}

/-- The sending side ends its call within finitely many accesses. -/
theorem sender_returns (once : kind ≠ .channel) {handle : ReceiverHandle}
    (waits : o.system.receiver = .idle handle) (tracks : Tracks kind cell owed o.system) :
    ∃ k o', runFrom (Observed.step kind) o (List.replicate k (.base (.sender false))) = some o' ∧
      o'.system.resting = true := by
  induction left : o.system.sender.rank using Nat.strong_induction_on generalizing o owed with
  | _ n ih =>
      by_cases busy : ∃ handle, o.system.sender = .idle handle
      · obtain ⟨sending, idle⟩ := busy
        exact ⟨0, o, rfl, by simp [System.resting, idle, waits]⟩
      · push Not at busy
        obtain ⟨r, step⟩ := Sender.step_isSome kind false o.system.world busy
        obtain ⟨owed', kept, -⟩ := tracks.sender_step once (Sender.stepped step)
        have falls := tracks.sender_falls once (Sender.stepped step)
        obtain ⟨next, stepped, system⟩ :
            ∃ next, Observed.step kind o (.base (.sender false)) = some next ∧
              next.system = ⟨r.1, r.2, o.system.receiver⟩ := by
          simp [Observed.step, System.step, step]
        obtain ⟨k, o', run, rests⟩ := ih r.2.rank (left ▸ falls) (by rw [system]; exact waits)
          (by rw [system]; exact kept) (by rw [system])
        refine ⟨k + 1, o', ?_, rests⟩
        rw [List.replicate_succ, runFrom_cons, stepped]
        exact run

/-- The receiving side ends its call within finitely many accesses. -/
theorem receiver_returns (once : kind ≠ .channel) {handle : SenderHandle T}
    (waits : o.system.sender = .idle handle) (tracks : Tracks kind cell owed o.system) :
    ∃ k o', runFrom (Observed.step kind) o (List.replicate k (.base (.receiver false))) = some o' ∧
      o'.system.resting = true := by
  induction left : o.system.receiver.rank using Nat.strong_induction_on generalizing o owed with
  | _ n ih =>
      by_cases busy : ∃ handle, o.system.receiver = .idle handle
      · obtain ⟨receiving, idle⟩ := busy
        exact ⟨0, o, rfl, by simp [System.resting, idle, waits]⟩
      · push Not at busy
        obtain ⟨r, step⟩ := tracks.receiver_isSome false busy
        obtain ⟨owed', kept, -⟩ := tracks.receiver_step once (Receiver.stepped step)
        have falls := tracks.receiver_falls once (Receiver.stepped step)
        obtain ⟨next, stepped, system⟩ :
            ∃ next, Observed.step kind o (.base (.receiver false)) = some next ∧
              next.system = ⟨r.1, o.system.sender, r.2⟩ := by
          simp [Observed.step, System.step, step]
        obtain ⟨k, o', run, rests⟩ := ih r.2.rank (left ▸ falls) (by rw [system]; exact waits)
          (by rw [system]; exact kept) (by rw [system])
        refine ⟨k + 1, o', ?_, rests⟩
        rw [List.replicate_succ, runFrom_cons, stepped]
        exact run

/-- Whichever call is in progress, it returns within finitely many accesses. -/
theorem returns (once : kind ≠ .channel) (tracks : Tracks kind cell owed o.system) :
    ∃ label k o', runFrom (Observed.step kind) o (List.replicate k (.base label)) = some o' ∧
      o'.system.resting = true := by
  have alone : (∃ handle, o.system.receiver = .idle handle) ∨
      ∃ handle, o.system.sender = .idle handle := by
    generalize o.system = s at tracks
    cases tracks <;> simp
  rcases alone with ⟨handle, waits⟩ | ⟨handle, waits⟩
  · exact ⟨.sender false, sender_returns once waits tracks⟩
  · exact ⟨.receiver false, receiver_returns once waits tracks⟩

end Observed

/-! ## Values and wakers -/

section Goods

variable {s : System T W} {m m' : World T W} {hand hand' woken : Option W}

/-- A value is written into an empty cell. -/
theorem Tracks.empty_at_store (tracks : Tracks kind cell owed s) {state : State} {value : T}
    {waker : Option W} (stores : s.sender = .trySending (.store state value waker) ∨
      (∃ owner own, s.sender = .flushWriting owner own (.store state value waker))) :
    s.world.value = none := by
  cases tracks with
  | trySending put clean solo =>
      obtain isStore | ⟨owner, own, isStore⟩ := stores
      · cases isStore
        exact solo.2.2.2.1.value
      · cases isStore
  | flushWriting notTask put clean solo =>
      obtain isStore | ⟨owner, own, isStore⟩ := stores
      · cases isStore
      · cases isStore
        exact solo.2.2.2.1.value
  | _ => simp at stores

/-- A flush that frees the channel has no value left to write. -/
theorem Tracks.unwritten (tracks : Tracks kind cell owed s) {owner channel : Bool}
    {value : Option T} (freeing : s.sender = .freeing (.flush owner channel value)) :
    value = none := by
  cases tracks with
  | @senderFreeing _ m formed ended =>
      obtain ⟨sender, receiver, content⟩ := cell
      cases sender with
      | resolved => cases freeing; rfl
      | gone => cases freeing
      | unsent | flush => cases ended
  | _ => cases freeing

/-- The wakers put into the cell are those woken, those dropped, the one in the
cell and the one in hand. -/
def World.Wakers (m : World T W) (stored woken dropped : List W) (hand : Option W) : Prop :=
  (stored : Multiset W) = ↑woken + ↑dropped + ↑m.waker.toList + ↑hand.toList

theorem World.Rewakes.wakers {stored wokenBefore dropped : List W}
    (rewakes : m.Rewakes m' hand hand' woken) (wakers : m.Wakers stored wokenBefore dropped hand) :
    m'.Wakers (stored ++ Observed.moved m.waker m'.waker) (wokenBefore ++ woken.toList)
      (dropped ++ if hand'.isNone then Observed.moved m'.waker m.waker else []) hand' := by
  unfold World.Wakers World.Rewakes at *
  simp only [← Multiset.coe_add, wakers]
  clear wakers
  generalize m.waker = before, m'.waker = after at rewakes ⊢
  rcases rewakes with ⟨rfl, rfl, rfl⟩ | ⟨rfl, isFull, rfl, rfl⟩ | ⟨rfl, rfl, rfl, rfl⟩ |
    ⟨rfl, rfl, rfl, rfl⟩ | ⟨rfl, isSome, rfl, rfl⟩
  · cases after <;> simp [Observed.moved]
  · obtain ⟨waker, rfl⟩ := Option.isSome_iff_exists.mp isFull
    simp only [Observed.moved, Option.isNone_none, Option.isNone_some, if_true, Bool.false_eq_true,
      ite_self, Option.toList_none, Option.toList_some, Multiset.coe_nil]
    abel
  · cases hand' <;> simp [Observed.moved]
  · cases before with
    | none => simp [Observed.moved]
    | some waker =>
        simp only [Observed.moved, Option.isNone_none, Option.isNone_some, if_true,
          Bool.false_eq_true, if_false, Option.toList_none, Option.toList_some, Multiset.coe_nil]
        abel
  · obtain ⟨waker, rfl⟩ := Option.isSome_iff_exists.mp isSome
    cases after <;>
      · simp only [Observed.moved, Option.isNone_none, Option.isNone_some, if_true,
          Bool.false_eq_true, if_false, Option.toList_none, Option.toList_some, Multiset.coe_nil]
        abel

theorem System.carries_sender {S : Sender T W} {handle : ReceiverHandle} :
    (⟨m, S, .idle handle⟩ : System T W).carries = S.carries :=
  Option.or_none

theorem Sender.begun_carries {handle : SenderHandle T} {op : SendOp T W} {S' : Sender T W}
    (begun : Begun kind m handle op m' S') : S'.carries = none := by
  induction begun <;> rfl

theorem Receiver.begun_carries {handle : ReceiverHandle} {op : RecvOp W} {R' : Receiver T W}
    (begun : Begun kind m handle op m' R') : R'.carries = none := by
  induction begun <;> rfl

end Goods

/-! ## Runs -/

namespace Observed

variable {o o' : Observed T W} {label : ObservedLabel T W}

/-- The cell has run through the same calls; it has given the same answers, but
for the one that the call in progress owes. -/
structure Follows (kind : Kind) (o : Observed T W) (cell : OneShot T) (owed : Option (Answer T)) :
    Prop where
  run : OneShot.run {} o.calls = some (cell, o.answers ++ owed.toList)
  tracks : Tracks kind cell owed o.system
  accounts : o.system.world.Accounts o.system.sender.held
  wakers : o.system.world.Wakers o.stored o.woken o.dropped o.system.carries

theorem Follows.init : Follows kind ({} : Observed T W) {} none where
  run := rfl
  tracks := by
    refine .quiet ⟨by simp, by simp, by simp, by simp, by simp⟩ ?_
    refine .of_open rfl ⟨rfl, rfl, rfl, rfl, rfl⟩ ⟨rfl, rfl, ?_⟩
    simp [OneShot.bothOpen, OneShot.Sending.closed]
  accounts := rfl
  wakers := rfl

/-- One more call with its answer, or with the answer still owed. -/
theorem run_begins {cell' : OneShot T} {owed' given : Option (Answer T)} {call : Call T W}
    {calls : List (Call T W)} {answers : List (Answer T)}
    (run : OneShot.run {} calls = some (cell, answers))
    (begins : Begins cell cell' owed' given call) :
    OneShot.run {} (calls ++ [call]) = some (cell', (answers ++ given.toList) ++ owed'.toList) := by
  obtain ⟨answer, step, answered⟩ := begins
  rw [OneShot.run_append, run]
  simp only [Option.bind_some, step, Option.map_some, answered, List.append_assoc]

/-- A step inside a call gives its answer, or still owes it. -/
theorem run_gives {owed' given : Option (Answer T)} {calls : List (Call T W)}
    {answers : List (Answer T)} (run : OneShot.run {} calls = some (cell, answers ++ owed.toList))
    (gives : Gives owed owed' given) :
    OneShot.run {} (calls ++ (none : Option (Call T W)).toList) =
      some (cell, (answers ++ given.toList) ++ owed'.toList) := by
  rw [Option.toList_none, List.append_nil, run, gives, List.append_assoc]

/-- Only one side is inside a call. -/
theorem receiver_idle {s : System T W} {spurious : Bool} {m' : World T W} {S' : Sender T W}
    (tracks : Tracks kind cell owed s) (step : s.sender.Stepped kind spurious s.world m' S') :
    ∃ handle, s.receiver = .idle handle := by
  cases tracks with
  | quiet | reading | receiverDropping | receiverFreeing => cases step
  | _ => exact ⟨_, rfl⟩

theorem sender_idle {s : System T W} {spurious : Bool} {m' : World T W} {R' : Receiver T W}
    (tracks : Tracks kind cell owed s) (step : s.receiver.Stepped kind spurious s.world m' R') :
    ∃ handle, s.sender = .idle handle := by
  cases tracks with
  | quiet | trySending | flushWriting | flushing | senderDropping | senderFreeing => cases step
  | _ => exact ⟨_, rfl⟩

/-- Between calls nothing is owed. -/
theorem of_resting {s : System T W} (tracks : Tracks kind cell owed s)
    (rests : s.resting = true) : owed = none ∧ s.sender = .idle cell.sender.handle ∧
      s.receiver = .idle cell.receiver ∧ cell.Formed kind ∧ cell.Matches s.world := by
  cases tracks with
  | quiet formed same => exact ⟨rfl, rfl, rfl, formed, same⟩
  | _ => cases rests

/-- The wakers as a label that wakes none and moves none leaves them. -/
theorem Wakers.keep {m m' : World T W} {stored woken dropped : List W} {hand hand' : Option W}
    (wakers : m.Wakers stored woken dropped hand) (waker : m'.waker = m.waker)
    (sameHand : hand' = hand) :
    m'.Wakers (stored ++ moved m.waker m'.waker) (woken ++ (none : Option W).toList)
      (dropped ++ if hand'.isNone then moved m'.waker m.waker else []) hand' :=
  World.Rewakes.wakers (.inl ⟨waker, sameHand, rfl⟩) wakers

theorem Follows.step_isCanceled (follows : Follows kind o cell owed)
    (whole : o.wholeCalls kind .isCanceled = true)
    (step : Observed.step kind o .isCanceled = some o') :
    ∃ cell' owed', Follows kind o' cell' owed' := by
  obtain ⟨run, tracks, accounts, wakers⟩ := follows
  rcases o with ⟨⟨m, S, R⟩, calls, answers, stored, woken, dropped⟩
  cases R with
  | idle receiving =>
      cases S with
      | idle handle =>
          cases tracks with
          | quiet formed same =>
              obtain ⟨sender, receiver, content⟩ := cell
              cases sender with
              | unsent =>
                  obtain rfl : content = .empty := formed.unsent rfl
                  obtain ⟨clean, calm⟩ := same.open rfl
                  obtain rfl := Option.some.inj step
                  have isCanceled : (!m.state.active && !m.state.loaded) =
                      decide (receiver ≠ .connected) := by
                    simp [calm.state, World.plain, calm.value, OneShot.bothOpen,
                      OneShot.Sending.closed, OneShot.Content.value]
                  have begins : Begins (⟨.unsent, receiver, .empty⟩ : OneShot T)
                      ⟨.unsent, receiver, .empty⟩ none
                      (some (.canceled (!m.state.active && !m.state.loaded)))
                      (.isCanceled : Call T W) := by
                    rw [isCanceled]
                    exact ⟨_, rfl, rfl⟩
                  have clean' : m.access.Clean :=
                    ⟨clean.unfreed, by simp [World.access, clean.fresh, clean.unfreed],
                      clean.valueKept, clean.wakerKept, clean.unpanicked⟩
                  refine ⟨_, none, run_begins (by simpa using run) begins,
                    .quiet formed ?_, accounts,
                    wakers⟩
                  exact .of_open rfl clean' (calm.keep rfl rfl rfl)
              | _ => cases step
      | _ => cases step
  | _ => cases whole

theorem Follows.step_send {op : SendOp T W} (once : kind ≠ .channel)
    (follows : Follows kind o cell owed) (whole : o.wholeCalls kind (.base (.send op)) = true)
    (step : Observed.step kind o (.base (.send op)) = some o') :
    ∃ cell' owed', Follows kind o' cell' owed' ∧
      Begins cell cell' owed' (Sender.beginAnswer cell.sender.handle op) (.send op) := by
  obtain ⟨run, tracks, accounts, wakers⟩ := follows
  rcases o with ⟨⟨m, S, R⟩, calls, answers, stored, woken, dropped⟩
  cases R with
  | idle receiving =>
      cases S with
      | idle handle =>
          cases tracks with
          | quiet formed same =>
              simp only [Observed.step, System.step, Option.map_map, Option.map_eq_some_iff] at step
              obtain ⟨⟨m', S'⟩, begun, rfl⟩ := step
              have begun := Sender.begun begun
              obtain ⟨cell', owed', tracks, waker, begins⟩ :=
                Tracks.begin_send once formed same begun
              have carries := Sender.begun_carries begun
              rw [← System.carries_sender] at carries
              refine ⟨cell', owed', ⟨?_, tracks, Sender.begun_accounts begun accounts, ?_⟩, begins⟩
              · exact run_begins (by simpa using run) begins
              · exact Wakers.keep wakers waker carries
      | _ => cases step
  | _ => cases whole

theorem Follows.step_recv {op : RecvOp W} (once : kind ≠ .channel)
    (follows : Follows kind o cell owed) (whole : o.wholeCalls kind (.base (.recv op)) = true)
    (step : Observed.step kind o (.base (.recv op)) = some o') :
    ∃ cell' owed', Follows kind o' cell' owed' ∧
      Begins cell cell' owed' (Receiver.beginAnswer cell.receiver op) (.recv op) := by
  obtain ⟨run, tracks, accounts, wakers⟩ := follows
  rcases o with ⟨⟨m, S, R⟩, calls, answers, stored, woken, dropped⟩
  cases S with
  | idle handle =>
      cases R with
      | idle receiving =>
          cases tracks with
          | quiet formed same =>
              simp only [Observed.step, System.step, Option.map_map, Option.map_eq_some_iff] at step
              obtain ⟨⟨m', R'⟩, begins, rfl⟩ := step
              have begun := Receiver.begun begins
              have notCancel : op ≠ .cancel := by
                rintro rfl
                cases whole
              have settled : op = .tryRecv → cell.sender.closed = true := by
                rintro rfl
                obtain ⟨sender, receiver, content⟩ := cell
                cases sender with
                | gone => rfl
                | _ => cases whole
              have ready : ∀ waker, op = .recv waker → cell.receiver = .connected →
                  (m.state.loaded || !m.state.active) = true := by
                rintro waker rfl isOpen
                obtain ⟨sender, receiver, content⟩ := cell
                obtain rfl : receiver = .connected := isOpen
                cases sender <;> exact whole
              obtain ⟨cell', owed', tracks, waker, begins⟩ :=
                Tracks.begin_recv once formed same notCancel settled ready begins
              refine ⟨cell', owed',
                ⟨?_, tracks, Receiver.begun_accounts begun accounts, ?_⟩, begins⟩
              · exact run_begins (by simpa using run) begins
              · exact Wakers.keep wakers waker (Receiver.begun_carries begun)
      | _ => cases step
  | _ => cases whole

theorem Follows.step_sender {spurious : Bool} (once : kind ≠ .channel)
    (follows : Follows kind o cell owed)
    (step : Observed.step kind o (.base (.sender spurious)) = some o') :
    ∃ owed', Follows kind o' cell owed' ∧
      Gives owed owed' (answer kind o.system (.sender spurious)) := by
  obtain ⟨run, tracks, accounts, wakers⟩ := follows
  rcases o with ⟨⟨m, S, R⟩, calls, answers, stored, woken, dropped⟩
  simp only [Observed.step, System.step, Option.map_map, Option.map_eq_some_iff] at step
  obtain ⟨⟨m', S'⟩, step, rfl⟩ := step
  have stepped := Sender.stepped step
  obtain ⟨handle, rfl⟩ : ∃ handle, R = .idle handle := receiver_idle tracks stepped
  obtain ⟨owed', tracks', gives⟩ := tracks.sender_step once stepped
  refine ⟨owed', ⟨run_gives run gives, tracks', ?_, ?_⟩, gives⟩
  · refine Sender.stepped_accounts stepped (fun _ _ _ => tracks.empty_at_store) ?_ accounts
    intro owner channel value freeing
    exact tracks.unwritten freeing
  · have rewakes := tracks.sender_rewakes once stepped
    rw [System.carries_sender] at wakers
    have moved := rewakes.wakers wakers
    rw [← System.carries_sender] at moved
    exact moved

theorem Follows.step_receiver {spurious : Bool} (once : kind ≠ .channel)
    (follows : Follows kind o cell owed)
    (step : Observed.step kind o (.base (.receiver spurious)) = some o') :
    ∃ owed', Follows kind o' cell owed' ∧
      Gives owed owed' (answer kind o.system (.receiver spurious)) := by
  obtain ⟨run, tracks, accounts, wakers⟩ := follows
  rcases o with ⟨⟨m, S, R⟩, calls, answers, stored, woken, dropped⟩
  simp only [Observed.step, System.step, Option.map_map, Option.map_eq_some_iff] at step
  obtain ⟨⟨m', R'⟩, step, rfl⟩ := step
  have stepped := Receiver.stepped step
  obtain ⟨handle, rfl⟩ : ∃ handle, S = .idle handle := sender_idle tracks stepped
  obtain ⟨owed', tracks', gives⟩ := tracks.receiver_step once stepped
  refine ⟨owed', ⟨run_gives run gives, tracks', Receiver.stepped_accounts stepped accounts, ?_⟩,
    gives⟩
  exact (tracks.receiver_rewakes stepped).wakers wakers

/-- No blocking call is parked. -/
theorem not_expire {s s' : System T W} (tracks : Tracks kind cell owed s) :
    System.step kind s .expire ≠ some s' := by
  intro expired
  rcases System.step_cases expired with ⟨_, _, never, -⟩ | ⟨_, _, never, -⟩ |
    ⟨_, never, -⟩ | ⟨_, never, -⟩ | ⟨waker, -, parked, -⟩
  · cases never
  · cases never
  · cases never
  · cases never
  · cases tracks <;> cases parked

theorem Follows.step (once : kind ≠ .channel) (follows : Follows kind o cell owed)
    (whole : o.wholeCalls kind label = true) (step : Observed.step kind o label = some o') :
    ∃ cell' owed', Follows kind o' cell' owed' := by
  cases label with
  | isCanceled => exact follows.step_isCanceled whole step
  | base label =>
      cases label with
      | send op =>
          obtain ⟨cell', owed', follows, -⟩ := follows.step_send once whole step
          exact ⟨cell', owed', follows⟩
      | recv op =>
          obtain ⟨cell', owed', follows, -⟩ := follows.step_recv once whole step
          exact ⟨cell', owed', follows⟩
      | sender spurious =>
          obtain ⟨owed', follows, -⟩ := follows.step_sender once step
          exact ⟨cell, owed', follows⟩
      | receiver spurious =>
          obtain ⟨owed', follows, -⟩ := follows.step_receiver once step
          exact ⟨cell, owed', follows⟩
      | expire =>
          simp only [Observed.step, Option.map_eq_some_iff] at step
          obtain ⟨next, expired, rfl⟩ := step
          exact (not_expire follows.tracks expired).elim

/-- Both sides have given up the channel and are between calls. -/
def finished (o : Observed T W) : Bool :=
  match o.system.sender, o.system.receiver with
  | .idle .gone, .idle receiver => receiver ≠ .connected
  | .idle (.flush _ false none), .idle receiver => receiver ≠ .connected
  | _, _ => false

/-- Nothing is left: each value passed in has been handed out or dropped, each
waker put into the cell has been woken or dropped, once each, and the
allocation has been freed once, with both cells empty. -/
structure Settled (o : Observed T W) : Prop where
  values : o.system.world.passed.Perm (o.system.world.received ++ o.system.world.returned ++
    o.system.world.discarded)
  wakers : o.stored.Perm (o.woken ++ o.dropped)
  ended : o.system.world.Ended

/-- What is observed is what the one-shot cell does. -/
structure RefinesOneShot (kind : Kind) (o : Observed T W) : Prop where
  /-- The cell runs through the same calls and gives the same answers; only a
  call in progress may still owe one. -/
  answers : ∃ (cell : OneShot T) (owed : Option (Answer T)),
    OneShot.run {} o.calls = some (cell, o.answers ++ owed.toList) ∧
      (o.system.resting = true → owed = none ∧ o.system.sender = .idle cell.sender.handle ∧
        o.system.receiver = .idle cell.receiver)
  /-- The call in progress returns. -/
  returns : ∃ label k o', runFrom (Observed.step kind) o
    (List.replicate k (.base label)) = some o' ∧
    o'.system.resting = true
  settled : o.finished = true → o.Settled

/-- Both sides of the cell have closed when those of the pair have finished. -/
theorem closed_of_finished (tracks : Tracks kind cell owed o.system) (ends : o.finished = true) :
    o.system.world.Ended ∧ o.system.sender.held = none ∧ o.system.carries = none := by
  rcases o with ⟨⟨m, S, R⟩, calls, answers, stored, woken, dropped⟩
  cases tracks with
  | quiet formed same =>
      obtain ⟨sender, receiver, content⟩ := cell
      have closed (isClosed : sender.closed = true) (left : receiver ≠ .connected) : m.Ended := by
        have bothClosed : (⟨sender, receiver, content⟩ : OneShot T).bothClosed = true := by
          simp [OneShot.bothClosed, isClosed, left]
        rwa [OneShot.Matches, bothClosed, if_pos rfl] at same
      cases sender with
      | resolved => exact ⟨closed rfl (of_decide_eq_true ends), rfl, rfl⟩
      | gone => exact ⟨closed rfl (of_decide_eq_true ends), rfl, rfl⟩
      | unsent => cases ends
      | flush value => cases ends
  | _ => simp [finished] at ends

theorem Follows.settled (follows : Follows kind o cell owed) (ends : o.finished = true) :
    o.Settled := by
  obtain ⟨ended, held, carries⟩ := closed_of_finished follows.tracks ends
  have accounts := follows.accounts
  have wakers := follows.wakers
  rw [World.Accounts, held, ended.value] at accounts
  rw [World.Wakers, carries, ended.waker] at wakers
  constructor
  · rw [← Multiset.coe_eq_coe, accounts]
    simp
  · rw [← Multiset.coe_eq_coe, wakers]
    simp
  · exact ended

theorem Follows.refines (once : kind ≠ .channel) (follows : Follows kind o cell owed) :
    o.RefinesOneShot kind where
  answers := by
    refine ⟨cell, owed, follows.run, ?_⟩
    intro rests
    obtain ⟨isNone, sender, receiver, -⟩ := of_resting follows.tracks rests
    exact ⟨isNone, sender, receiver⟩
  returns := returns once follows.tracks
  settled := follows.settled

end Observed

/-- In every run of a `send_once` pair in which calls do not overlap, the calls
return and answer as the one-shot cell does, and nothing is left at the end. -/
theorem sendOnce_refines {o : Observed T W}
    (reachable : ReachableUnder (Observed.step .sendOnce)
      (fun o label => o.wholeCalls .sendOnce label = true) {} o) :
    o.RefinesOneShot .sendOnce := by
  have follows : ∃ cell owed, Observed.Follows .sendOnce o cell owed := by
    induction reachable with
    | refl => exact ⟨{}, none, .init⟩
    | tail _ step ih =>
        obtain ⟨label, whole, step⟩ := step
        obtain ⟨cell, owed, follows⟩ := ih
        exact follows.step (by simp) whole step
  obtain ⟨cell, owed, follows⟩ := follows
  exact follows.refines (by simp)

/-- A value is sent through a flush and received, and both sides finish. -/
theorem sendOnce_refines_flush :
    ∃ o : Observed Nat Nat, o.finished = true ∧
      o.answers = [.done, .pending, .received 7, .ok] ∧ o.woken = [1] ∧
      o.RefinesOneShot .sendOnce := by
  obtain ⟨o, ran, finished, answers, woken⟩ : ∃ o ∈ runFrom
      (guarded (Observed.step .sendOnce) fun o label => o.wholeCalls .sendOnce label)
      ({} : Observed Nat Nat)
      (List.flatten [[.base (.send (.send 7)), .base (.send (.poll 1))],
        List.replicate 5 (.base (.sender false)), [.base (.recv (.poll 2))],
        List.replicate 8 (.base (.receiver false)), [.base (.send (.poll 3))],
        List.replicate 3 (.base (.sender false))]),
      o.finished = true ∧ o.answers = [.done, .pending, .received 7, .ok] ∧ o.woken = [1] := by
    decide
  exact ⟨o, finished, answers, woken, sendOnce_refines (reachableUnder_of_runFrom ran)⟩

end Suspend.Channel
