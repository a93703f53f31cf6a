import Suspend.Channel.Delivery
import Suspend.Transition.Linearize

/-!
# A channel is a mailbox

`write`, `flush`, `read` and `drop_one_side` make many accesses each, between
which the other side makes its own.  Their callers cannot tell: with a receiver
that stays, the calls on a `channel()` answer as those on a mailbox with room
for one value, each of which is done at one moment.  A `write` is done when it
publishes, a `read` when it withdraws the announcement of its value or when it
last finds that there is none, a `flush` when it returns, and a drop when it
clears `STATE_ACTIVE`.
-/

namespace Suspend.Channel

open Suspend.Transition

universe u v

variable {T : Type u} {W : Type v}

/-! ## The mailbox -/

inductive Side where
  | sender
  | receiver
  deriving DecidableEq, Repr

/-- The calls on a `Channel` that do not cancel. -/
inductive ChannelCall (T : Type u) where
  | write (value : T)
  | flush
  | read
  | drop
  deriving DecidableEq, Repr

inductive ChannelAnswer (T : Type u) where
  | write (result : WriteResult T)
  | poll (result : PollResult T)
  | drop (last : Bool)
  deriving DecidableEq, Repr

/-- Room for one value. -/
structure Mailbox (T : Type u) where
  content : Option T := none
  /-- The sender has been dropped. -/
  closed : Bool := false
  deriving DecidableEq, Repr

/-- A value is put into an empty mailbox and refused by a full one.  A `flush`
is done once the mailbox is empty, but may ask to be polled again.  A `read`
takes the value there is and tells whether there will be another; without one it
is pending, or reports that nothing is there and the end has not come. -/
def Mailbox.step [DecidableEq T] : Step (Mailbox T) (ChannelCall T × ChannelAnswer T)
  | box, (.write value, .write .ok) =>
      if box.content = none then some { box with content := some value } else none
  | box, (.write value, .write (.err (some given) false)) =>
      if given = value ∧ box.content ≠ none then some box else none
  | box, (.flush, .poll .pending) => some box
  | box, (.flush, .poll (.ready none false)) => if box.content = none then some box else none
  | box, (.read, .poll .pending) =>
      if box.content = none ∧ box.closed = false then some box else none
  | box, (.read, .poll (.ready value dropped)) =>
      if box.content = value ∧ box.closed = dropped then some { box with content := none }
      else none
  | box, (.drop, .drop false) => some { box with closed := true }
  | _, _ => none

/-! ## What the callers see -/

/-- The call that has just begun. -/
def Sender.invoked : Sender T W → List (CallEvent Side (ChannelCall T) (ChannelAnswer T))
  | trySending (.load value _) | flushWriting _ _ (.load value _) =>
      [.invoke .sender (.write value)]
  | flushing .. => [.invoke .sender .flush]
  | dropping _ => [.invoke .sender .drop]
  | _ => []

def Receiver.invoked : Receiver T W → List (CallEvent Side (ChannelCall T) (ChannelAnswer T))
  | reading .. => [.invoke .receiver .read]
  | _ => []

/-- The call that returns with the next access. -/
def Sender.responded (spurious : Bool) (m : World T W) :
    Sender T W → List (CallEvent Side (ChannelCall T) (ChannelAnswer T))
  | trySending pc | flushWriting _ _ pc =>
      (pc.step false spurious m).2.elim (fun _ => []) fun result =>
        [.respond .sender (.write result)]
  | flushing _ _ pc =>
      (pc.step (T := T) false spurious m).2.elim (fun _ => []) fun result =>
        [.respond .sender (.poll result)]
  | dropping pc =>
      (pc.step true m).2.elim (fun _ => []) fun last => [.respond .sender (.drop last)]
  | _ => []

/-- The events of a step.  A blocking receive begins its next `read` when the
last one has returned, or when its park has. -/
def System.seen (s : System T W) (label : Label T W) (s' : System T W) :
    List (CallEvent Side (ChannelCall T) (ChannelAnswer T)) :=
  match label with
  | .send _ => s'.sender.invoked
  | .sender spurious => s.sender.responded spurious s.world
  | .recv _ | .expire => s'.receiver.invoked
  | .receiver spurious =>
      match s.receiver with
      | .reading _ pc =>
          (pc.step spurious s.world).2.elim (fun _ => []) fun result =>
            .respond .receiver (.poll result) :: s'.receiver.invoked
      | _ => s'.receiver.invoked

/-! ## What the channel stands for -/

/-- The value announced, or on its way out of the cell. -/
def Receiver.content (m : World T W) : Receiver T W → Option T
  | reading _ (.takeFlush _ value) | reading _ (.unlock _ value _) => value
  | reading _ .takeClosed => m.value
  | _ => if m.state.loaded then m.value else none

/-- The mailbox of a receiving side with nothing in hand. -/
def World.mailbox (m : World T W) : Mailbox T where
  content := if m.state.loaded then m.value else none
  closed := m.senderClosed

def Receiver.mailbox (m : World T W) (r : Receiver T W) : Mailbox T where
  content := r.content m
  closed := m.senderClosed

/-- A `write` is done when it publishes. -/
def WritePc.call (m : World T W) : WritePc T W → CallState (ChannelCall T) (ChannelAnswer T)
  | load .. | sync _ | store .. | fast _ | lock _ =>
      match m.writing with
      | some (value, _) => .called (.write value)
      | none => .idle
  | _ => .answered (.write .ok)

/-- A drop is done when it clears `STATE_ACTIVE`. -/
def DropPc.call : DropPc W → CallState (ChannelCall T) (ChannelAnswer T)
  | wake _ last => .answered (.drop last)
  | _ => .called .drop

/-- A `read` is done when it withdraws the announcement, or finds none and
leaves its waker to the sender. -/
def ReadPc.call : ReadPc T W → CallState (ChannelCall T) (ChannelAnswer T)
  | wakeFlush _ value dropped => .answered (.poll (.ready value dropped))
  | wake _ => .answered (.poll .pending)
  | _ => .called .read

def Sender.call (m : World T W) : Sender T W → CallState (ChannelCall T) (ChannelAnswer T)
  | trySending pc | flushWriting _ _ pc => pc.call m
  | flushing .. => .called .flush
  | dropping pc => pc.call
  | _ => .idle

def Receiver.call : Receiver T W → CallState (ChannelCall T) (ChannelAnswer T)
  | reading _ pc => pc.call
  | _ => .idle

def System.mailbox (s : System T W) : Mailbox T :=
  s.receiver.mailbox s.world

def System.calls (s : System T W) : Side → CallState (ChannelCall T) (ChannelAnswer T)
  | .sender => s.sender.call s.world
  | .receiver => s.receiver.call

/-! ## The content -/

section Content

variable {m m' : World T W} {S : SendSections} {C : SendCell} {r : Receiver T W}

theorem Receiver.content_keep (value : m'.value = m.value)
    (loaded : m'.state.loaded = m.state.loaded) : r.content m' = r.content m := by
  unfold Receiver.content
  split <;> simp [value, loaded]

/-- Nothing is announced and the reader has nothing in hand. -/
theorem Receiver.content_none (locks : Locks m S r.sections)
    (unswapped : (r.cell .channel).swapped = false) (unloaded : m.state.loaded = false) :
    r.content m = none := by
  have taking := locks.taking
  cases r with
  | reading call pc =>
      cases pc <;> simp_all [content, cell, sections, ReadPc.cell, ReadPc.sections]
  | _ => simp [content, unloaded]

/-- A value that is announced is in the cell or with the reader. -/
theorem Receiver.content_some (cell : Cell m C (r.cell .channel)) (goesOn : C.ended = false)
    (loaded : m.state.loaded = true) : r.content m ≠ none := by
  have announced := cell.announced loaded
  have missing := cell.missing
  have swapped := cell.swapped
  rw [goesOn] at announced
  cases r with
  | reading call pc =>
      cases pc <;> simp_all [content, Receiver.cell, ReadPc.cell, Option.isSome_iff_ne_none]
  | idle handle => cases handle <;> simp_all [content, Receiver.cell, Option.isSome_iff_ne_none]
  | _ => simp_all [content, Receiver.cell, Option.isSome_iff_ne_none]

/-- Where no value is on its way out, the content is what is announced. -/
theorem Receiver.content_eq (untaken : (r.cell .channel).taken = false)
    (unswapped : (r.cell .channel).swapped = false) :
    r.content m = if m.state.loaded then m.value else none := by
  cases r with
  | reading call pc => cases pc <;> simp_all [content, cell, ReadPc.cell]
  | _ => rfl

end Content

/-! ## The sending side -/

section Sending

variable {m m' : World T W} {r : Receiver T W}

theorem Receiver.mailbox_keep (value : m'.value = m.value)
    (loaded : m'.state.loaded = m.state.loaded) (closed : m'.senderClosed = m.senderClosed) :
    r.mailbox m' = r.mailbox m := by
  simp [mailbox, content_keep value loaded, closed]

theorem WritePc.finish_published (readWaker : Option W) :
    (finish readWaker : Outcome (WritePc T W) (WriteResult T)).elim
      (fun next => next.call m = .answered (.write .ok)) (· = .ok) := by
  cases readWaker <;> rfl

theorem WritePc.locked_published (prev : State) (waker readWaker : Option W) :
    (locked prev waker readWaker : WritePc T W).call m = .answered (.write .ok) := by
  cases waker <;> rfl

variable [DecidableEq T]

/-- After it has published, a `write` goes on to return `Ok`. -/
theorem WritePc.acts_published {out : Outcome (WritePc T W) (WriteResult T)}
    (same : r.mailbox m' = r.mailbox m)
    (ends : out.elim (fun next => next.call m' = .answered (.write .ok)) (· = .ok)) :
    Acts Mailbox.step Side.sender (r.mailbox m) (.answered (.write .ok))
      (out.elim (fun _ => []) fun result => [.respond .sender (.write result)])
      (r.mailbox m') (out.elim (call m') fun _ => .idle) := by
  cases out with
  | goto next => exact .of_eq same ends
  | ret result =>
      obtain rfl : result = .ok := ends
      exact .respond (.of_eq same rfl)

/-- With the receiver there, a `write` puts its value into the empty mailbox or
is refused by the full one. -/
theorem WritePc.acts {polled : Bool} {pc : WritePc T W} (spurious : Bool)
    (locks : Locks m (pc.sections false) r.sections) (points : pc.Local polled)
    (cell : Cell m (pc.cell false polled) (r.cell .channel)) (isOpen : m.receiverClosed = false)
    (writing : pc.Writing m) :
    Acts Mailbox.step Side.sender (r.mailbox m) (pc.call m)
      ((pc.step false spurious m).2.elim (fun _ => []) fun result =>
        [.respond .sender (.write result)])
      (r.mailbox (pc.step false spurious m).1)
      ((pc.step false spurious m).2.elim (call (pc.step false spurious m).1) fun _ => .idle) := by
  have active (live : (pc.sections false).live = true) : m.state.active = true := by
    rw [locks.active_eq, locks.live live, isOpen]
    rfl
  have content (unpublished : (pc.sections false).unpublished = true)
      (live : (pc.sections false).live = true) (after : World T W) :
      r.content after = if after.state.loaded then after.value else none := by
    apply Receiver.content_eq
    · by_contra taken
      have loaded := locks.taking (Receiver.cell_taken r (by simpa using taken))
      simp [locks.unpublished unpublished] at loaded
    · by_contra swapped
      have closed := (cell.swapped (by simpa using swapped)).2
      simp [locks.live live] at closed
  have published (value : T) (unpublished : (pc.sections false).unpublished = true)
      (live : (pc.sections false).live = true) (isValue : m.value = some value)
      (after : World T W) (same : after.value = m.value) (loaded : after.state.loaded = true)
      (closed : after.senderClosed = m.senderClosed) :
      Mailbox.step (r.mailbox m) (.write value, .write .ok) = some (r.mailbox after) := by
    simp [Mailbox.step, Receiver.mailbox, content unpublished live, loaded, same, isValue, closed,
      locks.unpublished unpublished]
  cases pc with
  | load value waker =>
      have same : r.mailbox m.access = r.mailbox m := Receiver.mailbox_keep rfl rfl rfl
      rw [WritePc.Writing] at writing
      simp only [step, active rfl]
      by_cases loaded : m.state.loaded = true
      · have full : r.content m ≠ none := Receiver.content_some cell rfl loaded
        rw [if_pos loaded, call, writing, same]
        refine .reply ?_ .stay
        simp [Mailbox.step, Receiver.mailbox, full]
      · rw [if_neg loaded]
        exact .of_eq same rfl
  | sync value =>
      have inactive := locks.sender_closed rfl
      rw [active rfl] at inactive
      cases inactive
  | store state value waker =>
      have unloaded := locks.unpublished rfl
      have same : r.mailbox (m.storeValue value) = r.mailbox m := by
        simp [Receiver.mailbox, content rfl rfl, World.storeValue, World.access, unloaded]
      simp only [step]
      split_ifs <;> exact .of_eq same rfl
  | fast state =>
      obtain ⟨value, isValue, isWriting⟩ := writing
      simp only [step, call, isWriting, Bool.false_eq_true, if_false]
      by_cases exchanged : m.state = state ∧ (!spurious) = true
      · rw [if_pos exchanged]
        refine .reply (published value rfl rfl isValue _ ?_ ?_ ?_) .stay
        · rfl
        · simp [World.store]
        · rfl
      · rw [if_neg exchanged]
        refine .of_eq (Receiver.mailbox_keep rfl rfl rfl) ?_
        simp [Outcome.elim, call, World.access, isWriting]
  | lock waker =>
      obtain ⟨value, isValue, isWriting⟩ := writing
      have done : Mailbox.step (r.mailbox m) (.write value, .write .ok) =
          some (r.mailbox (m.publish.fetchOr { loaded := true, wlock := true, wake := true })) := by
        refine published value rfl rfl isValue _ ?_ ?_ ?_
        · rfl
        · simp [World.fetchOr]
        · rfl
      simp only [step, call, isWriting]
      refine .commit done (acts_published rfl ?_)
      split_ifs
      · rfl
      · exact locked_published ..
      · exact finish_published waker
  | takeReader prev waker =>
      exact acts_published (Receiver.mailbox_keep rfl rfl rfl) (locked_published ..)
  | storeWaker | unlockRead =>
      exact acts_published (Receiver.mailbox_keep rfl (by simp [step, World.fetchAnd,
        World.storeWaker, World.access]) rfl) rfl
  | wake waker => exact acts_published (Receiver.mailbox_keep rfl rfl rfl) rfl
  | release prev waker readWaker =>
      simp only [step]
      split_ifs with expected
      · refine acts_published (Receiver.mailbox_keep rfl ?_ rfl) (finish_published readWaker)
        simp [World.store, expected]
      · exact acts_published (Receiver.mailbox_keep rfl rfl rfl) rfl
  | clearWaker found waker =>
      have isActive : found.active = true := by
        by_contra inactive
        have closed := locks.sender_closed (by simpa [sections] using inactive)
        rw [active rfl] at closed
        cases closed
      have unlocks : (!found.loaded || found.rlock) = true := by
        by_contra full
        have never := points.1 (by simpa using (by simp_all : found.loaded = true))
        simp_all
      simp only [step, unlocks]
      exact acts_published (Receiver.mailbox_keep rfl rfl rfl) rfl
  | unlock readWaker =>
      simp only [step, active rfl]
      refine acts_published (Receiver.mailbox_keep rfl ?_ rfl) (finish_published readWaker)
      simp [World.fetchAnd]
  | takeBack =>
      have inactive := locks.sender_closed rfl
      rw [active rfl] at inactive
      cases inactive

/-- With the receiver there, a `flush` is done when the mailbox is empty. -/
theorem FlushPc.acts {C : SendCell} {pc : FlushPc W} (spurious : Bool)
    (locks : Locks m (pc.sections false) r.sections) (points : pc.Local false)
    (cell : Cell m C (r.cell .channel)) (isOpen : m.receiverClosed = false) :
    Acts Mailbox.step Side.sender (r.mailbox m) (.called .flush)
      ((pc.step (T := T) false spurious m).2.elim (fun _ => []) fun result =>
        [.respond .sender (.poll result)])
      (r.mailbox (pc.step false spurious m).1)
      ((pc.step (T := T) false spurious m).2.elim (fun _ => .called .flush) fun _ => .idle) := by
  have live : (pc.sections false).live = true := by cases pc <;> rfl
  have unclosed := locks.live live
  have active : m.state.active = true := by
    rw [locks.active_eq, unclosed, isOpen]
    rfl
  have pends (after : World T W) (same : r.mailbox after = r.mailbox m) :
      Acts Mailbox.step Side.sender (r.mailbox m) (.called .flush)
        [.respond .sender (.poll .pending)] (r.mailbox after) .idle := by
    rw [same]
    exact .reply rfl .stay
  cases pc with
  | clearLocked | resetLocked => exact points.elim
  | reset | takeBack =>
      have inactive := locks.sender_closed rfl
      rw [active] at inactive
      cases inactive
  | finish =>
      have same : r.mailbox m.access = r.mailbox m := Receiver.mailbox_keep rfl rfl rfl
      have unswapped : (r.cell .channel).swapped = false := by
        by_contra swapped
        have closed := (cell.swapped (by simpa using swapped)).2
        simp [unclosed] at closed
      have empty := Receiver.content_none locks unswapped (locks.drained rfl)
      simp only [step, active, Bool.false_eq_true, if_false]
      rw [same]
      refine .reply ?_ .stay
      simp [Mailbox.step, Receiver.mailbox, empty]
  | wake waker => exact pends _ (Receiver.mailbox_keep rfl rfl rfl)
  | release prev waker =>
      simp only [step]
      split_ifs with expected
      · refine pends _ (Receiver.mailbox_keep rfl ?_ rfl)
        simp [World.store, expected.1]
      · exact .of_eq (Receiver.mailbox_keep rfl rfl rfl) rfl
  | lock prev waker =>
      simp only [step]
      split_ifs with exchanged
      · refine .of_eq (Receiver.mailbox_keep rfl ?_ rfl) rfl
        simp [World.store, exchanged.1]
      · exact .of_eq (Receiver.mailbox_keep rfl rfl rfl) rfl
      · exact .of_eq (Receiver.mailbox_keep rfl rfl rfl) rfl
  | unlock waker =>
      refine .of_eq (Receiver.mailbox_keep rfl ?_ rfl) rfl
      simp [step, World.fetchAnd]
  | load | clearPrev | storeWaker | clearOwn =>
      exact .of_eq (Receiver.mailbox_keep rfl rfl rfl) rfl

/-- The points of a drop that leaves the channel to the other side. -/
def DropPc.leaves : DropPc W → Bool
  | clearValue _ | clearWaker | clearLast => false
  | wake _ last => !last
  | _ => true

/-- With the receiver there, a drop of the sender closes the mailbox and does
not free it. -/
theorem DropPc.acts {pc : DropPc W} (locks : Locks m (pc.sendSections true) r.sections)
    (isOpen : m.receiverClosed = false) (leaves : pc.leaves = true) :
    Acts Mailbox.step Side.sender (r.mailbox m) pc.call
        ((pc.step true m).2.elim (fun _ => []) fun last => [.respond .sender (.drop last)])
        (r.mailbox (pc.step true m).1) ((pc.step true m).2.elim call fun _ => .idle) ∧
      (pc.step true m).2.elim (fun next => next.leaves = true) fun _ => True := by
  have active (goesOn : pc.ended = false) : m.state.active = true := by
    rw [locks.active_eq, locks.live (by simp [sendSections, goesOn]), isOpen]
    rfl
  have closes (mask : State) (unmasked : mask.loaded = false) :
      Mailbox.step (r.mailbox m) (.drop, .drop false) =
        some (r.mailbox (m.fetchAnd mask).closeSender) := by
    have same : r.content (m.fetchAnd mask).closeSender = r.content m := by
      apply Receiver.content_keep
      · rfl
      · simp [World.closeSender, World.fetchAnd, unmasked]
    simp only [Mailbox.step, Receiver.mailbox, same]
    rfl
  cases pc with
  | lock =>
      have same : r.mailbox (m.fetchOr { wlock := true, wake := true }) = r.mailbox m :=
        Receiver.mailbox_keep rfl (by simp [World.fetchOr]) rfl
      simp only [step, active rfl, Bool.not_true, Bool.false_eq_true, if_false]
      split_ifs <;> exact ⟨.of_eq same rfl, rfl⟩
  | takeWaker | clearOwn => exact ⟨.of_eq (Receiver.mailbox_keep rfl rfl rfl) rfl, rfl⟩
  | unlock waker =>
      cases waker with
      | none =>
          simp only [step, finish, active rfl]
          exact ⟨.reply (closes _ rfl) .stay, trivial⟩
      | some waker =>
          simp only [step, active rfl]
          exact ⟨.commit (closes _ rfl) .stay, rfl⟩
  | close =>
      simp only [step, finish, active rfl]
      exact ⟨.reply (closes _ rfl) .stay, trivial⟩
  | wake waker last =>
      obtain rfl : last = false := by simpa [DropPc.leaves] using leaves
      exact ⟨.respond (.of_eq (Receiver.mailbox_keep rfl rfl rfl) rfl), trivial⟩
  | clearValue | clearWaker | clearLast => cases leaves

end Sending

/-! ## The receiving side -/

section Receiving

variable [DecidableEq T] {m m' : World T W} {S : SendSections} {C : SendCell}

/-- What a `read` does at the head of its loop. -/
theorem ReadPc.loop_acts (call : ReceiveCall W) (m' : World T W) {prev : State}
    {waker : Option W} {box : Mailbox T} (same : m'.mailbox = box)
    (loaded : prev.loaded = m'.state.loaded) (active : prev.active = !m'.senderClosed) :
    let out := loop (T := T) prev waker false
    Acts Mailbox.step Side.receiver box (.called .read)
      (out.elim (fun _ => []) fun result => [.respond .receiver (.poll result)])
      (out.elim (fun next => (Receiver.reading call next).mailbox m') fun _ => m'.mailbox)
      (out.elim ReadPc.call fun _ => .idle) := by
  subst same
  have finds (unloaded : prev.loaded = false) (closed : m'.senderClosed = false) :
      Mailbox.step m'.mailbox (.read, .poll .pending) = some m'.mailbox ∧
        Mailbox.step m'.mailbox (.read, .poll (.ready none false)) = some m'.mailbox := by
    simp [Mailbox.step, World.mailbox, ← loaded, unloaded, closed]
  have ends (unloaded : prev.loaded = false) (closed : m'.senderClosed = true) :
      Mailbox.step m'.mailbox (.read, .poll (.ready none true)) = some m'.mailbox := by
    simp [Mailbox.step, World.mailbox, ← loaded, unloaded, closed]
  cases isActive : prev.active with
  | false =>
      have closed : m'.senderClosed = true := by simpa [isActive] using active
      cases isLoaded : prev.loaded with
      | true =>
          simp only [loop, isActive, isLoaded]
          exact .of_eq rfl rfl
      | false =>
          simp only [loop, isActive, isLoaded]
          exact .reply (ends isLoaded closed) .stay
  | true =>
      have unclosed : m'.senderClosed = false := by simpa [isActive] using active
      cases isLoaded : prev.loaded with
      | true =>
          simp only [loop, isActive, isLoaded]
          exact .of_eq rfl rfl
      | false =>
          obtain ⟨pends, reports⟩ := finds isLoaded unclosed
          simp only [loop, isActive, isLoaded, Bool.not_true, Bool.false_eq_true, if_false]
          split_ifs
          · cases waker with
            | some waker => exact .commit pends .stay
            | none => exact .reply pends .stay
          · exact .of_eq rfl rfl
          · exact .reply reports .stay

/-- A `read` takes the value there is, or finds none. -/
theorem ReadPc.acts (call : ReceiveCall W) {pc : ReadPc T W} (spurious : Bool)
    (locks : Locks m S pc.sections) (points : pc.Local false) (cell : Cell m C (pc.cell false))
    (isOpen : m.receiverClosed = false) :
    Acts Mailbox.step Side.receiver ((Receiver.reading call pc).mailbox m) pc.call
      ((pc.step spurious m).2.elim (fun _ => []) fun result => [.respond .receiver (.poll result)])
      ((pc.step spurious m).2.elim
        (fun next => (Receiver.reading call next).mailbox (pc.step spurious m).1)
        fun _ => (pc.step spurious m).1.mailbox)
      ((pc.step spurious m).2.elim ReadPc.call fun _ => .idle) := by
  have active : m.state.active = !m.senderClosed := by
    rw [locks.active_eq, isOpen, Bool.or_false]
  have unlocked : (m.fetchAnd { rlock := true, wlock := true, wake := true }).mailbox =
      m.mailbox := by
    simp [World.mailbox, World.fetchAnd, World.access]
  cases pc with
  | load waker orCancel =>
      obtain rfl : orCancel = false := points
      exact loop_acts call _ rfl rfl active
  | swap prev =>
      obtain ⟨_, rfl, _, loaded⟩ := locks.swaps prev rfl
      simp only [step]
      refine .of_eq ?_ rfl
      simp [Outcome.elim, Receiver.mailbox, Receiver.content, loaded, World.store, World.access]
  | takeClosed =>
      obtain ⟨unloaded, closed⟩ := cell.swapped rfl
      refine .reply ?_ .stay
      simp [Mailbox.step, Receiver.mailbox, Receiver.content, World.mailbox, step, Outcome.elim,
        World.receive, World.loadValue, World.access, unloaded, closed]
  | lock prev waker orCancel =>
      obtain ⟨-, -, rfl⟩ := points
      simp only [step]
      split_ifs with exchanged
      · refine .of_eq ?_ rfl
        simp [Outcome.elim, Receiver.mailbox, Receiver.content, World.store, World.access,
          exchanged.1]
      · exact loop_acts call _ rfl rfl active
  | take prev =>
      have loaded := locks.taking rfl
      simp only [step]
      split_ifs <;> refine .of_eq ?_ rfl <;>
        simp [Outcome.elim, Receiver.mailbox, Receiver.content, World.receive, World.loadValue,
          World.access, loaded]
  | takeFlush prev value => exact .of_eq rfl rfl
  | unlock prev value flushWaker =>
      have done : Mailbox.step ((Receiver.reading call (.unlock prev value flushWaker)).mailbox m)
          (.read, .poll (.ready value !m.state.active)) =
            some (m.fetchAnd (unlockMask prev)).mailbox := by
        simp [Mailbox.step, Receiver.mailbox, Receiver.content, World.mailbox, World.fetchAnd,
          unlockMask, World.access, active]
      cases flushWaker with
      | none => exact .reply done .stay
      | some waker => exact .commit done (.of_eq rfl rfl)
  | wakeFlush waker value dropped => exact .respond (.of_eq rfl rfl)
  | cancel prev waker => cases points.2.2
  | wake waker => exact .respond (.of_eq rfl rfl)
  | register prev waker orCancel =>
      obtain ⟨-, -, -, -, rfl, -⟩ := points
      by_cases exchanged : m.state = prev ∧ !spurious
      · simp only [step, if_pos exchanged, registered]
        have same : (m.store (prev.set { rlock := true, wlock := true, wake := true })).mailbox =
            m.mailbox := by
          simp [World.mailbox, World.store, World.access, exchanged.1]
        cases waker <;> split_ifs <;> exact .of_eq same rfl
      · simp only [step, if_neg exchanged]
        exact loop_acts call _ rfl rfl active
  | clearPrev prev waker orCancel => cases waker <;> exact .of_eq rfl rfl
  | storeWaker prev waker orCancel => exact .of_eq rfl rfl
  | release prev waker orCancel =>
      obtain ⟨isActive, unloaded, -⟩ := points
      simp only [step]
      split_ifs with expected
      · have found : m.state.loaded = false ∧ m.senderClosed = false := by
          rw [expected] at active ⊢
          simpa [isActive, unloaded] using active
        refine .reply ?_ .stay
        simp [Mailbox.step, Outcome.elim, Receiver.mailbox, Receiver.content, World.mailbox,
          World.store, World.access, found.1, found.2, unloaded]
      · exact .of_eq rfl rfl
  | clearOwn orCancel => exact .of_eq rfl rfl
  | unlockOwn orCancel =>
      obtain ⟨rfl, -⟩ := points
      exact loop_acts call (m.fetchAnd { rlock := true, wlock := true, wake := true })
        unlocked rfl (by simpa [World.fetchAnd, World.access] using active)
  | unlockBare orCancel =>
      obtain ⟨rfl, -⟩ := points
      simp only [step, State.unset_loaded, State.unset_active, Bool.not_false, Bool.and_true]
      split_ifs with reports
      · obtain ⟨unloaded, isActive⟩ : m.state.loaded = false ∧ m.state.active = true := by
          simpa using reports
        have unclosed : m.senderClosed = false := by simpa [isActive] using active
        refine .reply ?_ .stay
        simp only [Outcome.elim, unlocked]
        simp [Mailbox.step, Receiver.mailbox, Receiver.content, World.mailbox, unloaded, unclosed]
      · exact loop_acts call (m.fetchAnd { rlock := true, wlock := true, wake := true })
          unlocked rfl (by simpa [World.fetchAnd, World.access] using active)

end Receiving

/-! ## The two sides -/

section Sides

variable {m m' : World T W} {r : Receiver T W} {S S' : Sender T W} {R R' : Receiver T W}
  {spurious : Bool}

theorem Sender.call_keep (writing : m'.writing = m.writing) : S.call m' = S.call m := by
  cases S with
  | trySending pc | flushWriting _ _ pc => cases pc <;> simp [call, WritePc.call, writing]
  | _ => rfl

/-- A sending side that drops the channel leaves it to the receiver. -/
def Sender.Leaves (S : Sender T W) : Prop :=
  ∀ pc, S = .dropping pc → pc.leaves = true

variable [DecidableEq T]

theorem Sender.Begun.acts {handle : SenderHandle T} {op : SendOp T W}
    (begun : Begun .channel m handle op m' S') :
    Acts Mailbox.step Side.sender (r.mailbox m) .idle S'.invoked (r.mailbox m') (S'.call m') ∧
      S'.Leaves := by
  have same : r.mailbox m' = r.mailbox m := by
    induction begun <;> exact Receiver.mailbox_keep rfl rfl rfl
  rw [same]
  induction begun with
  | run isTask | runPanic isTask => cases isTask
  | dropFlush notChannel | dropFlushDone notChannel => exact (notChannel rfl).elim
  | trySend | pollFirst | poll => exact ⟨.invoke .stay, fun _ never => by cases never⟩
  | drop =>
      refine ⟨.invoke .stay, ?_⟩
      rintro pc ⟨⟩
      rfl
  | trySendDetached | send | sendDetached | pollDetached | pollDone | dropBorrow | dropDetached =>
      exact ⟨.stay, fun _ never => by cases never⟩

theorem Sender.Stepped.acts (locks : Locks m (S.sections .channel) r.sections)
    (points : S.Local .channel) (cell : Cell m (S.cell .channel) (r.cell .channel))
    (isOpen : m.receiverClosed = false) (writing : S.Writing m) (leaves : S.Leaves)
    (step : S.Stepped .channel spurious m m' S') :
    Acts Mailbox.step Side.sender (r.mailbox m) (S.call m) (S.responded spurious m)
      (r.mailbox m') (S'.call m') ∧ S'.Leaves := by
  induction step with
  | trySend inner =>
      have acts := WritePc.acts spurious locks points cell isOpen writing
      simp only [Kind.finalize] at inner
      rw [inner] at acts
      refine ⟨?_, fun _ never => by cases never⟩
      simp only [responded, inner]
      exact acts
  | @trySendEnd pc result after inner =>
      have acts := WritePc.acts spurious locks points cell isOpen writing
      simp only [Kind.finalize] at inner
      rw [inner] at acts
      simp only [responded, inner]
      rcases result with _ | ⟨value, _ | _⟩ | _ <;>
        exact ⟨acts.trans (.of_eq (Receiver.mailbox_keep rfl rfl rfl) rfl),
          fun _ never => by cases never⟩
  | flushWrite inner =>
      have acts := WritePc.acts spurious locks points.1 cell isOpen writing
      simp only [Kind.finalize] at inner
      rw [inner] at acts
      refine ⟨?_, fun _ never => by cases never⟩
      simp only [responded, inner]
      exact acts
  | @flushWriteEnd _ _ pc result after inner =>
      have acts := WritePc.acts spurious locks points.1 cell isOpen writing
      simp only [Kind.finalize] at inner
      rw [inner] at acts
      simp only [responded, inner]
      rcases result with _ | ⟨value, _ | _⟩ | _ <;>
        exact ⟨acts.trans (.of_eq (Receiver.mailbox_keep rfl rfl rfl) rfl),
          fun _ never => by cases never⟩
  | flush inner =>
      have acts := FlushPc.acts spurious locks points.1 cell isOpen
      simp only [Kind.finalize] at inner
      rw [inner] at acts
      refine ⟨?_, fun _ never => by cases never⟩
      simp only [responded, inner]
      exact acts
  | @flushEnd _ _ pc result after inner =>
      have acts := FlushPc.acts spurious locks points.1 cell isOpen
      simp only [Kind.finalize] at inner
      rw [inner] at acts
      simp only [responded, inner]
      rcases result with _ | ⟨value, _ | _⟩ | _ <;>
        exact ⟨acts.trans (.of_eq (Receiver.mailbox_keep rfl rfl rfl) rfl),
          fun _ never => by cases never⟩
  | drop inner =>
      obtain ⟨acts, goesOn⟩ := DropPc.acts locks isOpen (leaves _ rfl)
      rw [inner] at acts goesOn
      simp only [responded, inner]
      refine ⟨acts, ?_⟩
      rintro pc ⟨⟩
      exact goesOn
  | @dropEnd pc last after inner =>
      obtain ⟨acts, -⟩ := DropPc.acts locks isOpen (leaves _ rfl)
      rw [inner] at acts
      simp only [responded, inner]
      cases last <;>
        exact ⟨acts.trans (.of_eq (Receiver.mailbox_keep rfl rfl rfl) rfl),
          fun _ never => by cases never⟩
  | free => exact ⟨.of_eq (Receiver.mailbox_keep rfl rfl rfl) rfl, fun _ never => by cases never⟩

/-- When a `read` has returned, a blocking receive begins the next one. -/
theorem Receiver.finishRead_acts (call : ReceiveCall W) (result : PollResult T) :
    Acts Mailbox.step Side.receiver m.mailbox .idle (finishRead .channel m call result).2.invoked
      ((finishRead .channel m call result).2.mailbox (finishRead .channel m call result).1)
      (finishRead .channel m call result).2.call := by
  rcases call with _ | _ | _ | _ | _ | _ | _ | _ <;>
    rcases result with _ | ⟨_ | _, _ | _⟩ | _ <;> first | exact .stay | exact .invoke .stay

theorem Receiver.Begun.acts {handle : ReceiverHandle} {op : RecvOp W}
    (begun : Begun .channel m handle op m' R') (stays : R'.receiving = true) :
    Acts Mailbox.step Side.receiver ((idle handle : Receiver T W).mailbox m) .idle R'.invoked
        (R'.mailbox m') R'.call ∧ m'.writing = m.writing := by
  induction begun with
  | poll | read | cancel => exact ⟨.invoke .stay, rfl⟩
  | drop => cases stays
  | detached | leave => exact ⟨.stay, rfl⟩

theorem Receiver.Stepped.acts {C : SendCell} {sections : SendSections} {s : System T W}
    (locks : Locks m sections R.sections) (points : R.Local) (cell : Cell m C (R.cell .channel))
    (isOpen : m.receiverClosed = false) (receives : R.receiving = true)
    (isSide : s.receiver = R) (isWorld : s.world = m)
    (step : R.Stepped .channel spurious m m' R') :
    Acts Mailbox.step Side.receiver (R.mailbox m) R.call
      (s.seen (.receiver spurious) { s with world := m', receiver := R' }) (R'.mailbox m')
      R'.call := by
  induction step with
  | @read call pc next after inner =>
      have acts := ReadPc.acts call spurious locks (receiving_cancels receives ▸ points) cell isOpen
      rw [inner] at acts
      simp only [System.seen, isSide, isWorld, inner]
      exact acts
  | @readEnd call pc result after inner =>
      have acts := ReadPc.acts call spurious locks (receiving_cancels receives ▸ points) cell isOpen
      rw [inner] at acts
      simp only [System.seen, isSide, isWorld, inner]
      exact acts.trans (finishRead_acts call result)
  | unpark isParked =>
      simp only [System.seen, isSide]
      exact .invoke .stay
  | drop | dropEnd => cases receives
  | @free next =>
      simp only [System.seen, isSide]
      exact .stay

/-! ## Runs -/

namespace System

variable {s s' : System T W} {label : Label T W}

/-- The receiver is there, and a drop of the sender leaves the channel to it. -/
structure Stays (s : System T W) : Prop extends s.Delivers where
  leaves : s.sender.Leaves

/-- Each step of the pair is something that one side does to the mailbox. -/
theorem Stays.acts (sound : Sound .channel s) (stays : Stays s) (receives : label.receiving = true)
    (step : System.step .channel s label = some s') :
    (∃ side, Acts Mailbox.step side s.mailbox (s.calls side) (s.seen label s') s'.mailbox
        (s'.calls side) ∧ ∀ other, other ≠ side → s'.calls other = s.calls other) ∧
      Stays s' := by
  have after := stays.toDelivers.step sound receives step
  obtain ⟨⟨owned, isOpen, receiving, inOrder, writing, reading⟩, leaves⟩ := stays
  rcases System.step_cases step with ⟨_, _, rfl, isIdle, same, begun⟩ |
    ⟨_, op, rfl, isIdle, same, begun⟩ | ⟨spurious, rfl, same, stepped⟩ | ⟨_, rfl, same, stepped⟩ |
    ⟨_, _, parked, _⟩
  · obtain ⟨acts, goesOn⟩ := begun.acts (r := s.receiver)
    refine ⟨⟨.sender, ?_, ?_⟩, after, goesOn⟩
    · simp only [mailbox, calls, isIdle, seen, same]
      exact acts
    · rintro (_ | _) other
      · exact (other rfl).elim
      · simp only [calls, same]
  · obtain ⟨acts, writing⟩ := begun.acts after.receiving
    refine ⟨⟨.receiver, ?_, ?_⟩, after, same ▸ leaves⟩
    · simp only [mailbox, calls, isIdle, seen]
      exact acts
    · rintro (_ | _) other
      · simp only [calls, same]
        exact Sender.call_keep writing
      · exact (other rfl).elim
  · obtain ⟨acts, goesOn⟩ := stepped.acts sound.locks sound.sender owned.cell isOpen writing leaves
    refine ⟨⟨.sender, ?_, ?_⟩, after, goesOn⟩
    · simp only [mailbox, calls, seen, same]
      exact acts
    · rintro (_ | _) other
      · exact (other rfl).elim
      · simp only [calls, same]
  · have acts :=
      stepped.acts (s := s) sound.locks sound.receiver owned.cell isOpen receiving rfl rfl
    refine ⟨⟨.receiver, ?_, ?_⟩, after, same ▸ leaves⟩
    · exact acts
    · rintro (_ | _) other
      · simp only [calls, same]
        exact Sender.call_keep (stepped.writing sound.receiver sound.locks owned.cell receiving
          (Sender.cell_stored _)).1
      · exact (other rfl).elim
  · simp [parked, Receiver.receiving] at receiving

theorem Stays.of_reachable (reachable : Reachable
      (guarded (System.step .channel) fun _ label => label.receiving) System.init s) :
    Sound .channel s ∧ Stays s := by
  have init : Stays (System.init : System T W) := ⟨.init, fun _ never => by cases never⟩
  have careful := reachableUnder_of_guarded reachable
  refine ⟨.of_reachable careful.reachable, ?_⟩
  refine careful.invariant_with (fun _ earlier => Sound.of_reachable earlier.reachable) init ?_
  intro state label next sound stays receives step
  exact (stays.acts sound receives step).2

end System

end Sides

/-- With a receiver that is never dropped or cancelled, the calls of the two
sides of a `channel()` answer as those on a mailbox do, each of them done at one
moment between its beginning and its return. -/
theorem channel_linearizable [DecidableEq T] {s : System T W}
    {history : List (List (CallEvent Side (ChannelCall T) (ChannelAnswer T)))}
    (shows : Shows (guarded (System.step .channel) fun _ (label : Label T W) => label.receiving)
      (fun s label s' => some (s.seen label s')) System.init history s) :
    Linearizable Mailbox.step {} history.flatten := by
  refine shows.linearizable System.mailbox System.calls ?_ ?_
  · intro source label target reachable step
    obtain ⟨sound, stays⟩ := System.Stays.of_reachable reachable
    obtain ⟨receives, step⟩ := guarded_eq_some.mp step
    exact (stays.acts sound receives step).1
  · rintro (_ | _) <;> rfl

/-- A `write` begins and returns inside a `read`, which has its value. -/
theorem channel_linearizable_of_overlap :
    ∃ history : List (List (CallEvent Side (ChannelCall Nat) (ChannelAnswer Nat))),
      history.flatten = [.invoke .receiver .read, .invoke .sender (.write 7),
        .respond .sender (.write .ok), .respond .receiver (.poll (.ready (some 7) false))] ∧
        Linearizable Mailbox.step {} history.flatten := by
  obtain ⟨⟨history, s⟩, ran, overlaps⟩ : ∃ shows ∈
      shown (guarded (System.step .channel) fun _ (label : Label Nat Nat) => label.receiving)
        (fun s label s' => some (s.seen label s')) System.init
        (List.flatten [[.recv (.poll 1), .receiver false, .receiver false, .send (.trySend 7)],
          List.replicate 3 (.sender false), List.replicate 7 (.receiver false)]),
      shows.1.flatten = [.invoke .receiver .read, .invoke .sender (.write 7),
        .respond .sender (.write .ok), .respond .receiver (.poll (.ready (some 7) false))] := by
    decide
  exact ⟨history, overlaps, channel_linearizable (shows_of_shown ran)⟩

end Suspend.Channel
