import Mathlib.Order.Lattice
import Mathlib.Tactic.Common
import SecureComm.Channels
import SecureComm.SenderRuns

/-!
# Sessions do not meet on the shared names

The sessions over the kernel are sessions over channels of their own.  The proof
assigns to every session the queue object behind each of its names (`Placed`): a
session's first open of a name finds it unbound, since the senders before it have
unlinked it, and its other open finds the object of the first, since its own sender
unlinks only once the receiver has opened.

`sessions_simulation` is the refinement.  What holds of a session over channels then
holds of every session over the kernel, whatever earlier receivers still do.
-/

namespace SecureComm

open Interaction MessageQueue

section Isolation

variable {ι : Type} {B : Botan}

/-! ## Descriptors -/

/-- The descriptor of each name, both being open. -/
def handles (sr rs : ℕ) : QueueName → Mqd
  | .senderToReceiver => some sr
  | .receiverToSender => some rs

/-- The descriptors the sender holds at a point. -/
def SenderPoint.holds : SenderPoint B → QueueName → Mqd
  | .openRS sr, .senderToReceiver => some sr
  | .rng sr rs, name => handles sr rs name
  | .keygen sr rs, name => handles sr rs name
  | .randomize sr rs _, name => handles sr rs name
  | .run v _, name => handles v.sr v.rs name
  | _, _ => none

/-- The descriptors the receiver holds at a point. -/
def ReceiverPoint.holds : ReceiverPoint B → QueueName → Mqd
  | .openSR rs, .receiverToSender => some rs
  | .run v _, name => handles v.sr v.rs name
  | _, _ => none

/-- The queue and the descriptor a call is about. -/
def Op.uses : Op B → Option (QueueName × Mqd)
  | .mqSend site mq _ => some (site.queue, mq)
  | .mqReceive site mq => some (site.queue, mq)
  | _ => none

section Points

variable {cfg : Config}

/-- The sender sends and receives on the descriptors it holds. -/
theorem SenderPoint.holds_of_uses {pt : SenderPoint B} {op : Op B}
    {next : op.Resp → SenderPoint B} (waiting : pt.next cfg = some ⟨op, next⟩)
    {name : QueueName} {mq : Mqd} (uses : op.uses = some (name, mq)) :
    ∃ o, mq = some o ∧ pt.holds name = some o := by
  cases pt with
  | run v pc => cases pc <;> cases waiting <;> cases uses <;> exact ⟨_, rfl, rfl⟩
  | _ => cases waiting <;> cases uses

/-- So does the receiver. -/
theorem ReceiverPoint.holds_of_uses {pt : ReceiverPoint B} {op : Op B}
    {next : op.Resp → ReceiverPoint B} (waiting : pt.next cfg = some ⟨op, next⟩)
    {name : QueueName} {mq : Mqd} (uses : op.uses = some (name, mq)) :
    ∃ o, mq = some o ∧ pt.holds name = some o := by
  cases pt with
  | run v pc => cases pc <;> cases waiting <;> cases uses <;> exact ⟨_, rfl, rfl⟩
  | _ => cases waiting <;> cases uses

/-- What the sender holds it held before, or has just opened. -/
theorem SenderPoint.holds_step {pt pt' : SenderPoint B} {e : Event (Op B) Op.Resp}
    (step : Machine.Step (SenderPoint.next cfg) pt e pt') {name : QueueName} {o : ℕ}
    (holds : pt'.holds name = some o) :
    pt.holds name = some o ∨
      ∃ attr, e = (⟨.mqOpen name attr, some o⟩ : Event (Op B) Op.Resp) := by
  obtain ⟨op, r⟩ := e
  obtain ⟨next, waiting, rfl⟩ := step
  cases pt with
  | run v pc =>
      cases pc <;> cases waiting <;> (try cases r) <;>
        first | exact .inl holds | cases holds
  | openSR =>
      cases waiting
      cases r with
      | none => cases holds
      | some sr => cases name <;> cases holds; exact .inr ⟨_, rfl⟩
  | openRS sr =>
      cases waiting
      cases r with
      | none => cases holds
      | some rs =>
          cases name with
          | senderToReceiver => exact .inl holds
          | receiverToSender => cases holds; exact .inr ⟨_, rfl⟩
  | rng sr rs => cases waiting; cases r <;> first | exact .inl holds | cases holds
  | keygen sr rs => cases waiting; cases r <;> first | exact .inl holds | cases holds
  | randomize sr rs sk => cases waiting; cases r <;> first | exact .inl holds | cases holds
  | openFailed n => cases waiting
  | threw key e => cases waiting

/-- What the receiver holds it held before, or has just opened. -/
theorem ReceiverPoint.holds_step {pt pt' : ReceiverPoint B} {e : Event (Op B) Op.Resp}
    (step : Machine.Step (ReceiverPoint.next cfg) pt e pt') {name : QueueName} {o : ℕ}
    (holds : pt'.holds name = some o) :
    pt.holds name = some o ∨
      ∃ attr, e = (⟨.mqOpen name attr, some o⟩ : Event (Op B) Op.Resp) := by
  obtain ⟨op, r⟩ := e
  obtain ⟨next, waiting, rfl⟩ := step
  cases pt with
  | run v pc =>
      cases pc with
      | loop buffer =>
          cases waiting
          cases r with
          | none => exact .inl holds
          | some m =>
              simp only [ReceiverPoint.receive] at holds
              split_ifs at holds <;> exact .inl holds
      | _ => cases waiting <;> (try cases r) <;> first | exact .inl holds | cases holds
  | openRS =>
      cases waiting
      cases r with
      | none => cases holds
      | some sr => cases name <;> cases holds; exact .inr ⟨_, rfl⟩
  | openSR rs =>
      cases waiting
      cases r with
      | none => cases holds
      | some sr =>
          cases name with
          | senderToReceiver => cases holds; exact .inr ⟨_, rfl⟩
          | receiverToSender => exact .inl holds
  | openFailed n => cases waiting
  | threw key e => cases waiting

/-- The names a point of the sender has unlinked. -/
theorem SenderPoint.unlinked_step {pt pt' : SenderPoint B} {e : Event (Op B) Op.Resp}
    (step : Machine.Step (SenderPoint.next cfg) pt e pt') (name : QueueName) :
    name ∈ pt'.account.unlinked ↔
      name ∈ pt.account.unlinked ∨ e.1 = .mqUnlink name := by
  rw [← SenderPoint.account_step cfg step]
  obtain ⟨op, r⟩ := e
  cases op <;> simp [Account.add, unlinked?, eq_comm]

/-- The sender opens with the attributes of the source, before it unlinks. -/
theorem SenderPoint.opens {pt : SenderPoint B} {name : QueueName} {attr : MqAttr}
    {next : Mqd → SenderPoint B} (waiting : pt.next cfg = some ⟨.mqOpen name attr, next⟩) :
    attr = queueAttr cfg ∧ pt.account.unlinked = [] := by
  cases pt with
  | run v pc => cases pc <;> cases waiting
  | openSR => cases waiting; exact ⟨rfl, rfl⟩
  | openRS sr => cases waiting; exact ⟨rfl, rfl⟩
  | _ => cases waiting

theorem ReceiverPoint.opens {pt : ReceiverPoint B} {name : QueueName} {attr : MqAttr}
    {next : Mqd → ReceiverPoint B} (waiting : pt.next cfg = some ⟨.mqOpen name attr, next⟩) :
    attr = queueAttr cfg ∧ ¬ pt.Opened := by
  cases pt with
  | run v pc => cases pc <;> cases waiting
  | openRS => cases waiting; exact ⟨rfl, id⟩
  | openSR rs => cases waiting; exact ⟨rfl, id⟩
  | _ => cases waiting

/-- The sender unlinks names it holds. -/
theorem SenderPoint.unlinks {pt : SenderPoint B} {name : QueueName}
    {next : Unit → SenderPoint B} (waiting : pt.next cfg = some ⟨.mqUnlink name, next⟩) :
    (∃ o, pt.holds name = some o) ∧ name ∉ pt.account.unlinked := by
  cases pt with
  | run v pc =>
      cases pc <;> cases waiting <;> exact ⟨⟨_, rfl⟩, by simp [SenderPoint.account]⟩
  | _ => cases waiting

/-- A sender that has unlinked has got past the handshake. -/
theorem SenderPoint.keyed_of_unlinked {pt : SenderPoint B} {name : QueueName}
    (unlinked : name ∈ pt.account.unlinked) : pt.Keyed := by
  cases pt with
  | run v pc => cases pc <;> trivial
  | openFailed n => cases n <;> simp [SenderPoint.account] at unlinked
  | _ => simp [SenderPoint.account] at unlinked

/-- … and holds a descriptor. -/
theorem SenderPoint.holds_of_unlinked {pt : SenderPoint B} {name : QueueName}
    (unlinked : name ∈ pt.account.unlinked) :
    ∃ o, pt.holds .senderToReceiver = some o := by
  cases pt with
  | run v pc => exact ⟨v.sr, rfl⟩
  | openFailed n => cases n <;> cases unlinked
  | _ => cases unlinked

end Points

/-! ## The object behind each name -/

/-- A program of the session holds the object under a name, or has opened it. -/
def Session.Knows (s : Session ι B) : Role → QueueName → ℕ → Prop
  | .sender, name, o => s.sender.holds name = some o ∨ .opened name o ∈ s.senderLog
  | .receiver, name, o => s.receiver.holds name = some o ∨ .opened name o ∈ s.receiverLog

/-- The session has the object on record as one it opened under the name. -/
def Session.Recorded (s : Session ι B) (name : QueueName) (o : ℕ) : Prop :=
  .opened name o ∈ s.senderLog ∨ .opened name o ∈ s.receiverLog

/-- The session's sender has unlinked the name. -/
def Session.Unlinked (s : Session ι B) (name : QueueName) : Prop :=
  name ∈ s.sender.account.unlinked

/-- **The sessions' channels, placed in the kernel.**  `obj k name` is the object
behind a name of session `k`, once one of its programs has opened it; `κ₀` is the
kernel the sessions started from. -/
structure Placed [LT ι] (κ₀ κ : Kernel QueueName (Entry ι B)) (maxmsg : ℕ)
    (obj : ι → QueueName → Mqd) (s : ι → Session ι B) : Prop where
  known : ∀ k role name o, (s k).Knows role name o → obj k name = some o
  recorded : ∀ k name o, obj k name = some o → (s k).Recorded name o
  waits : ∀ k name o, obj k name = some o → (s k).chan name = κ.queue o
  unopened : ∀ k name, obj k name = none → (s k).chan name = []
  allocated : ∀ k name o, obj k name = some o → o < κ.fresh
  distinct : ∀ k name k' name' o, obj k name = some o → obj k' name' = some o →
    k = k' ∧ name = name'
  unowned : ∀ o, (∀ k name, obj k name ≠ some o) → κ.queue o = []
  bound : ∀ name o, κ.names name = some o →
    (∃ k, obj k name = some o ∧ ¬ (s k).Unlinked name) ∨
      (κ₀.names name = some o ∧ ∀ k name', obj k name' ≠ some o)
  named : ∀ k name o, obj k name = some o → ¬ (s k).Unlinked name →
    κ.names name = some o
  started : ∀ k name o, obj k name = some o → ∀ j, j < k → ∀ name', (s j).Unlinked name'
  capacity : ∀ k name o, obj k name = some o →
    (κ.objects o).maxmsg = maxmsg ∨ κ₀.names name = some o

section Placing

variable [LinearOrder ι] {κ₀ κ κ' : Kernel QueueName (Entry ι B)} {maxmsg : ℕ}
  {obj : ι → QueueName → Mqd} {s : ι → Session ι B} {k : ι} {s₁ : Session ι B}
  {name : QueueName} {o : ℕ}

/-- In the family with one session replaced, the objects behind the names held. -/
theorem Placed.known_update (h : Placed κ₀ κ maxmsg obj s)
    (held : ∀ role name o, s₁.Knows role name o → obj k name = some o)
    (j : ι) (role : Role) (name : QueueName) (o : ℕ)
    (holds : (Function.update s k s₁ j).Knows role name o) :
    obj j name = some o := by
  by_cases here : j = k
  · subst here
    exact held role name o (by simpa using holds)
  · exact h.known j role name o (by simpa [here] using holds)

theorem Session.unlinked_update (same : ∀ name, s₁.Unlinked name ↔ (s k).Unlinked name)
    (j : ι) (name : QueueName) :
    (Function.update s k s₁ j).Unlinked name ↔ (s j).Unlinked name := by
  by_cases here : j = k
  · subst here; simpa using same name
  · simp [here]

theorem Session.chan_update (same : s₁.chan = (s k).chan) (j : ι) :
    (Function.update s k s₁ j).chan = (s j).chan := by
  by_cases here : j = k
  · subst here; simpa using same
  · simp [here]

/-- In the family with one session replaced, the opens on record. -/
theorem Placed.recorded_update (h : Placed κ₀ κ maxmsg obj s)
    (grows : ∀ name o, (s k).Recorded name o → s₁.Recorded name o)
    (j : ι) (name : QueueName) (o : ℕ) (owns : obj j name = some o) :
    (Function.update s k s₁ j).Recorded name o := by
  have before := h.recorded j name o owns
  by_cases here : j = k
  · subst here; simpa using grows name o before
  · simpa [here] using before

/-- A session moves without a queue call. -/
theorem Placed.quiet (h : Placed κ₀ κ maxmsg obj s)
    (held : ∀ role name o, s₁.Knows role name o → obj k name = some o)
    (grows : ∀ name o, (s k).Recorded name o → s₁.Recorded name o)
    (same : ∀ name, s₁.Unlinked name ↔ (s k).Unlinked name)
    (chan : s₁.chan = (s k).chan) :
    Placed κ₀ κ maxmsg obj (Function.update s k s₁) where
  known := h.known_update held
  recorded := h.recorded_update grows
  waits j name o owns := by
    rw [Session.chan_update chan]
    exact h.waits j name o owns
  unopened j name no := by
    rw [Session.chan_update chan]
    exact h.unopened j name no
  allocated := h.allocated
  distinct := h.distinct
  unowned := h.unowned
  bound name o bound := by
    simpa only [Session.unlinked_update same] using h.bound name o bound
  named j name o owns linked :=
    h.named j name o owns (by simpa only [Session.unlinked_update same] using linked)
  started j name o owns i lower name' := by
    simpa only [Session.unlinked_update same] using h.started j name o owns i lower name'
  capacity := h.capacity

/-- A session's queue gets other messages. -/
theorem Placed.setQueue (h : Placed κ₀ κ maxmsg obj s)
    (held : ∀ role name o, s₁.Knows role name o → obj k name = some o)
    (grows : ∀ name o, (s k).Recorded name o → s₁.Recorded name o)
    (same : ∀ name, s₁.Unlinked name ↔ (s k).Unlinked name)
    (mine : obj k name = some o) (msgs : List (Entry ι B)) (allocated : o < κ.fresh)
    (chan : s₁.chan = Function.update (s k).chan name msgs) :
    Placed κ₀ (κ.setQueue o msgs allocated) maxmsg obj (Function.update s k s₁) where
  known := h.known_update held
  recorded := h.recorded_update grows
  waits j name' o' owns := by
    -- only the object written to changes, and only one session owns it
    by_cases here : j = k ∧ name' = name
    · obtain ⟨rfl, rfl⟩ := here
      obtain rfl : o' = o := by simpa [mine] using owns.symm
      simp [chan]
    · have other : o' ≠ o := by
        rintro rfl
        exact here (h.distinct j name' k name o' owns mine)
      rw [κ.setQueue_queue_of_ne msgs allocated other, ← h.waits j name' o' owns]
      by_cases mineToo : j = k
      · subst mineToo
        have name_ne : name' ≠ name := fun equal => here ⟨rfl, equal⟩
        simp [chan, name_ne]
      · simp [mineToo]
  unopened j name' no := by
    by_cases mineToo : j = k
    · subst mineToo
      have name_ne : name' ≠ name := by
        rintro rfl
        rw [mine] at no
        cases no
      simpa [chan, name_ne] using h.unopened j name' no
    · simpa [mineToo] using h.unopened j name' no
  allocated := h.allocated
  distinct := h.distinct
  unowned o' free := by
    have other : o' ≠ o := by
      rintro rfl
      exact free k name mine
    rw [κ.setQueue_queue_of_ne msgs allocated other]
    exact h.unowned o' free
  bound name' o' bound := by
    simpa only [Session.unlinked_update same] using h.bound name' o' bound
  named j name' o' owns linked :=
    h.named j name' o' owns (by simpa only [Session.unlinked_update same] using linked)
  started j name' o' owns i lower name'' := by
    simpa only [Session.unlinked_update same] using
      h.started j name' o' owns i lower name''
  capacity j name' o' owns := by simpa using h.capacity j name' o' owns

/-- A session's sender unlinks one of its names. -/
theorem Placed.unlink (h : Placed κ₀ κ maxmsg obj s)
    (held : ∀ role name o, s₁.Knows role name o → obj k name = some o)
    (grows : ∀ name o, (s k).Recorded name o → s₁.Recorded name o)
    (more : ∀ name', s₁.Unlinked name' ↔ (s k).Unlinked name' ∨ name' = name)
    (mine : obj k name = some o) (linked : ¬ (s k).Unlinked name)
    (chan : s₁.chan = (s k).chan) :
    Placed κ₀ (κ.unlink name) maxmsg obj (Function.update s k s₁) where
  known := h.known_update held
  recorded := h.recorded_update grows
  waits j name' o' owns := by
    rw [Session.chan_update chan]
    exact h.waits j name' o' owns
  unopened j name' no := by
    rw [Session.chan_update chan]
    exact h.unopened j name' no
  allocated := h.allocated
  distinct := h.distinct
  unowned := h.unowned
  bound name' o' bound := by
    -- the unlinked name is bound to nothing, the others as before
    have name_ne : name' ≠ name := by
      rintro rfl
      simp at bound
    rw [κ.unlink_names_of_ne name_ne] at bound
    obtain ⟨j, owns, stillLinked⟩ | free := h.bound name' o' bound
    · refine .inl ⟨j, owns, ?_⟩
      by_cases mineToo : j = k
      · subst mineToo
        simpa [more, name_ne] using stillLinked
      · simpa [mineToo] using stillLinked
    · exact .inr free
  named j name' o' owns stillLinked := by
    have name_ne : name' ≠ name := by
      rintro rfl
      by_cases mineToo : j = k
      · subst mineToo
        simp [more] at stillLinked
      · -- both sessions would own the object the name is bound to
        have theirs := h.named j name' o' owns (by simpa [mineToo] using stillLinked)
        have ours := h.named k name' o mine linked
        obtain rfl : o' = o := by simpa [ours] using theirs.symm
        exact mineToo (h.distinct j name' k name' o' owns mine).1
    rw [κ.unlink_names_of_ne name_ne]
    refine h.named j name' o' owns ?_
    by_cases mineToo : j = k
    · subst mineToo
      simpa [more, name_ne] using stillLinked
    · simpa [mineToo] using stillLinked
  started j name' o' owns i lower name'' := by
    have before := h.started j name' o' owns i lower name''
    by_cases mineToo : i = k
    · subst mineToo
      simpa [more] using Or.inl before
    · simpa [mineToo] using before
  capacity := h.capacity

/-- Assigning an object to a name of a session. -/
def assign [DecidableEq ι] (obj : ι → QueueName → Mqd) (k : ι) (name : QueueName) (o : ℕ) :
    ι → QueueName → Mqd :=
  fun j name' => if j = k ∧ name' = name then some o else obj j name'

theorem assign_self (obj : ι → QueueName → Mqd) (k : ι) (name : QueueName) (o : ℕ) :
    assign obj k name o k name = some o := by
  simp [assign]

theorem assign_of_ne {j : ι} {name' : QueueName} (h : ¬ (j = k ∧ name' = name)) :
    assign obj k name o j name' = obj j name' := by
  simp [assign, h]

/-- An assigned name is the new one or an old one. -/
theorem assign_eq_some {j : ι} {name' : QueueName} {o' : ℕ}
    (h : assign obj k name o j name' = some o') :
    j = k ∧ name' = name ∧ o' = o ∨ ¬ (j = k ∧ name' = name) ∧ obj j name' = some o' := by
  by_cases here : j = k ∧ name' = name
  · obtain ⟨rfl, rfl⟩ := here
    rw [assign_self] at h
    exact .inl ⟨rfl, rfl, (Option.some.inj h).symm⟩
  · rw [assign_of_ne here] at h
    exact .inr ⟨here, h⟩

/-- Nobody else owns what an unopened name of the session is bound to, when it is the
session's turn. -/
theorem Placed.unowned_of_turn (h : Placed κ₀ κ maxmsg obj s) (first : obj k name = none)
    (linked : ¬ (s k).Unlinked name)
    (turn : ∀ j, j < k → ∀ name', (s j).Unlinked name') {o : ℕ}
    (bound : κ.names name = some o) :
    κ₀.names name = some o ∧ ∀ j name', obj j name' ≠ some o := by
  obtain ⟨j, owns, stillLinked⟩ | free := h.bound name o bound
  · rcases lt_trichotomy j k with lower | rfl | higher
    · exact absurd (turn j lower name) stillLinked
    · rw [first] at owns
      cases owns
    · exact absurd (h.started j name o owns k higher name) linked
  · exact free

/-- The first open of a name in a session attaches to an empty object nobody owns. -/
theorem Placed.attach (h : Placed κ₀ κ maxmsg obj s)
    (held : ∀ role name' o', s₁.Knows role name' o' →
      (s k).Knows role name' o' ∨ name' = name ∧ o' = o)
    (grows : ∀ name' o', (s k).Recorded name' o' → s₁.Recorded name' o')
    (now : s₁.Recorded name o)
    (same : ∀ name, s₁.Unlinked name ↔ (s k).Unlinked name)
    (chan : s₁.chan = (s k).chan) (first : obj k name = none)
    (linked : ¬ (s k).Unlinked name)
    (turn : ∀ j, j < k → ∀ name', (s j).Unlinked name')
    (bound : κ'.names name = some o)
    (others : ∀ name', name' ≠ name → κ'.names name' = κ.names name')
    (free : ∀ j name', obj j name' ≠ some o)
    (queues : ∀ o', κ'.queue o' = κ.queue o') (grows : κ.fresh ≤ κ'.fresh)
    (capacities : ∀ o', o' < κ.fresh → (κ'.objects o').maxmsg = (κ.objects o').maxmsg)
    (capacity : (κ'.objects o).maxmsg = maxmsg ∨ κ₀.names name = some o) :
    Placed κ₀ κ' maxmsg (assign obj k name o) (Function.update s k s₁) where
  known j role name' o' holds := by
    by_cases mineToo : j = k
    · subst mineToo
      obtain before | ⟨rfl, rfl⟩ := held role name' o' (by simpa using holds)
      · -- it cannot have known an object under a name that had none
        have owns := h.known j role name' o' before
        have name_ne : name' ≠ name := by
          rintro rfl
          rw [first] at owns
          cases owns
        rw [assign_of_ne (fun here => name_ne here.2), owns]
      · exact assign_self obj j name' o'
    · rw [assign_of_ne (fun here => mineToo here.1)]
      exact h.known j role name' o' (by simpa [mineToo] using holds)
  recorded j name' o' owns := by
    obtain ⟨rfl, rfl, rfl⟩ | ⟨-, before⟩ := assign_eq_some owns
    · simpa using now
    · have already := h.recorded j name' o' before
      by_cases mineToo : j = k
      · subst mineToo; simpa using grows name' o' already
      · simpa [mineToo] using already
  waits j name' o' owns := by
    -- an object nobody owned is empty, and so is a channel not opened yet
    rw [Session.chan_update chan, queues]
    obtain ⟨rfl, rfl, rfl⟩ | ⟨-, before⟩ := assign_eq_some owns
    · rw [h.unopened j name' first, h.unowned o' free]
    · exact h.waits j name' o' before
  unopened j name' no := by
    rw [Session.chan_update chan]
    by_cases here : j = k ∧ name' = name
    · obtain ⟨rfl, rfl⟩ := here
      exact h.unopened j name' first
    · exact h.unopened j name' (by rwa [assign_of_ne here] at no)
  allocated j name' o' owns := by
    obtain ⟨rfl, rfl, rfl⟩ | ⟨-, before⟩ := assign_eq_some owns
    · exact κ'.names_lt name' o' bound
    · exact Nat.lt_of_lt_of_le (h.allocated j name' o' before) grows
  distinct j name₁ j' name₂ o' owns owns' := by
    obtain ⟨rfl, rfl, rfl⟩ | ⟨-, before⟩ := assign_eq_some owns
    · obtain ⟨rfl, rfl, -⟩ | ⟨-, before'⟩ := assign_eq_some owns'
      · exact ⟨rfl, rfl⟩
      · exact absurd before' (free j' name₂)
    · obtain ⟨rfl, rfl, rfl⟩ | ⟨-, before'⟩ := assign_eq_some owns'
      · exact absurd before (free j name₁)
      · exact h.distinct j name₁ j' name₂ o' before before'
  unowned o' notOwned := by
    rw [queues]
    refine h.unowned o' fun j name' owns => notOwned j name' ?_
    by_cases here : j = k ∧ name' = name
    · obtain ⟨rfl, rfl⟩ := here
      rw [first] at owns
      cases owns
    · rw [assign_of_ne here, owns]
  bound name' o' names := by
    simp only [Session.unlinked_update same]
    by_cases here : name' = name
    · subst here
      obtain rfl : o' = o := by simpa [bound] using names.symm
      exact .inl ⟨k, assign_self obj k name' o', linked⟩
    · rw [others name' here] at names
      obtain ⟨j, owns, linked⟩ | ⟨initial, notOwned⟩ := h.bound name' o' names
      · refine .inl ⟨j, ?_, linked⟩
        rw [assign_of_ne (fun there => here there.2), owns]
      · refine .inr ⟨initial, fun j name'' owns => ?_⟩
        obtain ⟨rfl, rfl, rfl⟩ | ⟨-, before⟩ := assign_eq_some owns
        · -- the object would be bound to two names
          refine here (κ'.names_inj name' name'' o' ?_ bound)
          rw [others name' here, names]
        · exact notOwned j name'' before
  named j name' o' owns stillLinked := by
    rw [Session.unlinked_update same] at stillLinked
    obtain ⟨rfl, rfl, rfl⟩ | ⟨-, before⟩ := assign_eq_some owns
    · exact bound
    · have names := h.named j name' o' before stillLinked
      have name_ne : name' ≠ name := by
        rintro rfl
        exact (h.unowned_of_turn first linked turn names).2 j name' before
      rw [others name' name_ne, names]
  started j name' o' owns i lower name'' := by
    -- it is the session's turn, so the earlier ones have unlinked their names
    rw [Session.unlinked_update same]
    obtain ⟨rfl, rfl, rfl⟩ | ⟨-, before⟩ := assign_eq_some owns
    · exact turn i lower name''
    · exact h.started j name' o' before i lower name''
  capacity j name' o' owns := by
    obtain ⟨rfl, rfl, rfl⟩ | ⟨-, before⟩ := assign_eq_some owns
    · exact capacity
    · rw [capacities o' (h.allocated j name' o' before)]
      exact h.capacity j name' o' before

/-- **An open finds the session's own object**, or an empty one to become it. -/
theorem Placed.open (h : Placed κ₀ κ maxmsg obj s)
    (held : ∀ role name' o', s₁.Knows role name' o' →
      (s k).Knows role name' o' ∨ name' = name ∧ o' = o)
    (grows : ∀ name' o', (s k).Recorded name' o' → s₁.Recorded name' o')
    (now : s₁.Recorded name o)
    (same : ∀ name, s₁.Unlinked name ↔ (s k).Unlinked name)
    (chan : s₁.chan = (s k).chan) (linked : ¬ (s k).Unlinked name)
    (turn : ∀ j, j < k → ∀ name', (s j).Unlinked name')
    (opened : κ.mqOpen name maxmsg = (o, κ')) :
    ∃ obj', Placed κ₀ κ' maxmsg obj' (Function.update s k s₁) := by
  cases mine : obj k name with
  | some o₁ =>
      rw [κ.mqOpen_of_bound maxmsg (h.named k name o₁ mine linked)] at opened
      cases opened
      refine ⟨obj, h.quiet (fun role name' o' holds => ?_) grows same chan⟩
      obtain before | ⟨rfl, rfl⟩ := held role name' o' holds
      · exact h.known k role name' o' before
      · exact mine
  | none =>
      refine ⟨assign obj k name o, ?_⟩
      cases bound : κ.names name with
      | some o₁ =>
          obtain ⟨initial, free⟩ := h.unowned_of_turn mine linked turn bound
          rw [κ.mqOpen_of_bound maxmsg bound] at opened
          cases opened
          exact h.attach held grows now same chan mine linked turn bound (fun _ _ => rfl) free
            (fun _ => rfl) (Nat.le_refl _) (fun _ _ => rfl) (.inr initial)
      | none =>
          rw [κ.mqOpen_of_unbound maxmsg bound] at opened
          cases opened
          refine h.attach held grows now same chan mine linked turn
            (κ.create_names_self name maxmsg)
            (fun _ ne => κ.create_names_of_ne maxmsg ne) (fun j name' owns => ?_)
            (κ.create_queue name maxmsg) (Nat.le_succ _)
            (fun _ lower => κ.create_maxmsg_of_lt name maxmsg lower)
            (.inl (κ.create_maxmsg_self name maxmsg))
          exact absurd (h.allocated j name' _ owns) (Nat.lt_irrefl _)

/-- **Every answer of the kernel is an answer of the session's channels**, and leaves
the channels placed.  The premises say how the point of the process moves with the
answer. -/
theorem Placed.answer {P : Policy ι B} {role : Role} {op : Op B} {r : op.Resp}
    {recs : List (Rec ι B)} (h : Placed κ₀ κ maxmsg obj s)
    (answer : Answered (kernelService ι B) P k role κ op r κ' recs)
    (uses : ∀ name mq, op.uses = some (name, mq) →
      ∃ o, mq = some o ∧ (s k).Knows role name o)
    (opens : ∀ name attr, op = .mqOpen name attr →
      attr.mqMaxmsg = maxmsg ∧ ¬ (s k).Unlinked name)
    (unlinks : ∀ name, op = .mqUnlink name →
      (∃ o, (s k).Knows role name o) ∧ ¬ (s k).Unlinked name)
    (turn : ∀ j, j < k → ∀ name', (s j).Unlinked name') :
    ∃ ch, Answered (channelService ι B) P k role (s k).chan op r ch recs ∧
      ∀ s₁ : Session ι B, s₁.chan = ch →
        (∀ role' name o, s₁.Knows role' name o →
          (s k).Knows role' name o ∨
            ∃ attr, (⟨op, r⟩ : Event (Op B) Op.Resp) = ⟨.mqOpen name attr, some o⟩) →
        (∀ name o, (s k).Recorded name o ∨ .opened name o ∈ recs → s₁.Recorded name o) →
        (∀ name, s₁.Unlinked name ↔ (s k).Unlinked name ∨ op = .mqUnlink name) →
        ∃ obj', Placed κ₀ κ' maxmsg obj' (Function.update s k s₁) := by
  -- what neither opens, unlinks nor touches a queue
  have still : ∀ κ₁, κ₁ = κ →
      (∀ name attr o, (⟨op, r⟩ : Event (Op B) Op.Resp) ≠ ⟨.mqOpen name attr, some o⟩) →
      (∀ name, op ≠ .mqUnlink name) → ∀ s₁ : Session ι B, s₁.chan = (s k).chan →
      (∀ role' name o, s₁.Knows role' name o →
        (s k).Knows role' name o ∨
          ∃ attr, (⟨op, r⟩ : Event (Op B) Op.Resp) = ⟨.mqOpen name attr, some o⟩) →
      (∀ name o, (s k).Recorded name o ∨ .opened name o ∈ recs → s₁.Recorded name o) →
      (∀ name, s₁.Unlinked name ↔ (s k).Unlinked name ∨ op = .mqUnlink name) →
      ∃ obj', Placed κ₀ κ₁ maxmsg obj' (Function.update s k s₁) := by
    rintro κ₁ rfl noOpen noUnlink s₁ chan held grows unlinked
    refine ⟨obj, h.quiet (fun role' name o holds => ?_) (fun name o h => grows name o (.inl h))
      (by simpa [noUnlink] using unlinked) chan⟩
    obtain before | ⟨attr, event⟩ := held role' name o holds
    · exact h.known k role' name o before
    · exact absurd event (noOpen name attr o)
  cases answer with
  | @mqOpen _ name attr o opened =>
      obtain ⟨rfl, linked⟩ := opens name attr rfl
      refine ⟨_, .mqOpen rfl, fun s₁ chan held grows unlinked => ?_⟩
      refine h.open (fun role' name' o' holds => ?_) (fun name o h => grows name o (.inl h))
        (grows _ _ (.inr (List.mem_singleton.mpr rfl))) (by simpa using unlinked) chan linked
        turn opened
      obtain before | ⟨attr', event⟩ := held role' name' o' holds
      · exact .inl before
      · cases event
        exact .inr ⟨rfl, rfl⟩
  | @mqSend _ site mq msg fits sent =>
      obtain ⟨o, allocated, rfl, room, rfl⟩ := sent
      obtain ⟨o', is, holds⟩ := uses site.queue (some o) rfl
      cases is
      have mine := h.known k role site.queue o holds
      refine ⟨_, .mqSend fits rfl, fun s₁ chan held grows unlinked => ⟨obj, ?_⟩⟩
      refine h.setQueue (fun role' name' o' holds' => ?_)
        (fun name o h => grows name o (.inl h)) (by simpa using unlinked) mine _ _
        (by rw [chan, h.waits k site.queue o mine])
      obtain before | ⟨attr', event⟩ := held role' name' o' holds'
      · exact h.known k role' name' o' before
      · cases event
  | @mqReceive _ site mq e received =>
      obtain ⟨o, rest, allocated, rfl, waits, rfl⟩ := received
      obtain ⟨o', is, holds⟩ := uses site.queue (some o) rfl
      cases is
      have mine := h.known k role site.queue o holds
      refine ⟨_, .mqReceive ⟨rest, by rw [h.waits k site.queue o mine, waits], rfl⟩,
        fun s₁ chan held grows unlinked => ⟨obj, ?_⟩⟩
      refine h.setQueue (fun role' name' o' holds' => ?_)
        (fun name o h => grows name o (.inl h)) (by simpa using unlinked) mine _ _
        chan
      obtain before | ⟨attr', event⟩ := held role' name' o' holds'
      · exact h.known k role' name' o' before
      · cases event
  | @mqUnlink _ name unlinked =>
      cases unlinked
      obtain ⟨⟨o, holds⟩, linked⟩ := unlinks name rfl
      refine ⟨_, .mqUnlink rfl, fun s₁ chan held grows more => ⟨obj, ?_⟩⟩
      refine h.unlink (fun role' name' o' holds' => ?_)
        (fun name o h => grows name o (.inl h)) (by simpa [eq_comm] using more)
        (h.known k role name o holds) linked chan
      obtain before | ⟨attr', event⟩ := held role' name' o' holds'
      · exact h.known k role' name' o' before
      · cases event
  | mqOpenFails fails =>
      exact ⟨_, .mqOpenFails fails, still _ rfl (fun _ _ _ event => by cases event) nofun⟩
  | mqSendFails fails =>
      exact ⟨_, .mqSendFails fails, still _ rfl (fun _ _ _ event => by cases event) nofun⟩
  | mqReceiveFails fails =>
      exact ⟨_, .mqReceiveFails fails, still _ rfl (fun _ _ _ event => by cases event) nofun⟩
  | mqClose =>
      exact ⟨_, .mqClose, still _ rfl (fun _ _ _ event => by cases event) nofun⟩
  | cinGet enter =>
      exact ⟨_, .cinGet enter, still _ rfl (fun _ _ _ event => by cases event) nofun⟩
  | botan is answers =>
      refine ⟨_, .botan is answers, still _ rfl (fun _ _ _ event => ?_) fun _ event => ?_⟩
      · cases event
        cases is
      · cases event
        cases is

end Placing

/-! ## The refinement -/

/-- One session of the family makes a step. -/
def FamilyStep [DecidableEq ι] (cfg : Config) (P : ι → Policy ι B)
    (s s' : ι → Session ι B) : Prop :=
  ∃ k s₁, Session.Step cfg (P k) k (s k) s₁ ∧ s' = Function.update s k s₁

/-- **A world tracks a family of sessions over channels.** -/
structure Tracks [LT ι] (cfg : Config) (P : ι → Policy ι B)
    (κ₀ : Kernel QueueName (Entry ι B)) (w : SessionsWorld ι B) (s : ι → Session ι B) :
    Prop where
  sender : ∀ k, (s k).sender.At cfg (w.procs (k, .sender))
  receiver : ∀ k, (s k).receiver.At cfg (w.procs (k, .receiver))
  senderLog : ∀ k, w.log (k, .sender) = (s k).senderLog
  receiverLog : ∀ k, w.log (k, .receiver) = (s k).receiverLog
  placed : ∃ obj, Placed κ₀ w.env cfg.maxMessages obj s
  reached : ∀ k, (s k).Reachable cfg (P k) k

theorem Answered.opened_of_mem {K : Type} {Q : QueueService ι B K} {P : Policy ι B}
    {k : ι} {role : Role} {κ κ' : K} {op : Op B} {r : op.Resp} {recs : List (Rec ι B)}
    (answer : Answered Q P k role κ op r κ' recs) {name : QueueName} {o : ℕ}
    (opened : .opened name o ∈ recs) :
    ∃ attr, (⟨op, r⟩ : Event (Op B) Op.Resp) = ⟨.mqOpen name attr, some o⟩ := by
  cases answer with
  | mqOpen h => cases List.mem_singleton.mp opened; exact ⟨_, rfl⟩
  | mqSend fits h => cases List.mem_singleton.mp opened
  | mqReceive h => cases List.mem_singleton.mp opened
  | _ => cases opened

/-- A sender that has returned has unlinked both names. -/
theorem SenderPoint.unlinked_of_returned {cfg : Config} {pt : SenderPoint B}
    {p : Process B} (here : pt.At cfg p) (returned : Returned p)
    (opened : ∀ name, pt ≠ .openFailed name) (name : QueueName) :
    name ∈ pt.account.unlinked := by
  obtain ⟨status, is⟩ := returned
  obtain ⟨m, prog⟩ := p
  cases is
  obtain ⟨v, status', rfl⟩ | ⟨name', rfl⟩ | ⟨key, e, rfl⟩ :=
    SenderPoint.ended_cases cfg ((senderMain_bisimulation cfg).ended_left here rfl)
  · cases name <;> simp [SenderPoint.account]
  · exact absurd rfl (opened name')
  · obtain ⟨pk, obs, is⟩ := here
    cases is

section Simulation

variable [LinearOrder ι] {cfg : Config} {P : ι → Policy ι B}
  {κ₀ : Kernel QueueName (Entry ι B)} {w w' : SessionsWorld ι B} {s : ι → Session ι B}

/-- Whose turn it is. -/
theorem Tracks.turn (iso : ∀ k, (P k).Isolating) (h : Tracks cfg P κ₀ w s) {k : ι}
    (may : ∀ j, j < k → Returned (w.procs (j, .sender))) (j : ι) (lower : j < k)
    (name : QueueName) : (s j).Unlinked name :=
  SenderPoint.unlinked_of_returned (h.sender j) (may j lower)
    ((h.reached j).ordered (iso j)).senderOpened name

/-- One session is followed, the others are where they were. -/
theorem Tracks.update (h : Tracks cfg P κ₀ w s) {k : ι} {s₁ : Session ι B}
    (made : Session.Step cfg (P k) k (s k) s₁)
    (procs : ∀ j role, j ≠ k → w'.procs (j, role) = w.procs (j, role))
    (logs : ∀ j role, j ≠ k → w'.log (j, role) = w.log (j, role))
    (sender : s₁.sender.At cfg (w'.procs (k, .sender)))
    (receiver : s₁.receiver.At cfg (w'.procs (k, .receiver)))
    (senderLog : w'.log (k, .sender) = s₁.senderLog)
    (receiverLog : w'.log (k, .receiver) = s₁.receiverLog)
    (placed : ∃ obj, Placed κ₀ w'.env cfg.maxMessages obj (Function.update s k s₁)) :
    Tracks cfg P κ₀ w' (Function.update s k s₁) := by
  refine ⟨fun j => ?_, fun j => ?_, fun j => ?_, fun j => ?_, placed, fun j => ?_⟩
  all_goals by_cases same : j = k
  · subst same; simpa using sender
  · simpa [same, procs j .sender same] using h.sender j
  · subst same; simpa using receiver
  · simpa [same, procs j .receiver same] using h.receiver j
  · subst same; simpa using senderLog
  · simpa [same, logs j .sender same] using h.senderLog j
  · subst same; simpa using receiverLog
  · simpa [same, logs j .receiver same] using h.receiverLog j
  · subst same
    rw [Function.update_self]
    exact (h.reached j).tail made
  · rw [Function.update_of_ne same]
    exact h.reached j

/-- The sender of a session makes a call. -/
theorem Tracks.sender_step (iso : ∀ k, (P k).Isolating) (h : Tracks cfg P κ₀ w s) (k : ι)
    {e : Event (Op B) Op.Resp} {p : Process B} {κ : Kernel QueueName (Entry ι B)}
    {recs : List (Rec ι B)} (may : ∀ j, j < k → Returned (w.procs (j, .sender)))
    (step : Machine.Step Proc.next (w.procs (k, .sender)) e p)
    (answer : Answered (kernelService ι B) (P k) k .sender w.env e.1 e.2 κ recs) :
    ∃ s', FamilyStep cfg P s s' ∧ Tracks cfg P κ₀
      ⟨κ, Function.update w.procs (k, .sender) p,
        Function.update w.log (k, .sender) (w.log (k, .sender) ++ recs)⟩ s' := by
  obtain ⟨pt, step', here⟩ := (senderMain_bisimulation cfg).step_right (h.sender k) step
  obtain ⟨op, r⟩ := e
  obtain ⟨next, waiting, rfl⟩ := step'
  have moved : Machine.Step (SenderPoint.next cfg) (s k).sender ⟨op, r⟩ (next r) :=
    ⟨next, waiting, rfl⟩
  obtain ⟨obj, placed⟩ := h.placed
  obtain ⟨ch, answer', place⟩ := placed.answer answer
    (fun name mq uses => by
      obtain ⟨o, is, holds⟩ := SenderPoint.holds_of_uses waiting uses
      exact ⟨o, is, .inl holds⟩)
    (fun name attr is => by
      subst is
      obtain ⟨rfl, none⟩ := SenderPoint.opens waiting
      exact ⟨rfl, by simp [Session.Unlinked, none]⟩)
    (fun name is => by
      subst is
      obtain ⟨⟨o, holds⟩, linked⟩ := SenderPoint.unlinks waiting
      exact ⟨⟨o, .inl holds⟩, linked⟩)
    (h.turn iso may)
  let s₁ : Session ι B :=
    { s k with chan := ch, sender := next r, senderLog := (s k).senderLog ++ recs }
  have made : Session.Step cfg (P k) k (s k) s₁ := .sender moved answer'
  refine ⟨Function.update s k s₁, ⟨k, s₁, made, rfl⟩, h.update made
    (fun j role ne => by simp [ne]) (fun j role ne => by simp [ne]) (by simpa using here)
    (by simpa [s₁] using h.receiver k) (by simp [s₁, h.senderLog])
    (by simp [s₁, h.receiverLog]) ?_⟩
  refine place s₁ rfl (fun role name o knows => ?_)
    (fun name o => by simp only [s₁, Session.Recorded, List.mem_append]; tauto)
    (fun name => SenderPoint.unlinked_step moved name)
  cases role with
  | receiver => exact .inl knows
  | sender =>
      rcases knows with holds | opened
      · exact (SenderPoint.holds_step moved holds).imp .inl id
      · rcases List.mem_append.mp opened with before | now
        · exact .inl (.inr before)
        · exact .inr (answer.opened_of_mem now)

/-- The receiver of a session makes a call. -/
theorem Tracks.receiver_step (iso : ∀ k, (P k).Isolating) (h : Tracks cfg P κ₀ w s) (k : ι)
    {e : Event (Op B) Op.Resp} {p : Process B} {κ : Kernel QueueName (Entry ι B)}
    {recs : List (Rec ι B)} (may : ∀ j, j < k → Returned (w.procs (j, .sender)))
    (step : Machine.Step Proc.next (w.procs (k, .receiver)) e p)
    (answer : Answered (kernelService ι B) (P k) k .receiver w.env e.1 e.2 κ recs) :
    ∃ s', FamilyStep cfg P s s' ∧ Tracks cfg P κ₀
      ⟨κ, Function.update w.procs (k, .receiver) p,
        Function.update w.log (k, .receiver) (w.log (k, .receiver) ++ recs)⟩ s' := by
  obtain ⟨pt, step', here⟩ := (receiverMain_bisimulation cfg).step_right (h.receiver k) step
  obtain ⟨op, r⟩ := e
  obtain ⟨next, waiting, rfl⟩ := step'
  have moved : Machine.Step (ReceiverPoint.next cfg) (s k).receiver ⟨op, r⟩ (next r) :=
    ⟨next, waiting, rfl⟩
  obtain ⟨obj, placed⟩ := h.placed
  obtain ⟨ch, answer', place⟩ := placed.answer answer
    (fun name mq uses => by
      obtain ⟨o, is, holds⟩ := ReceiverPoint.holds_of_uses waiting uses
      exact ⟨o, is, .inl holds⟩)
    (fun name attr is => by
      subst is
      obtain ⟨rfl, opening⟩ := ReceiverPoint.opens waiting
      -- a sender that has unlinked has the key, so its receiver is past its opens
      exact ⟨rfl, fun unlinked => opening (((h.reached k).ordered (iso k)).keyed
        (SenderPoint.keyed_of_unlinked unlinked))⟩)
    (fun name is => by
      subst is
      exact absurd waiting ReceiverPoint.next_ne_unlink)
    (h.turn iso may)
  let s₁ : Session ι B :=
    { s k with chan := ch, receiver := next r, receiverLog := (s k).receiverLog ++ recs }
  have made : Session.Step cfg (P k) k (s k) s₁ := .receiver moved answer'
  have noUnlink : ∀ name, op ≠ .mqUnlink name := by
    rintro name rfl
    exact ReceiverPoint.next_ne_unlink waiting
  refine ⟨Function.update s k s₁, ⟨k, s₁, made, rfl⟩, h.update made
    (fun j role ne => by simp [ne]) (fun j role ne => by simp [ne])
    (by simpa [s₁] using h.sender k) (by simpa using here) (by simp [s₁, h.senderLog])
    (by simp [s₁, h.receiverLog]) ?_⟩
  refine place s₁ rfl (fun role name o knows => ?_)
    (fun name o => by simp only [s₁, Session.Recorded, List.mem_append]; tauto)
    (fun name => by simp [s₁, Session.Unlinked, noUnlink])
  cases role with
  | sender => exact .inl knows
  | receiver =>
      rcases knows with holds | opened
      · exact (ReceiverPoint.holds_step moved holds).imp .inl id
      · rcases List.mem_append.mp opened with before | now
        · exact .inl (.inr before)
        · exact .inr (answer.opened_of_mem now)

/-- **The sessions over the kernel refine sessions over channels.** -/
theorem sessions_simulation (iso : ∀ k, (P k).Isolating) (h : Tracks cfg P κ₀ w s)
    (step : (sessionsEach P).Step w w') :
    ∃ s', FamilyStep cfg P s s' ∧ Tracks cfg P κ₀ w' s' := by
  cases step with
  | act pid e may step answer =>
      obtain ⟨k, role⟩ := pid
      cases role with
      | sender => exact h.sender_step iso k may step answer
      | receiver => exact h.receiver_step iso k may step answer
  | move intruded =>
      obtain ⟨k, o, msgs, allocated, opened, intrudes, rfl⟩ := intruded
      obtain ⟨obj, placed⟩ := h.placed
      have knows : (s k).Knows .sender .senderToReceiver o :=
        .inr (by rwa [← h.senderLog])
      have mine := placed.known k .sender .senderToReceiver o knows
      let s₁ : Session ι B :=
        { s k with chan := Function.update (s k).chan .senderToReceiver msgs }
      have made : Session.Step cfg (P k) k (s k) s₁ := .intrude (by
        rwa [← h.senderLog, ← h.receiverLog, placed.waits k _ o mine])
      have held : ∀ role name o, s₁.Knows role name o → obj k name = some o :=
        fun role name o knows => placed.known k role name o knows
      exact ⟨Function.update s k s₁, ⟨k, s₁, made, rfl⟩, h.update made
        (fun _ _ _ => rfl) (fun _ _ _ => rfl) (h.sender k) (h.receiver k) (h.senderLog k)
        (h.receiverLog k)
        ⟨obj, placed.setQueue held (fun _ _ => id) (fun _ => Iff.rfl) mine msgs allocated rfl⟩⟩

/-- It starts from a kernel in which nothing waits. -/
theorem Tracks.start (empty : ∀ o, κ₀.queue o = []) :
    Tracks cfg P κ₀ (sessionsStart cfg κ₀) (fun _ => Session.start ι B) where
  sender _ := senderProcess_at cfg
  receiver _ := receiverProcess_at cfg
  senderLog _ := rfl
  receiverLog _ := rfl
  reached _ := .refl
  placed := by
    refine ⟨fun _ _ => none, ?_⟩
    exact {
      known := fun k role name o knows => by
        cases role <;> rcases knows with holds | opened
        · cases holds
        · cases opened
        · cases holds
        · cases opened
      recorded := nofun
      waits := nofun
      unopened := fun _ _ _ => rfl
      allocated := nofun
      distinct := nofun
      unowned := fun o _ => empty o
      bound := fun name o bound => .inr ⟨bound, nofun⟩
      named := nofun
      started := nofun
      capacity := nofun }

/-- **Every state of the sessions tracks a family of sessions over channels**, and is
reached in as many steps. -/
theorem exists_tracks (iso : ∀ k, (P k).Isolating) (empty : ∀ o, κ₀.queue o = []) {n : ℕ}
    (chain : Chain (sessionsEach P).Step n (sessionsStart cfg κ₀) w) :
    ∃ s, Chain (FamilyStep cfg P) n (fun _ => Session.start ι B) s ∧
      Tracks cfg P κ₀ w s :=
  chain.simulate (R := Tracks cfg P κ₀)
    (fun _ _ _ h step => sessions_simulation iso h step) (Tracks.start empty)

end Simulation

end Isolation

end SecureComm
