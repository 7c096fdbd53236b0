import Mathlib.Data.Nat.Notation
import Mathlib.Logic.Function.Basic

/-!
# POSIX message queues

The kernel side of `mq_open`, `mq_unlink`, `mq_send` and `mq_receive`, over
arbitrary queue names and messages.  A name is bound to a queue *object*; opening
a name with `O_CREAT` and without `O_EXCL` attaches to the bound object or makes
a fresh empty one, and unlinking takes the name away while the object lives on
behind the descriptors that hold it.  All messages have one priority, so an
object is a bounded FIFO.

A descriptor is represented by the object it refers to.  `Kernel` carries the
well-formedness of its name table: names are bound to allocated objects, two
names never to the same one, and what has not been allocated holds nothing.

A history of transfers is carried out on the contents of all objects by `Replays`: nothing
is lost, doubled, reordered or made up.
-/

namespace MessageQueue

/-- A queue object: its capacity (`mq_maxmsg`) and the messages waiting in it,
oldest first. -/
structure Queue (M : Type) where
  maxmsg : ℕ
  msgs : List M

/-- Name table and queue objects. -/
structure Kernel (Name M : Type) where
  names : Name → Option ℕ
  objects : ℕ → Queue M
  fresh : ℕ
  names_lt : ∀ n o, names n = some o → o < fresh
  names_inj : ∀ n n' o, names n = some o → names n' = some o → n = n'
  fresh_nil : ∀ o, fresh ≤ o → (objects o).msgs = []

namespace Kernel

variable {Name M : Type}

/-- No queue exists. -/
def empty (Name M : Type) : Kernel Name M where
  names _ := none
  objects _ := ⟨0, []⟩
  fresh := 0
  names_lt _ _ h := by cases h
  names_inj _ _ _ h := by cases h
  fresh_nil _ _ := rfl

/-- The messages waiting in an object. -/
def queue (κ : Kernel Name M) (o : ℕ) : List M := (κ.objects o).msgs

/-- The object's messages replaced, its capacity kept. -/
def setQueue (κ : Kernel Name M) (o : ℕ) (ms : List M) (allocated : o < κ.fresh) :
    Kernel Name M where
  names := κ.names
  objects := Function.update κ.objects o ⟨(κ.objects o).maxmsg, ms⟩
  fresh := κ.fresh
  names_lt := κ.names_lt
  names_inj := κ.names_inj
  fresh_nil o' h := by
    have other : o' ≠ o := by omega
    simpa [other] using κ.fresh_nil o' h

section SetQueue

variable (κ : Kernel Name M) {o : ℕ} (ms : List M) (allocated : o < κ.fresh)

@[simp] theorem setQueue_fresh : (κ.setQueue o ms allocated).fresh = κ.fresh := rfl

@[simp] theorem setQueue_queue_self : (κ.setQueue o ms allocated).queue o = ms := by
  simp [setQueue, queue]

/-- Other objects are untouched. -/
theorem setQueue_queue_of_ne {o' : ℕ} (h : o' ≠ o) :
    (κ.setQueue o ms allocated).queue o' = κ.queue o' := by
  simp [setQueue, queue, h]

@[simp] theorem setQueue_maxmsg (o' : ℕ) :
    ((κ.setQueue o ms allocated).objects o').maxmsg = (κ.objects o').maxmsg := by
  by_cases h : o' = o
  · subst h; simp [setQueue]
  · simp [setQueue, h]

/-- All objects at once. -/
theorem setQueue_queue :
    (κ.setQueue o ms allocated).queue = Function.update κ.queue o ms := by
  funext o'
  by_cases h : o' = o
  · subst h; simp
  · rw [setQueue_queue_of_ne κ ms allocated h, Function.update_of_ne h]

/-- The last replacement stands. -/
@[simp] theorem setQueue_setQueue (ms' : List M) (allocated' : o < κ.fresh) :
    (κ.setQueue o ms allocated).setQueue o ms' allocated' = κ.setQueue o ms' allocated := by
  simp [setQueue]

/-- Replacing the messages by themselves changes nothing. -/
theorem setQueue_of_queue {ms : List M} (same : κ.queue o = ms) :
    κ.setQueue o ms allocated = κ := by
  subst same
  simp [setQueue, queue]

end SetQueue

variable [DecidableEq Name]

/-- `mq_unlink`: the name is taken away. -/
def unlink (κ : Kernel Name M) (n : Name) : Kernel Name M where
  names := Function.update κ.names n none
  objects := κ.objects
  fresh := κ.fresh
  names_lt n' o h := by
    by_cases same : n' = n
    · subst same; simp at h
    · exact κ.names_lt n' o (by simpa [same] using h)
  names_inj n' n'' o h h' := by
    by_cases same : n' = n
    · subst same; simp at h
    · by_cases same' : n'' = n
      · subst same'; simp at h'
      · exact κ.names_inj n' n'' o (by simpa [same] using h) (by simpa [same'] using h')
  fresh_nil := κ.fresh_nil

@[simp] theorem unlink_queue (κ : Kernel Name M) (n : Name) (o : ℕ) :
    (κ.unlink n).queue o = κ.queue o := rfl

@[simp] theorem unlink_names_self (κ : Kernel Name M) (n : Name) :
    (κ.unlink n).names n = none := by
  simp [unlink]

theorem unlink_names_of_ne (κ : Kernel Name M) {n n' : Name} (h : n' ≠ n) :
    (κ.unlink n).names n' = κ.names n' := by
  simp [unlink, h]

/-- Binds a name to a fresh empty object of the given capacity. -/
def create (κ : Kernel Name M) (n : Name) (maxmsg : ℕ) : Kernel Name M where
  names := Function.update κ.names n (some κ.fresh)
  objects := Function.update κ.objects κ.fresh ⟨maxmsg, []⟩
  fresh := κ.fresh + 1
  names_lt n' o h := by
    by_cases same : n' = n
    · subst same; simp at h; omega
    · have := κ.names_lt n' o (by simpa [same] using h); omega
  names_inj n' n'' o h h' := by
    by_cases same : n' = n <;> by_cases same' : n'' = n
    · rw [same, same']
    · subst same
      have bound := κ.names_lt n'' o (by simpa [same'] using h')
      simp at h; omega
    · subst same'
      have bound := κ.names_lt n' o (by simpa [same] using h)
      simp at h'; omega
    · exact κ.names_inj n' n'' o (by simpa [same] using h) (by simpa [same'] using h')
  fresh_nil o h := by
    have other : o ≠ κ.fresh := by omega
    simpa [other] using κ.fresh_nil o (by omega)

@[simp] theorem create_names_self (κ : Kernel Name M) (n : Name) (maxmsg : ℕ) :
    (κ.create n maxmsg).names n = some κ.fresh := by
  simp [create]

theorem create_names_of_ne (κ : Kernel Name M) {n n' : Name} (maxmsg : ℕ) (h : n' ≠ n) :
    (κ.create n maxmsg).names n' = κ.names n' := by
  simp [create, h]

@[simp] theorem create_fresh (κ : Kernel Name M) (n : Name) (maxmsg : ℕ) :
    (κ.create n maxmsg).fresh = κ.fresh + 1 := rfl

/-- A created object is empty, and every other one is as it was. -/
@[simp] theorem create_queue (κ : Kernel Name M) (n : Name) (maxmsg o : ℕ) :
    (κ.create n maxmsg).queue o = κ.queue o := by
  by_cases h : o = κ.fresh
  · subst h
    simpa [create, queue] using (κ.fresh_nil κ.fresh (Nat.le_refl _)).symm
  · simp [create, queue, h]

@[simp] theorem create_maxmsg_self (κ : Kernel Name M) (n : Name) (maxmsg : ℕ) :
    ((κ.create n maxmsg).objects κ.fresh).maxmsg = maxmsg := by
  simp [create]

/-- Creating an object changes no other one's capacity. -/
theorem create_maxmsg_of_lt (κ : Kernel Name M) (n : Name) (maxmsg : ℕ) {o : ℕ}
    (h : o < κ.fresh) :
    ((κ.create n maxmsg).objects o).maxmsg = (κ.objects o).maxmsg := by
  have other : o ≠ κ.fresh := by omega
  simp [create, other]

/-- `mq_open` with `O_CREAT` and without `O_EXCL`. -/
def mqOpen (κ : Kernel Name M) (n : Name) (maxmsg : ℕ) : ℕ × Kernel Name M :=
  match κ.names n with
  | some o => (o, κ)
  | none => (κ.fresh, κ.create n maxmsg)

theorem mqOpen_of_bound {κ : Kernel Name M} {n : Name} {o : ℕ} (maxmsg : ℕ)
    (h : κ.names n = some o) : κ.mqOpen n maxmsg = (o, κ) := by
  simp [mqOpen, h]

theorem mqOpen_of_unbound {κ : Kernel Name M} {n : Name} (maxmsg : ℕ)
    (h : κ.names n = none) : κ.mqOpen n maxmsg = (κ.fresh, κ.create n maxmsg) := by
  simp [mqOpen, h]

/-- Opening a queue changes no object's messages. -/
theorem mqOpen_queue {κ κ' : Kernel Name M} {n : Name} {maxmsg o : ℕ}
    (opened : κ.mqOpen n maxmsg = (o, κ')) : κ'.queue = κ.queue := by
  funext o'
  cases named : κ.names n with
  | some o₁ =>
      rw [mqOpen_of_bound maxmsg named] at opened
      cases opened
      rfl
  | none =>
      rw [mqOpen_of_unbound maxmsg named] at opened
      cases opened
      exact create_queue κ n maxmsg o'

/-- What opening a queue does to names and capacities: the name is bound to the object, no
name loses its object, and only the fresh one gets a name or a capacity. -/
structure Opens (κ : Kernel Name M) (n : Name) (maxmsg o : ℕ) (κ' : Kernel Name M) : Prop where
  bound : κ'.names n = some o
  grows : κ.fresh ≤ κ'.fresh
  keeps : ∀ n' o', κ.names n' = some o' → κ'.names n' = some o'
  new : ∀ n' o', κ'.names n' = some o' → κ.names n' = some o' ∨ κ.fresh ≤ o'
  maxmsg_old : ∀ o', o' < κ.fresh → (κ'.objects o').maxmsg = (κ.objects o').maxmsg
  maxmsg_new : ∀ o', κ.fresh ≤ o' → o' < κ'.fresh → (κ'.objects o').maxmsg = maxmsg

/-- **What `mq_open` does.** -/
theorem mqOpen_opens {κ κ' : Kernel Name M} {n : Name} {maxmsg o : ℕ}
    (opened : κ.mqOpen n maxmsg = (o, κ')) : Opens κ n maxmsg o κ' := by
  cases named : κ.names n with
  | some o₁ =>
      rw [mqOpen_of_bound maxmsg named] at opened
      cases opened
      exact ⟨named, Nat.le_refl _, fun _ _ => id, fun _ _ => .inl, fun _ _ => rfl,
        fun o' newer lower => absurd newer (Nat.not_le_of_lt lower)⟩
  | none =>
      rw [mqOpen_of_unbound maxmsg named] at opened
      cases opened
      refine ⟨create_names_self κ n maxmsg, Nat.le_succ _, ?_, ?_,
        fun o' older => create_maxmsg_of_lt κ n maxmsg older, ?_⟩
      · intro n' o' before
        have other : n' ≠ n := fun same => by rw [same, named] at before; cases before
        rwa [create_names_of_ne κ maxmsg other]
      · intro n' o' now
        by_cases same : n' = n
        · subst same
          rw [create_names_self] at now
          cases now
          exact .inr (Nat.le_refl _)
        · rw [create_names_of_ne κ maxmsg same] at now
          exact .inl now
      · intro o' newer lower
        rw [Nat.le_antisymm (Nat.lt_succ_iff.mp lower) newer, create_maxmsg_self]

/-- Unlinking binds no name. -/
theorem names_of_unlink {κ : Kernel Name M} {n n' : Name} {o : ℕ}
    (bound : (κ.unlink n).names n' = some o) : κ.names n' = some o := by
  by_cases same : n' = n
  · subst same
    rw [unlink_names_self] at bound
    cases bound
  · rwa [unlink_names_of_ne κ same] at bound

end Kernel

/-! ## Histories -/

section Histories

variable {M : Type}

/-- A message put into a queue object, or taken out of it. -/
inductive Transfer (M : Type)
  | sent (o : ℕ) (m : M)
  | read (o : ℕ) (m : M)

/-- A history carried out: from the contents `c` of all objects, each send puts its message
behind its object's others, and each read takes the first. -/
inductive Replays (c : ℕ → List M) : List (Transfer M) → (ℕ → List M) → Prop
  | nil : Replays c [] c
  | send {h : List (Transfer M)} {c' : ℕ → List M} (o : ℕ) (m : M) :
      Replays c h c' → Replays c (h ++ [.sent o m]) (Function.update c' o (c' o ++ [m]))
  | receive {h : List (Transfer M)} {c' : ℕ → List M} {o : ℕ} {m : M} {rest : List M} :
      Replays c h c' → c' o = m :: rest →
        Replays c (h ++ [.read o m]) (Function.update c' o rest)

/-- What a history has put into an object, in order. -/
def sentTo (o : ℕ) (h : List (Transfer M)) : List M :=
  h.filterMap fun
    | .sent o' m => if o' = o then some m else none
    | .read _ _ => none

/-- What a history has taken out of an object, in order. -/
def readFrom (o : ℕ) (h : List (Transfer M)) : List M :=
  h.filterMap fun
    | .sent _ _ => none
    | .read o' m => if o' = o then some m else none

/-- **First in, first out.**  Of every object, what was in it and then what was sent to it
is what was read from it and then what is in it. -/
theorem Replays.balance {c c' : ℕ → List M} {h : List (Transfer M)} (replays : Replays c h c')
    (o : ℕ) : c o ++ sentTo o h = readFrom o h ++ c' o := by
  induction replays with
  | nil => simp [sentTo, readFrom]
  | @send h c' o' m _ ih =>
      by_cases same : o' = o
      · subst same
        simp only [sentTo, readFrom] at ih
        simp [sentTo, readFrom, ← List.append_assoc, ih]
      · simpa [sentTo, readFrom, same, Ne.symm same] using ih
  | @receive h c' o' m rest _ waits ih =>
      by_cases same : o' = o
      · subst same
        rw [waits] at ih
        simp only [sentTo, readFrom] at ih
        simp [sentTo, readFrom, ih]
      · simpa [sentTo, readFrom, same, Ne.symm same] using ih

end Histories

end MessageQueue
