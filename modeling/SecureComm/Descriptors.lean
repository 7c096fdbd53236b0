import Mathlib.Tactic.Common
import SecureComm.ExitStatus
import SecureComm.Library.Monitor

/-!
# Descriptors

Both programs open two queues, use the descriptors for the rest of `main`, and close them
at its end.  `mqdMonitor` is the table the kernel would keep for such a process: it
rejects a call that uses or closes a descriptor the process does not hold under the name
the call is about, `(mqd_t)-1` included, and a second open of a name.

Neither program is ever rejected, whatever its calls return.
-/

namespace SecureComm

open Interaction

/-! ## The table -/

/-- The descriptors of a process, each with the name it was opened under: all it has
opened, and those it still holds.  No name is opened twice. -/
structure MqdTable where
  opened : List (QueueName × ℕ)
  held : List (QueueName × ℕ)
  held_opened : held ⊆ opened
  once : (opened.map Prod.fst).Nodup

namespace MqdTable

/-- No descriptor. -/
def empty : MqdTable := ⟨[], [], List.Subset.refl _, List.nodup_nil⟩

/-- One more descriptor. -/
def add (T : MqdTable) (name : QueueName) (o : ℕ) (new : name ∉ T.opened.map Prod.fst) :
    MqdTable where
  opened := T.opened ++ [(name, o)]
  held := T.held ++ [(name, o)]
  held_opened := List.append_subset.mpr
    ⟨List.Subset.trans T.held_opened (List.subset_append_left _ _),
      List.subset_append_right _ _⟩
  once := by
    rw [List.map_append, List.nodup_append]
    refine ⟨T.once, by simp, ?_⟩
    intro before there last here same
    rw [same, List.mem_singleton.mp here] at there
    exact new there

/-- One descriptor less. -/
def remove (T : MqdTable) (o : ℕ) : MqdTable where
  opened := T.opened
  held := T.held.eraseP fun d => d.2 = o
  held_opened := List.Subset.trans List.eraseP_subset T.held_opened
  once := T.once

/-- `mq_open` has returned. -/
def afterOpen (T : MqdTable) (name : QueueName) : Mqd → Option MqdTable
  | none => some T
  | some o => if new : name ∉ T.opened.map Prod.fst then some (T.add name o new) else none

/-- `mq_send` or `mq_receive` on a queue has returned. -/
def afterUse (T : MqdTable) (name : QueueName) : Mqd → Option MqdTable
  | none => none
  | some o => if (name, o) ∈ T.held then some T else none

/-- `mq_close` has returned. -/
def afterClose (T : MqdTable) : Mqd → Option MqdTable
  | none => none
  | some o => if o ∈ T.held.map Prod.snd then some (T.remove o) else none

/-- What the table contains. -/
def Shows (T : MqdTable) (opened held : List (QueueName × ℕ)) : Prop :=
  T.opened = opened ∧ T.held = held

section Shows

variable {T : MqdTable} {opened held : List (QueueName × ℕ)} {name : QueueName} {o : ℕ}

theorem Shows.opens (h : T.Shows opened held) (new : name ∉ opened.map Prod.fst) :
    ∃ T', T.afterOpen name (some o) = some T' ∧
      T'.Shows (opened ++ [(name, o)]) (held ++ [(name, o)]) := by
  obtain ⟨rfl, rfl⟩ := h
  exact ⟨T.add name o new, dif_pos new, rfl, rfl⟩

theorem Shows.uses (h : T.Shows opened held) (mine : (name, o) ∈ held) :
    T.afterUse name (some o) = some T := by
  obtain ⟨rfl, rfl⟩ := h
  exact if_pos mine

/-- Both programs close first what they opened first. -/
theorem Shows.closes (h : T.Shows opened ((name, o) :: held)) :
    ∃ T', T.afterClose (some o) = some T' ∧ T'.Shows opened held := by
  obtain ⟨rfl, first⟩ := h
  have mine : o ∈ T.held.map Prod.snd := by
    rw [first]
    exact List.mem_cons_self
  refine ⟨T.remove o, if_pos mine, rfl, ?_⟩
  show T.held.eraseP (fun d => d.2 = o) = held
  rw [first]
  exact List.eraseP_cons_of_pos (decide_eq_true rfl)

end Shows

/-- A descriptor in use is the one its name was opened with. -/
theorem held_of_afterUse {T T' : MqdTable} {name : QueueName} {mq : Mqd}
    (used : T.afterUse name mq = some T') : T' = T ∧ ∃ o, mq = some o ∧ (name, o) ∈ T.held := by
  cases mq with
  | none => cases used
  | some o =>
      simp only [afterUse] at used
      split_ifs at used with mine
      cases used
      exact ⟨rfl, o, rfl, mine⟩

end MqdTable

/-- The kernel's view of a process's descriptors. -/
def mqdMonitor (B : Botan) : Monitor (Event (Op B) Op.Resp) MqdTable where
  start := .empty
  step T
    | ⟨.mqOpen name _, mq⟩ => T.afterOpen name mq
    | ⟨.mqSend site mq _, _⟩ => T.afterUse site.queue mq
    | ⟨.mqReceive site mq, _⟩ => T.afterUse site.queue mq
    | ⟨.mqClose mq, _⟩ => T.afterClose mq
    | _ => some T

section Descriptors

variable {B : Botan}

/-! ## The sender -/

/-- The sender's descriptors once both queues are open. -/
def senderMqds (sr rs : ℕ) : List (QueueName × ℕ) :=
  [(.senderToReceiver, sr), (.receiverToSender, rs)]

/-- The table from the phase switch on. -/
def SenderPc.Mqds (v : SenderVars B) (T : MqdTable) : SenderPc B → Prop
  | .closeRS _ => T.Shows (senderMqds v.sr v.rs) [(.receiverToSender, v.rs)]
  | .enter _ => T.Shows (senderMqds v.sr v.rs) []
  | .unlinkRS _ => T.Shows (senderMqds v.sr v.rs) []
  | .unlinkSR _ => T.Shows (senderMqds v.sr v.rs) []
  | .returned _ => T.Shows (senderMqds v.sr v.rs) []
  | _ => T.Shows (senderMqds v.sr v.rs) (senderMqds v.sr v.rs)

/-- The table at a point of the sender. -/
def SenderPoint.Mqds (T : MqdTable) : SenderPoint B → Prop
  | .openSR => T.Shows [] []
  | .openRS sr => T.Shows [(.senderToReceiver, sr)] [(.senderToReceiver, sr)]
  | .rng sr rs => T.Shows (senderMqds sr rs) (senderMqds sr rs)
  | .keygen sr rs => T.Shows (senderMqds sr rs) (senderMqds sr rs)
  | .randomize sr rs _ => T.Shows (senderMqds sr rs) (senderMqds sr rs)
  | .run v pc => pc.Mqds v T
  | .openFailed .senderToReceiver => T.Shows [] []
  | .openFailed .receiverToSender =>
      ∃ sr, T.Shows [(.senderToReceiver, sr)] [(.senderToReceiver, sr)]
  | .threw _ _ => ∃ sr rs, T.Shows (senderMqds sr rs) (senderMqds sr rs)

section SenderSteps

variable {cfg : Config} {T : MqdTable}

theorem SenderPc.mqds_loop {v : SenderVars B}
    (h : T.Shows (senderMqds v.sr v.rs) (senderMqds v.sr v.rs)) (n i : ℕ) :
    (SenderPc.loop n i : SenderPc B).Mqds v T := by
  cases n <;> exact h

theorem SenderPc.mqds_start {v : SenderVars B}
    (h : T.Shows (senderMqds v.sr v.rs) (senderMqds v.sr v.rs)) :
    (SenderPc.start v).Mqds v T := by
  unfold SenderPc.start
  split_ifs <;> exact h

/-- One call from the phase switch on. -/
theorem SenderPc.mqds_step {v : SenderVars B} {pc : SenderPc B} {e : Event (Op B) Op.Resp}
    {pt' : SenderPoint B} (here : pc.Mqds v T)
    (step : Machine.Step (SenderPoint.next cfg) (.run v pc) e pt') :
    ∃ T', (mqdMonitor B).step T e = some T' ∧ pt'.Mqds T' := by
  obtain ⟨op, r⟩ := e
  obtain ⟨k, waiting, rfl⟩ := step
  cases pc with
  | sendKey =>
      cases waiting
      refine ⟨T, here.uses (by simp [senderMqds, Site.queue]), ?_⟩
      cases r <;> exact here
  | sendKeyFailed => cases waiting; exact ⟨T, rfl, here⟩
  | recvKey =>
      cases waiting
      refine ⟨T, here.uses (by simp [senderMqds, Site.queue]), ?_⟩
      cases r <;> exact here
  | recvKeyFailed => cases waiting; exact ⟨T, rfl, here⟩
  | rngKey m =>
      cases waiting
      refine ⟨T, rfl, ?_⟩
      cases r with
      | ok _ => exact here
      | error e => exact ⟨v.sr, v.rs, here⟩
  | decrypt m =>
      cases waiting
      refine ⟨T, rfl, ?_⟩
      cases r with
      | ok key => exact here
      | error e => exact ⟨v.sr, v.rs, here⟩
  | setKey =>
      cases waiting
      refine ⟨T, rfl, ?_⟩
      cases r with
      | ok _ => exact SenderPc.mqds_loop here _ 0
      | error e => exact ⟨v.sr, v.rs, here⟩
  | frame i n =>
      cases waiting
      refine ⟨T, here.uses (by simp [senderMqds, Site.queue]), ?_⟩
      cases r with
      | false => exact here
      | true => exact SenderPc.mqds_loop here n (i + 1)
  | closeSR status =>
      cases waiting
      exact here.closes
  | closeRS status =>
      cases waiting
      exact here.closes
  | enter status => cases waiting; exact ⟨T, rfl, here⟩
  | unlinkRS status => cases waiting; exact ⟨T, rfl, here⟩
  | unlinkSR status => cases waiting; exact ⟨T, rfl, here⟩
  | returned status => cases waiting

/-- **The sender's calls keep to its table.** -/
theorem SenderPoint.mqds_step {pt pt' : SenderPoint B} {e : Event (Op B) Op.Resp}
    (here : pt.Mqds T) (step : Machine.Step (SenderPoint.next cfg) pt e pt') :
    ∃ T', (mqdMonitor B).step T e = some T' ∧ pt'.Mqds T' := by
  obtain ⟨op, r⟩ := e
  obtain ⟨k, waiting, rfl⟩ := step
  cases pt with
  | run v pc => exact SenderPc.mqds_step here ⟨k, waiting, rfl⟩
  | openSR =>
      cases waiting
      cases r with
      | none => exact ⟨T, rfl, here⟩
      | some sr => exact here.opens (by simp)
  | openRS sr =>
      cases waiting
      cases r with
      | none => exact ⟨T, rfl, sr, here⟩
      | some rs => exact here.opens (by simp)
  | rng sr rs =>
      cases waiting
      refine ⟨T, rfl, ?_⟩
      cases r with
      | ok _ => exact here
      | error e => exact ⟨sr, rs, here⟩
  | keygen sr rs =>
      cases waiting
      refine ⟨T, rfl, ?_⟩
      cases r with
      | ok sk => exact here
      | error e => exact ⟨sr, rs, here⟩
  | randomize sr rs sk =>
      cases waiting
      refine ⟨T, rfl, ?_⟩
      cases r with
      | ok bytes => exact SenderPc.mqds_start (v := ⟨sr, rs, sk, bytes.val⟩) here
      | error e => exact ⟨sr, rs, here⟩
  | openFailed name => cases waiting
  | threw key e => cases waiting

end SenderSteps

/-! ## The receiver -/

/-- The receiver's descriptors once both queues are open. -/
def receiverMqds (sr rs : ℕ) : List (QueueName × ℕ) :=
  [(.receiverToSender, rs), (.senderToReceiver, sr)]

/-- The table from the phase switch on. -/
def ReceiverPc.Mqds (v : ReceiverVars B) (T : MqdTable) : ReceiverPc B → Prop
  | .closeSR _ => T.Shows (receiverMqds v.sr v.rs) [(.senderToReceiver, v.sr)]
  | .returned _ => T.Shows (receiverMqds v.sr v.rs) []
  | _ => T.Shows (receiverMqds v.sr v.rs) (receiverMqds v.sr v.rs)

/-- The table at a point of the receiver. -/
def ReceiverPoint.Mqds (T : MqdTable) : ReceiverPoint B → Prop
  | .openRS => T.Shows [] []
  | .openSR rs => T.Shows [(.receiverToSender, rs)] [(.receiverToSender, rs)]
  | .run v pc => pc.Mqds v T
  | .openFailed .receiverToSender => T.Shows [] []
  | .openFailed .senderToReceiver =>
      ∃ rs, T.Shows [(.receiverToSender, rs)] [(.receiverToSender, rs)]
  | .threw v _ => T.Shows (receiverMqds v.sr v.rs) (receiverMqds v.sr v.rs)

section ReceiverSteps

variable {cfg : Config} {T : MqdTable}

theorem ReceiverPoint.mqds_receive {v : ReceiverVars B}
    (h : T.Shows (receiverMqds v.sr v.rs) (receiverMqds v.sr v.rs)) (buffer : List B.Byte)
    (m : Message B) : (ReceiverPoint.receive v buffer m).Mqds T := by
  unfold ReceiverPoint.receive
  split_ifs <;> exact h

/-- One call from the phase switch on. -/
theorem ReceiverPc.mqds_step {v : ReceiverVars B} {pc : ReceiverPc B}
    {e : Event (Op B) Op.Resp} {pt' : ReceiverPoint B} (here : pc.Mqds v T)
    (step : Machine.Step (ReceiverPoint.next cfg) (.run v pc) e pt') :
    ∃ T', (mqdMonitor B).step T e = some T' ∧ pt'.Mqds T' := by
  obtain ⟨op, r⟩ := e
  obtain ⟨k, waiting, rfl⟩ := step
  cases pc with
  | recvKey =>
      cases waiting
      refine ⟨T, here.uses (by simp [receiverMqds, Site.queue]), ?_⟩
      cases r <;> exact here
  | loadKey m =>
      cases waiting
      refine ⟨T, rfl, ?_⟩
      cases r <;> exact here
  | rng =>
      cases waiting
      refine ⟨T, rfl, ?_⟩
      cases r <;> exact here
  | randomize =>
      cases waiting
      refine ⟨T, rfl, ?_⟩
      cases r with
      | ok bytes =>
          obtain ⟨sr, rs, pk, key, compared⟩ := v
          rcases pk with _ | (_ | _) <;> exact here
      | error e => exact here
  | encrypt pk =>
      cases waiting
      refine ⟨T, rfl, ?_⟩
      cases r <;> exact here
  | sendKey c =>
      cases waiting
      exact ⟨T, here.uses (by simp [receiverMqds, Site.queue]), here⟩
  | setKey =>
      cases waiting
      refine ⟨T, rfl, ?_⟩
      cases r <;> exact here
  | loop buffer =>
      cases waiting
      refine ⟨T, here.uses (by simp [receiverMqds, Site.queue]), ?_⟩
      cases r with
      | none => exact here
      | some m => exact ReceiverPoint.mqds_receive here buffer m
  | enter status => cases waiting; exact ⟨T, rfl, here⟩
  | closeRS status =>
      cases waiting
      exact here.closes
  | closeSR status =>
      cases waiting
      exact here.closes
  | returned status => cases waiting
  | crashed f => cases waiting

/-- **The receiver's calls keep to its table.** -/
theorem ReceiverPoint.mqds_step {pt pt' : ReceiverPoint B} {e : Event (Op B) Op.Resp}
    (here : pt.Mqds T) (step : Machine.Step (ReceiverPoint.next cfg) pt e pt') :
    ∃ T', (mqdMonitor B).step T e = some T' ∧ pt'.Mqds T' := by
  obtain ⟨op, r⟩ := e
  obtain ⟨k, waiting, rfl⟩ := step
  cases pt with
  | run v pc => exact ReceiverPc.mqds_step here ⟨k, waiting, rfl⟩
  | openRS =>
      cases waiting
      cases r with
      | none => exact ⟨T, rfl, here⟩
      | some rs => exact here.opens (by simp)
  | openSR rs =>
      cases waiting
      cases r with
      | none => exact ⟨T, rfl, rs, here⟩
      | some sr => exact here.opens (by simp)
  | openFailed name => cases waiting
  | threw v e => cases waiting

end ReceiverSteps

/-! ## Both programs -/

/-- The table of a process that is over: it has closed what it opened, exactly when it
opened nothing or opened both queues and returned. -/
def MqdTable.Balanced (T : MqdTable) (p : Process B) : Prop :=
  T.held = [] ↔ T.opened = [] ∨ T.opened.length = 2 ∧ ∃ status, p.prog = .ret status

/-- A process that has not returned, or has returned early, still holds what it opened. -/
theorem MqdTable.balanced_of_early {T : MqdTable} {p : Process B}
    {mqds : List (QueueName × ℕ)} (shows : T.Shows mqds mqds) (some : mqds ≠ [])
    (early : mqds.length = 2 → ∀ status, p.prog ≠ .ret status) : T.Balanced p := by
  obtain ⟨opened, held⟩ := shows
  rw [Balanced, opened, held]
  refine iff_of_false some ?_
  rintro (none | ⟨both, status, returned⟩)
  · exact some none
  · exact early both status returned

/-- One that has returned from the end of `main` holds nothing. -/
theorem MqdTable.balanced_of_returned {T : MqdTable} {p : Process B}
    {mqds : List (QueueName × ℕ)} (shows : T.Shows mqds []) (both : mqds.length = 2)
    {status : ℕ} (returned : p.prog = .ret status) : T.Balanced p := by
  obtain ⟨opened, held⟩ := shows
  rw [Balanced, opened, held]
  exact iff_of_true rfl (.inr ⟨both, status, returned⟩)

/-- So does one that could open nothing. -/
theorem MqdTable.balanced_of_unopened {T : MqdTable} {p : Process B}
    (shows : T.Shows [] []) : T.Balanced p := by
  obtain ⟨opened, held⟩ := shows
  rw [Balanced, opened, held]
  exact iff_of_true rfl (.inl rfl)

section Ends

variable {cfg : Config} {T : MqdTable} {t : List (Event (Op B) Op.Resp)} {p : Process B}

/-- The table of a sender that is over. -/
theorem SenderPoint.At.balanced {pt : SenderPoint B} (here : pt.At cfg p)
    (ended : p.next = none) (table : pt.Mqds T) : T.Balanced p := by
  obtain ⟨v, status, rfl⟩ | ⟨name, rfl⟩ | ⟨key, e, rfl⟩ :=
    SenderPoint.ended_cases cfg ((senderMain_bisimulation cfg).ended_left here ended)
  · obtain ⟨pk, obs, rfl⟩ := here
    exact MqdTable.balanced_of_returned table rfl rfl
  · cases name with
    | senderToReceiver => exact MqdTable.balanced_of_unopened table
    | receiverToSender =>
        obtain ⟨sr, shows⟩ := table
        exact MqdTable.balanced_of_early shows (by simp) nofun
  · obtain ⟨pk, obs, rfl⟩ := here
    obtain ⟨sr, rs, shows⟩ := table
    exact MqdTable.balanced_of_early shows (by simp [senderMqds]) fun _ => nofun

/-- The table of a receiver that is over. -/
theorem ReceiverPoint.At.balanced {pt : ReceiverPoint B} (here : pt.At cfg p)
    (ended : p.next = none) (table : pt.Mqds T) : T.Balanced p := by
  obtain ⟨v, status, rfl, shape⟩ | ⟨v, f, rfl, shape⟩ | ⟨name, rfl, -⟩ | ⟨v, e, rfl, shape⟩ :=
    ReceiverPoint.At.ended_cases cfg here ended
  · exact MqdTable.balanced_of_returned table rfl shape
  · refine MqdTable.balanced_of_early table (by simp [receiverMqds]) fun _ status is => ?_
    rw [shape] at is
    cases is
  · cases name with
    | receiverToSender => exact MqdTable.balanced_of_unopened table
    | senderToReceiver =>
        obtain ⟨rs, shows⟩ := table
        exact MqdTable.balanced_of_early shows (by simp) nofun
  · refine MqdTable.balanced_of_early table (by simp [receiverMqds]) fun _ status is => ?_
    rw [shape] at is
    cases is

/-- The table of a sender after a run. -/
theorem senderProcess_watched (run : Machine.Runs Proc.next (senderProcess cfg) t p) :
    ∃ T, (mqdMonitor B).watch .empty t = some T ∧
      ∃ pt : SenderPoint B, pt.At cfg p ∧ pt.Mqds T := by
  obtain ⟨pt, reached, here⟩ := senderProcess_runs cfg run
  obtain ⟨T, watched, table⟩ := (mqdMonitor B).accepts (R := fun pt T => pt.Mqds T)
    (fun _ _ _ _ h step => SenderPoint.mqds_step h step) ⟨rfl, rfl⟩ reached
  exact ⟨T, watched, pt, here, table⟩

/-- The table of a receiver after a run. -/
theorem receiverProcess_watched (run : Machine.Runs Proc.next (receiverProcess cfg) t p) :
    ∃ T, (mqdMonitor B).watch .empty t = some T ∧
      ∃ pt : ReceiverPoint B, pt.At cfg p ∧ pt.Mqds T := by
  obtain ⟨pt, reached, here⟩ :=
    (receiverMain_bisimulation cfg).runs_right (receiverProcess_at cfg) run
  obtain ⟨T, watched, table⟩ := (mqdMonitor B).accepts (R := fun pt T => pt.Mqds T)
    (fun _ _ _ _ h step => ReceiverPoint.mqds_step h step) ⟨rfl, rfl⟩ reached
  exact ⟨T, watched, pt, here, table⟩

/-- No run of either program is rejected. -/
theorem Role.watched {role : Role} (run : Machine.Runs Proc.next (role.process cfg) t p) :
    ∃ T, (mqdMonitor B).watch .empty t = some T := by
  cases role with
  | sender =>
      obtain ⟨T, watched, -⟩ := senderProcess_watched run
      exact ⟨T, watched⟩
  | receiver =>
      obtain ⟨T, watched, -⟩ := receiverProcess_watched run
      exact ⟨T, watched⟩

end Ends

/-- **Both programs keep to their descriptors**: in every run, whatever the calls return,
no name is opened twice and only descriptors held under the right name are used or closed;
and once it is over, a process has closed them all unless it left `main` early. -/
theorem mqds_disciplined (cfg : Config) (role : Role) (t : List (Event (Op B) Op.Resp))
    (p : Process B) (run : Machine.Runs Proc.next (role.process cfg) t p) :
    ∃ T, (mqdMonitor B).watch .empty t = some T ∧ (p.next = none → T.Balanced p) := by
  cases role with
  | sender =>
      obtain ⟨T, watched, pt, here, table⟩ := senderProcess_watched run
      exact ⟨T, watched, fun ended => here.balanced ended table⟩
  | receiver =>
      obtain ⟨T, watched, pt, here, table⟩ := receiverProcess_watched run
      exact ⟨T, watched, fun ended => here.balanced ended table⟩

/-- A sender that has sent a frame and returned has closed both. -/
theorem mqds_disciplined_frameTrace :
    ∃ (T : MqdTable) (p : Process sampleBotan), (mqdMonitor sampleBotan).watch .empty
        (handshakeTrace ⟨1, 10⟩ sampleCiphertext (.ok sampleKey) ++ frameTrace) = some T ∧
      p.prog = .ret kOK ∧ T.Balanced p := by
  obtain ⟨p, reached, ended, exits⟩ := frameTrace_runs
  obtain ⟨T, watched, balanced⟩ := mqds_disciplined ⟨1, 10⟩ .sender _ p reached
  exact ⟨T, p, watched, exits, balanced ended⟩

end Descriptors

end SecureComm
