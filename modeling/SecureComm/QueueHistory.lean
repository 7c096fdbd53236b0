import Mathlib.Data.List.Nodup
import Mathlib.Tactic.Common
import SecureComm.Delivery
import SecureComm.Descriptors
import SecureComm.Threads

/-!
# The history of the queues

Any number of sessions, over any kernel: names may be bound, messages of dead processes
may wait, any call may fail, processes may crash and leave their queues behind.  Whatever
happens, there is one history of transfers behind it.  Each process finds its own record in
it, in order, and it explains every queue object: what waits there is what was there and
has been sent, without what has been read.

A third party that rewrites queues is left out.
-/

namespace SecureComm

open Interaction MessageQueue

section QueueHistory

variable {ι : Type} {B : Botan}

/-! ## Directions -/

/-- The other program of a session. -/
def Role.peer : Role → Role
  | .sender => .receiver
  | .receiver => .sender

/-- The queue a program reads. -/
def Role.reads : Role → QueueName
  | .sender => .receiverToSender
  | .receiver => .senderToReceiver

/-- The queue a program writes. -/
def Role.writes : Role → QueueName
  | .sender => .senderToReceiver
  | .receiver => .receiverToSender

theorem Role.reads_ne_writes (role : Role) : role.reads ≠ role.writes := by
  cases role <;> nofun

@[simp] theorem Role.peer_writes (role : Role) : role.peer.writes = role.reads := by
  cases role <;> rfl

@[simp] theorem Role.peer_reads (role : Role) : role.peer.reads = role.writes := by
  cases role <;> rfl

/-- A call sends to the queue its program writes, and receives from the one it reads. -/
def Op.Directed (role : Role) : Op B → Prop
  | .mqSend site _ _ => site.queue = role.writes
  | .mqReceive site _ => site.queue = role.reads
  | _ => True

/-- The same of a record. -/
def Rec.Directed (role : Role) : Rec ι B → Prop
  | .opened _ _ => True
  | .sent site _ => site.queue = role.writes
  | .read site _ => site.queue = role.reads

/-- The calls of both programs are directed. -/
theorem Role.directed {cfg : Config} {role : Role} {t : List (Event (Op B) Op.Resp)}
    {p : Process B} (run : Machine.Runs Proc.next (role.process cfg) t p) {op : Op B}
    {k : op.Resp → Process B} (waiting : p.next = some ⟨op, k⟩) : op.Directed role := by
  cases role with
  | sender =>
      obtain ⟨pt, -, here⟩ := senderProcess_runs cfg run
      obtain ⟨next, there⟩ := (senderMain_bisimulation cfg).waiting_left here waiting
      cases pt with
      | run v pc => cases pc <;> cases there <;> first | rfl | trivial
      | _ => cases there <;> trivial
  | receiver =>
      obtain ⟨pt, here, -⟩ := receiverProcess_runs cfg run
      obtain ⟨next, there⟩ := (receiverMain_bisimulation cfg).waiting_left here waiting
      cases pt with
      | run v pc => cases pc <;> cases there <;> first | rfl | trivial
      | _ => cases there <;> trivial

/-- Both programs open with the attributes of the source. -/
theorem Role.opens {cfg : Config} {role : Role} {t : List (Event (Op B) Op.Resp)}
    {p : Process B} (run : Machine.Runs Proc.next (role.process cfg) t p) {name : QueueName}
    {attr : MqAttr} {k : Mqd → Process B} (waiting : p.next = some ⟨.mqOpen name attr, k⟩) :
    attr = queueAttr cfg := by
  cases role with
  | sender =>
      obtain ⟨pt, -, here⟩ := senderProcess_runs cfg run
      obtain ⟨next, there⟩ := (senderMain_bisimulation cfg).waiting_left here waiting
      exact (SenderPoint.opens there).1
  | receiver =>
      obtain ⟨pt, here, -⟩ := receiverProcess_runs cfg run
      obtain ⟨next, there⟩ := (receiverMain_bisimulation cfg).waiting_left here waiting
      exact (ReceiverPoint.opens there).1

/-- The records of a directed call are directed. -/
theorem Answered.directed {K : Type} {Q : QueueService ι B K} {P : Policy ι B} {k : ι}
    {role : Role} {κ κ' : K} {op : Op B} {r : op.Resp} {recs : List (Rec ι B)}
    (answer : Answered Q P k role κ op r κ' recs) (directed : op.Directed role) :
    ∀ r ∈ recs, r.Directed role := by
  intro r inside
  cases answer with
  | mqOpen opens => rw [List.mem_singleton.mp inside]; trivial
  | mqSend fits sends => rw [List.mem_singleton.mp inside]; exact directed
  | mqReceive receives => rw [List.mem_singleton.mp inside]; exact directed
  | _ => cases inside

/-! ## Descriptors on record -/

/-- The opens on record, in order. -/
def openings (log : List (Rec ι B)) : List (QueueName × ℕ) :=
  log.filterMap fun
    | .opened name o => some (name, o)
    | _ => none

@[simp] theorem openings_append (log log' : List (Rec ι B)) :
    openings (log ++ log') = openings log ++ openings log' := List.filterMap_append

theorem mem_openings {log : List (Rec ι B)} {name : QueueName} {o : ℕ} :
    (name, o) ∈ openings log ↔ .opened name o ∈ log := by
  constructor
  · intro inside
    obtain ⟨r, there, is⟩ := List.mem_filterMap.mp inside
    cases r with
    | opened name' o' => cases is; exact there
    | _ => cases is
  · intro inside
    exact List.mem_filterMap.mpr ⟨_, inside, rfl⟩

/-- Where no name is opened twice, a process has one object for each name it opened. -/
theorem openedAs_of_mem {log : List (Rec ι B)} {name : QueueName} {o : ℕ}
    (once : ((openings log).map Prod.fst).Nodup) (opened : .opened name o ∈ log) :
    openedAs name log = some o := by
  cases found : openedAs name log with
  | none => exact absurd opened (openedAs_eq_none found o)
  | some o' =>
      have other := mem_openings.mpr (openedAs_mem found)
      have same := List.inj_on_of_nodup_map once other (mem_openings.mpr opened) rfl
      rw [(Prod.mk.inj same).2]

/-- Later records do not change it. -/
theorem openedAs_append {log : List (Rec ι B)} {name : QueueName} {o : ℕ}
    (opened : openedAs name log = some o) (recs : List (Rec ι B)) :
    openedAs name (log ++ recs) = some o := by
  simp only [openedAs] at opened ⊢
  rw [List.findSome?_append, opened]
  rfl

/-- The open an event is. -/
def opening? : Event (Op B) Op.Resp → Option (QueueName × ℕ)
  | ⟨.mqOpen name _, some o⟩ => some (name, o)
  | _ => none

/-- The table of descriptors lists the opens of the trace. -/
theorem opened_of_watch {t : List (Event (Op B) Op.Resp)} {T T' : MqdTable}
    (watched : (mqdMonitor B).watch T t = some T') :
    T'.opened = T.opened ++ t.filterMap opening? := by
  induction t generalizing T with
  | nil => cases watched; simp
  | cons e t ih =>
      obtain ⟨T₁, here, rest⟩ := Option.bind_eq_some_iff.mp watched
      have first : T₁.opened = T.opened ++ (opening? e).toList := by
        obtain ⟨op, r⟩ := e
        cases op with
        | mqOpen name attr =>
            cases r with
            | none => cases here; simp [opening?]
            | some o =>
                have added : (if new : name ∉ T.opened.map Prod.fst
                  then some (T.add name o new) else none) = some T₁ := here
                split_ifs at added
                cases added
                rfl
        | mqSend site mq msg =>
            rw [(MqdTable.held_of_afterUse here).1]
            simp [opening?]
        | mqReceive site mq =>
            rw [(MqdTable.held_of_afterUse here).1]
            simp [opening?]
        | mqClose mq =>
            cases mq with
            | none => cases here
            | some o =>
                have closed : (if o ∈ T.held.map Prod.snd then some (T.remove o) else none) =
                  some T₁ := here
                split_ifs at closed
                cases closed
                simp [MqdTable.remove, opening?]
        | _ => cases here; simp [opening?]
      rw [ih rest, first, List.append_assoc]
      cases opens : opening? e with
      | none => simp [opens]
      | some d => simp [opens]

/-- The environment records the opens. -/
theorem Answered.openings {K : Type} {Q : QueueService ι B K} {P : Policy ι B} {k : ι}
    {role : Role} {κ κ' : K} {op : Op B} {r : op.Resp} {recs : List (Rec ι B)}
    (answer : Answered Q P k role κ op r κ' recs) :
    SecureComm.openings recs = (opening? ⟨op, r⟩).toList := by
  cases answer with
  | botan is h => cases op <;> first | rfl | cases is
  | _ => rfl

section Runs

variable {K : Type} {Q : QueueService ι B K} {P : Policy ι B} {cfg : Config} {k : ι}
  {role : Role} {t : List (Event (Op B) Op.Resp × List (Rec ι B))} {p p' : Process B}

/-- It does so all along a run. -/
theorem openings_flatMap
    (answers : ∀ x ∈ t, ∃ κ κ', Answered Q P k role κ x.1.1 x.1.2 κ' x.2) :
    openings (t.flatMap Prod.snd) = (t.map Prod.fst).filterMap opening? := by
  induction t with
  | nil => rfl
  | cons x t ih =>
      obtain ⟨κ, κ', answer⟩ := answers x List.mem_cons_self
      rw [List.flatMap_cons, openings_append, answer.openings,
        ih fun y inside => answers y (List.mem_cons_of_mem x inside)]
      cases opens : opening? x.1 with
      | none => simp [opens]
      | some d => simp [opens]

/-- **A process sends and receives on the object it has opened.** -/
theorem mqd_of_run (run : Machine.Runs Proc.next (role.process cfg) (t.map Prod.fst) p)
    (answers : ∀ x ∈ t, ∃ κ κ', Answered Q P k role κ x.1.1 x.1.2 κ' x.2)
    {e : Event (Op B) Op.Resp} (step : Machine.Step Proc.next p e p') {name : QueueName}
    {mq : Mqd} (uses : e.1.uses = some (name, mq)) :
    ∃ o, mq = some o ∧ openedAs name (t.flatMap Prod.snd) = some o := by
  -- the monitor accepts the call that is made now
  obtain ⟨T', watched⟩ := Role.watched (run.snoc step)
  rw [Monitor.watch_append] at watched
  obtain ⟨T, before, now⟩ := Option.bind_eq_some_iff.mp watched
  obtain ⟨T'', used, -⟩ := Option.bind_eq_some_iff.mp now
  have mine : ∃ o, mq = some o ∧ (name, o) ∈ T.held := by
    obtain ⟨op, r⟩ := e
    cases op with
    | mqSend site mq' msg => cases uses; exact (MqdTable.held_of_afterUse used).2
    | mqReceive site mq' => cases uses; exact (MqdTable.held_of_afterUse used).2
    | _ => cases uses
  obtain ⟨o, rfl, held⟩ := mine
  have recorded : openings (t.flatMap Prod.snd) = T.opened := by
    rw [openings_flatMap answers, opened_of_watch before]
    rfl
  refine ⟨o, rfl, openedAs_of_mem ?_ ?_⟩
  · rw [recorded]
    exact T.once
  · rw [← mem_openings, recorded]
    exact T.held_opened held

end Runs

section Threads

variable [DecidableEq ι] [LT ι] {P : Policy ι B} {cfg : Config}
  {κ₀ : Kernel QueueName (Entry ι B)} {w : SessionsWorld ι B}

/-- A call of a process is directed. -/
theorem directed_of_step (reach : (sessions P).Reachable (sessionsStart cfg κ₀) w)
    (pid : ι × Role) {e : Event (Op B) Op.Resp} {p : Process B}
    (step : Machine.Step Proc.next (w.procs pid) e p) : e.1.Directed pid.2 := by
  obtain ⟨t, run, -, -⟩ := exists_thread reach pid.1 pid.2
  obtain ⟨op, r⟩ := e
  obtain ⟨k, waiting, -⟩ := step
  exact Role.directed run waiting

/-- So is what a process has on record. -/
theorem directed_of_mem (reach : (sessions P).Reachable (sessionsStart cfg κ₀) w)
    (pid : ι × Role) : ∀ r ∈ w.log pid, r.Directed pid.2 := by
  refine invariant reach (I := fun w => ∀ r ∈ w.log pid, r.Directed pid.2) nofun ?_
  intro w w' front before step r inside
  cases step with
  | move intruded => exact before r inside
  | @act other e p env recs may step answer =>
      rcases System.mem_update_log.mp inside with old | ⟨rfl, new⟩
      · exact before r old
      · exact answer.directed (directed_of_step front pid step) r new

/-- So does a process among others. -/
theorem mqd_of_uses (reach : (sessions P).Reachable (sessionsStart cfg κ₀) w)
    (pid : ι × Role) {e : Event (Op B) Op.Resp} {p : Process B}
    (step : Machine.Step Proc.next (w.procs pid) e p) {name : QueueName} {mq : Mqd}
    (uses : e.1.uses = some (name, mq)) :
    ∃ o, mq = some o ∧ openedAs name (w.log pid) = some o := by
  obtain ⟨k, role⟩ := pid
  obtain ⟨t, run, log, answers⟩ := exists_thread reach k role
  rw [log]
  exact mqd_of_run run answers step uses

end Threads

/-! ## The history -/

/-- The transfer on record in a session: a message with its origin, into or out of the
object the function's queue is open as. -/
inductive TransferOf (k : ι) (log : List (Rec ι B)) : Rec ι B → Transfer (Entry ι B) → Prop
  | sent {site : Site} {m : Message B} {o : ℕ} (opened : openedAs site.queue log = some o) :
      TransferOf k log (.sent site m) (.sent o ⟨some (k, site), m⟩)
  | read {site : Site} {e : Entry ι B} {o : ℕ} (opened : openedAs site.queue log = some o) :
      TransferOf k log (.read site e) (.read o e)

theorem TransferOf.append {k : ι} {log : List (Rec ι B)} {r : Rec ι B}
    {x : Transfer (Entry ι B)} (is : TransferOf k log r x) (recs : List (Rec ι B)) :
    TransferOf k (log ++ recs) r x := by
  cases is with
  | sent opened => exact .sent (openedAs_append opened recs)
  | read opened => exact .read (openedAs_append opened recs)

variable [DecidableEq ι]

/-- A process's part of a history. -/
def partOf (pid : ι × Role) (h : List ((ι × Role) × Transfer (Entry ι B))) :
    List (Transfer (Entry ι B)) :=
  h.filterMap fun x => if x.1 = pid then some x.2 else none

/-- **A history of what the processes did since the kernel was `κ₀`**: each finds its
record in it, and the record is true of the queues. -/
structure HistoryOf (κ₀ : Kernel QueueName (Entry ι B)) (w : SessionsWorld ι B)
    (h : List ((ι × Role) × Transfer (Entry ι B))) : Prop where
  parts : ∀ pid, List.Forall₂ (TransferOf pid.1 (w.log pid)) (exchanges (w.log pid))
    (partOf pid h)
  replays : Replays κ₀.queue (h.map Prod.snd) w.env.queue

section Steps

variable {κ₀ κ : Kernel QueueName (Entry ι B)} {w : SessionsWorld ι B}
  {h : List ((ι × Role) × Transfer (Entry ι B))} {procs : ι × Role → Process B}

/-- Nothing is transferred. -/
theorem HistoryOf.quiet (history : HistoryOf κ₀ w h) (pid : ι × Role)
    {recs : List (Rec ι B)} (none : exchanges recs = [])
    (same : κ.queue = w.env.queue) :
    HistoryOf κ₀ ⟨κ, procs, Function.update w.log pid (w.log pid ++ recs)⟩ h where
  parts other := by
    by_cases is : other = pid
    · subst is
      simp only [Function.update_self, exchanges_append, none, List.append_nil]
      exact (history.parts other).imp fun _ _ transfer => transfer.append recs
    · simpa only [Function.update_of_ne is] using history.parts other
  replays := by
    rw [same]
    exact history.replays

/-- A transfer is made and recorded. -/
theorem HistoryOf.transfer (history : HistoryOf κ₀ w h) (pid : ι × Role) {r : Rec ι B}
    {x : Transfer (Entry ι B)} (is : TransferOf pid.1 (w.log pid) r x)
    (replays : Replays κ₀.queue (h.map Prod.snd ++ [x]) κ.queue) :
    HistoryOf κ₀ ⟨κ, procs, Function.update w.log pid (w.log pid ++ [r])⟩
      (h ++ [(pid, x)]) where
  parts other := by
    have recorded : exchanges [r] = [r] := by cases is <;> rfl
    by_cases mine : other = pid
    · subst mine
      have here : partOf other [(other, x)] = [x] := by simp [partOf]
      simp only [Function.update_self, exchanges_append, recorded]
      rw [partOf, List.filterMap_append, ← partOf, ← partOf, here]
      exact List.rel_append ((history.parts other).imp fun _ _ transfer => transfer.append [r])
        (.cons (is.append [r]) .nil)
    · have elsewhere : partOf other [(pid, x)] = [] := by simp [partOf, Ne.symm mine]
      rw [partOf, List.filterMap_append, ← partOf, ← partOf, elsewhere, List.append_nil]
      simpa only [Function.update_of_ne mine] using history.parts other
  replays := by simpa using replays

end Steps

section Runs

variable [LT ι] {P : Policy ι B} {cfg : Config} {κ₀ : Kernel QueueName (Entry ι B)}
  {w w' : SessionsWorld ι B}

/-- A step adds to the history. -/
theorem HistoryOf.step {h : List ((ι × Role) × Transfer (Entry ι B))}
    (alone : ∀ sl rl q q', ¬ P.intrudes sl rl q q')
    (reach : (sessions P).Reachable (sessionsStart cfg κ₀) w) (history : HistoryOf κ₀ w h)
    (step : (sessions P).Step w w') : ∃ h', HistoryOf κ₀ w' (h ++ h') := by
  have nothing : ∀ {w'}, HistoryOf κ₀ w' h → ∃ h', HistoryOf κ₀ w' (h ++ h') :=
    fun still => ⟨[], by rwa [List.append_nil]⟩
  cases step with
  | move intruded =>
      obtain ⟨k, o, msgs, allocated, opened, intrudes, -⟩ := intruded
      exact absurd intrudes (alone _ _ _ _)
  | @act pid e p env recs may step answer =>
      obtain ⟨op, r⟩ := e
      cases answer with
      | mqSend fits sends =>
          obtain ⟨o, allocated, rfl, -, rfl⟩ := sends
          obtain ⟨o', same, opened⟩ := mqd_of_uses reach pid step rfl
          cases same
          refine ⟨_, history.transfer pid (.sent opened) ?_⟩
          rw [Kernel.setQueue_queue]
          exact .send o _ history.replays
      | mqReceive receives =>
          obtain ⟨o, rest, allocated, rfl, waits, rfl⟩ := receives
          obtain ⟨o', same, opened⟩ := mqd_of_uses reach pid step rfl
          cases same
          refine ⟨_, history.transfer pid (.read opened) ?_⟩
          rw [Kernel.setQueue_queue]
          exact .receive history.replays waits
      | mqOpen opens => exact nothing (history.quiet pid rfl (Kernel.mqOpen_queue opens))
      | mqUnlink unlinks => cases unlinks; exact nothing (history.quiet pid rfl rfl)
      | _ => exact nothing (history.quiet pid rfl rfl)

/-- What has happened has happened. -/
theorem HistoryOf.run {h : List ((ι × Role) × Transfer (Entry ι B))}
    (alone : ∀ sl rl q q', ¬ P.intrudes sl rl q q')
    (reach : (sessions P).Reachable (sessionsStart cfg κ₀) w) (history : HistoryOf κ₀ w h)
    (later : (sessions P).Reachable w w') : ∃ h', HistoryOf κ₀ w' (h ++ h') := by
  refine invariant later (I := fun w' => ∃ h', HistoryOf κ₀ w' (h ++ h'))
    ⟨[], by rwa [List.append_nil]⟩ ?_
  rintro w' w'' front ⟨h', history'⟩ step
  obtain ⟨h'', history''⟩ := history'.step alone (reach.trans front) step
  exact ⟨h' ++ h'', by rwa [← List.append_assoc]⟩

/-- The history of a state. -/
theorem exists_historyOf (alone : ∀ sl rl q q', ¬ P.intrudes sl rl q q')
    (reach : (sessions P).Reachable (sessionsStart cfg κ₀) w) : ∃ h, HistoryOf κ₀ w h :=
  HistoryOf.run (h := []) alone .refl ⟨fun _ => .nil, .nil⟩ reach

/-- A process that has sent a message has opened its queue. -/
theorem openedAs_of_sent (alone : ∀ sl rl q q', ¬ P.intrudes sl rl q q')
    (reach : (sessions P).Reachable (sessionsStart cfg κ₀) w) {pid : ι × Role} {site : Site}
    {m : Message B} (sent : .sent site m ∈ w.log pid) :
    ∃ o, openedAs site.queue (w.log pid) = some o := by
  obtain ⟨h, history⟩ := exists_historyOf alone reach
  have recorded : .sent site m ∈ exchanges (w.log pid) :=
    List.mem_filter.mpr ⟨sent, rfl⟩
  obtain ⟨i, is⟩ := List.mem_iff_get.mp recorded
  obtain ⟨lengths, matched⟩ := List.forall₂_iff_get.mp (history.parts pid)
  have transfer := matched i i.isLt (lengths ▸ i.isLt)
  rw [show (exchanges (w.log pid)).get ⟨i, i.isLt⟩ = _ from is] at transfer
  generalize (partOf pid h).get ⟨i, _⟩ = x at transfer
  cases transfer with
  | sent opened => exact ⟨_, opened⟩

/-- **The queues have one history.**  Whatever the kernel held, however the sessions
interleave, fail and crash: behind every state there is a history in which each process
finds its own record, and what happens later only adds to it. -/
theorem queues_linearized (alone : ∀ sl rl q q', ¬ P.intrudes sl rl q q') (cfg : Config)
    (κ₀ : Kernel QueueName (Entry ι B)) (w w' : SessionsWorld ι B)
    (reach : (sessions P).Reachable (sessionsStart cfg κ₀) w)
    (later : (sessions P).Reachable w w') :
    ∃ h h', HistoryOf κ₀ w h ∧ HistoryOf κ₀ w' (h ++ h') := by
  obtain ⟨h, history⟩ := exists_historyOf alone reach
  obtain ⟨h', history'⟩ := history.run alone reach later
  exact ⟨h, h', history, history'⟩

/-- The history of a sample session that has sent and read three of its frames: five of its
transfers are the receiver's. -/
theorem queues_linearized_frames :
    ∃ (w : SessionsWorld Unit sampleBotan) (h : _),
      HistoryOf (Kernel.empty QueueName (Entry Unit sampleBotan)) w h ∧
      (partOf ((), .receiver) h).length = 5 := by
  obtain ⟨buffer, w, reach, here, -⟩ := Stage.Reached.frames
    (P := fun _ => Policy.honest Unit sampleDraws True) (k := ()) (i := 3) sampleScript
    (Policy.honest_honours Unit sampleDraws True) (by decide) (fun _ => rfl)
    (fun _ => rfl) (alone_may _)
    (Stage.at_start .source (Kernel.empty _ _) ())
    (by decide)
  obtain ⟨h, -, history, -⟩ :=
    queues_linearized (fun _ _ _ _ => id) .source (Kernel.empty _ _) w w reach .refl
  refine ⟨w, h, history, (history.parts ((), .receiver)).length_eq.symm.trans ?_⟩
  rw [here.receiverLog, Script.exchanges_receiverLog]
  rfl

end Runs

/-! ## One session -/

section OneName

variable [LT ι] {P : Policy ι B} {cfg : Config} {κ₀ : Kernel QueueName (Entry ι B)}
  {w : SessionsWorld ι B}

/-- Every object goes by one name, now and in all that is on record. -/
structure OneName (w : SessionsWorld ι B) : Prop where
  allocated : ∀ pid name o, .opened name o ∈ w.log pid → o < w.env.fresh
  named : ∀ pid name o, .opened name o ∈ w.log pid →
    ∀ name', w.env.names name' = some o → name' = name
  apart : ∀ pid pid' name name' o, .opened name o ∈ w.log pid →
    .opened name' o ∈ w.log pid' → name = name'

section Steps

omit [LT ι]

variable {κ : Kernel QueueName (Entry ι B)} {procs : ι × Role → Process B}

/-- Nothing is opened or bound. -/
theorem OneName.quiet (before : OneName w) (pid : ι × Role) {recs : List (Rec ι B)}
    (none : ∀ name o, .opened name o ∉ recs)
    (names : ∀ name o, κ.names name = some o → w.env.names name = some o)
    (fresh : κ.fresh = w.env.fresh) :
    OneName ⟨κ, procs, Function.update w.log pid (w.log pid ++ recs)⟩ := by
  have old : ∀ {pid' name o}, .opened name o ∈ Function.update w.log pid (w.log pid ++ recs) pid' →
      .opened name o ∈ w.log pid' := fun inside =>
    (System.mem_update_log.mp inside).resolve_right fun new => none _ _ new.2
  refine ⟨?_, ?_, ?_⟩
  · intro pid' name o inside
    rw [fresh]
    exact before.allocated pid' name o (old inside)
  · intro pid' name o inside name' bound
    exact before.named pid' name o (old inside) name' (names name' o bound)
  · intro pid' pid'' name name' o inside inside'
    exact before.apart pid' pid'' name name' o (old inside) (old inside')

/-- A name is opened. -/
theorem OneName.opens (before : OneName w) (pid : ι × Role) {name : QueueName} {maxmsg o : ℕ}
    (opens : w.env.mqOpen name maxmsg = (o, κ)) :
    OneName ⟨κ, procs, Function.update w.log pid (w.log pid ++ [.opened name o])⟩ := by
  have opened := Kernel.mqOpen_opens opens
  -- the object is not on record under another name
  have alone : ∀ pid' name', .opened name' o ∈ w.log pid' → name' = name := by
    intro pid' name' inside
    rcases opened.new name o opened.bound with old | new
    · exact (before.named pid' name' o inside name old).symm
    · exact absurd (before.allocated pid' name' o inside) (not_lt.mpr new)
  refine ⟨?_, ?_, ?_⟩
  · intro pid' name' o' inside
    rcases System.mem_update_log.mp inside with old | ⟨-, new⟩
    · exact (before.allocated pid' name' o' old).trans_le opened.grows
    · cases List.mem_singleton.mp new
      exact κ.names_lt name o opened.bound
  · intro pid' name' o' inside name'' names
    rcases System.mem_update_log.mp inside with old | ⟨-, new⟩
    · have older := before.allocated pid' name' o' old
      exact before.named pid' name' o' old name''
        ((opened.new name'' o' names).resolve_right (not_le.mpr older))
    · cases List.mem_singleton.mp new
      exact κ.names_inj _ _ _ names opened.bound
  · intro pid' pid'' name' name'' o' inside inside'
    rcases System.mem_update_log.mp inside with old | ⟨-, new⟩ <;>
      rcases System.mem_update_log.mp inside' with old' | ⟨-, new'⟩
    · exact before.apart pid' pid'' name' name'' o' old old'
    · cases List.mem_singleton.mp new'
      exact alone pid' name' old
    · cases List.mem_singleton.mp new
      exact (alone pid'' name'' old').symm
    · cases List.mem_singleton.mp new
      cases List.mem_singleton.mp new'
      rfl

end Steps

/-- No step gives an object a second name. -/
theorem oneName (reach : (sessions P).Reachable (sessionsStart cfg κ₀) w) : OneName w := by
  refine invariant reach (I := OneName) ⟨nofun, nofun, nofun⟩ ?_
  intro w w' front before step
  cases step with
  | move intruded =>
      obtain ⟨k, o, msgs, allocated, opened, intrudes, rfl⟩ := intruded
      exact ⟨before.allocated, before.named, before.apart⟩
  | @act pid e p env recs may step answer =>
      obtain ⟨op, r⟩ := e
      cases answer with
      | mqOpen opens => exact before.opens pid opens
      | mqSend fits sends =>
          obtain ⟨o, allocated, rfl, -, rfl⟩ := sends
          exact before.quiet pid (by simp) (fun _ _ => id) rfl
      | mqReceive receives =>
          obtain ⟨o, rest, allocated, rfl, waits, rfl⟩ := receives
          exact before.quiet pid (by simp) (fun _ _ => id) rfl
      | @mqUnlink _ name unlinks =>
          cases unlinks
          exact before.quiet pid (by simp) (fun _ _ => Kernel.names_of_unlink) rfl
      | _ => exact before.quiet pid (by simp) (fun _ _ => id) rfl

end OneName

/-! ## Capacities -/

/-- The queues of `κ₀` keep their capacity, the new ones have that of the source, and no name
is bound to an old queue again. -/
structure Capacities (cfg : Config) (κ₀ κ : Kernel QueueName (Entry ι B)) : Prop where
  grows : κ₀.fresh ≤ κ.fresh
  old : ∀ o, o < κ₀.fresh → (κ.objects o).maxmsg = (κ₀.objects o).maxmsg
  new : ∀ o, κ₀.fresh ≤ o → o < κ.fresh → (κ.objects o).maxmsg = cfg.maxMessages
  named : ∀ name o, κ.names name = some o → κ₀.names name = some o ∨ κ₀.fresh ≤ o

omit [DecidableEq ι] in
/-- An open with the attributes of the source keeps to them. -/
theorem Capacities.opens {cfg : Config} {κ₀ κ κ' : Kernel QueueName (Entry ι B)}
    (before : Capacities cfg κ₀ κ) {name : QueueName} {o : ℕ}
    (opens : κ.mqOpen name cfg.maxMessages = (o, κ')) : Capacities cfg κ₀ κ' := by
  have opened := Kernel.mqOpen_opens opens
  refine ⟨before.grows.trans opened.grows, fun o older => ?_, fun o newer lower => ?_,
    fun name' o named => ?_⟩
  · rw [opened.maxmsg_old o (older.trans_le before.grows)]
    exact before.old o older
  · rcases lt_or_ge o κ.fresh with earlier | later
    · rw [opened.maxmsg_old o earlier]
      exact before.new o newer earlier
    · exact opened.maxmsg_new o later lower
  · rcases opened.new name' o named with old | new
    · exact before.named name' o old
    · exact .inr (before.grows.trans new)

/-- The capacities of the queues. -/
theorem capacities [LT ι] {P : Policy ι B} {cfg : Config} {κ₀ : Kernel QueueName (Entry ι B)}
    {w : SessionsWorld ι B} (reach : (sessions P).Reachable (sessionsStart cfg κ₀) w) :
    Capacities cfg κ₀ w.env := by
  refine invariant reach (I := fun w => Capacities cfg κ₀ w.env)
    ⟨le_rfl, fun _ _ => rfl, fun o newer lower => absurd newer (not_le.mpr lower),
      fun _ _ => .inl⟩ ?_
  intro w w' front before step
  cases step with
  | move intruded =>
      obtain ⟨k, o, msgs, allocated, opened, intrudes, rfl⟩ := intruded
      exact ⟨before.grows, by simpa using before.old, by simpa using before.new, before.named⟩
  | @act pid e p env recs may step answer =>
      obtain ⟨op, r⟩ := e
      cases answer with
      | mqOpen opens =>
          obtain ⟨t, run, -⟩ := exists_thread front pid.1 pid.2
          obtain ⟨next, waiting, -⟩ := step
          cases Role.opens run waiting
          exact before.opens opens
      | mqSend fits sends =>
          obtain ⟨o, allocated, -, -, rfl⟩ := sends
          exact ⟨before.grows, by simpa using before.old, by simpa using before.new, before.named⟩
      | mqReceive receives =>
          obtain ⟨o, rest, allocated, -, -, rfl⟩ := receives
          exact ⟨before.grows, by simpa using before.old, by simpa using before.new, before.named⟩
      | @mqUnlink _ name unlinks =>
          cases unlinks
          exact ⟨before.grows, before.old, before.new, fun name' o named =>
            before.named name' o (Kernel.names_of_unlink named)⟩
      | _ => exact before

/-! ## Leftovers -/

section Leftovers

/-- The messages a process has read, with their origins. -/
def entriesRead (log : List (Rec ι B)) : List (Entry ι B) :=
  log.filterMap fun
    | .read _ e => some e
    | _ => none

/-- The messages a process of a session has sent, with their origins. -/
def entriesSent (k : ι) (log : List (Rec ι B)) : List (Entry ι B) :=
  log.filterMap fun
    | .sent site m => some ⟨some (k, site), m⟩
    | _ => none

omit [DecidableEq ι] in
@[simp] theorem entriesRead_append (log log' : List (Rec ι B)) :
    entriesRead (log ++ log') = entriesRead log ++ entriesRead log' := List.filterMap_append

omit [DecidableEq ι] in
theorem entriesRead_exchanges (log : List (Rec ι B)) :
    entriesRead (exchanges log) = entriesRead log := by
  simp only [entriesRead, exchanges, List.filterMap_filter]
  congr 1
  funext r
  cases r <;> rfl

omit [DecidableEq ι] in
theorem entriesSent_exchanges (k : ι) (log : List (Rec ι B)) :
    entriesSent k (exchanges log) = entriesSent k log := by
  simp only [entriesSent, exchanges, List.filterMap_filter]
  congr 1
  funext r
  cases r <;> rfl

section Parts

variable {k : ι} {role : Role} {log recs : List (Rec ι B)} {h : List (Transfer (Entry ι B))}

omit [DecidableEq ι] in
/-- A process takes what it has on record from the object it has opened, and from no
other. -/
theorem readFrom_part (part : List.Forall₂ (TransferOf k log) recs h)
    (directed : ∀ r ∈ recs, r.Directed role) (o : ℕ) :
    readFrom o h = if openedAs role.reads log = some o then entriesRead recs else [] := by
  induction part with
  | nil => simp [readFrom, entriesRead]
  | @cons r x recs h is part ih =>
      have rest := ih fun r inside => directed r (List.mem_cons_of_mem _ inside)
      have first := directed r List.mem_cons_self
      simp only [readFrom, entriesRead] at rest ⊢
      cases is with
      | sent opened => simpa using rest
      | @read site e o' opened =>
          rw [show site.queue = role.reads from first] at opened
          by_cases same : o' = o
          · subst same
            simp [opened, rest]
          · simpa [opened, same] using rest

omit [DecidableEq ι] in
/-- And what it sends goes to the other one. -/
theorem sentTo_part (part : List.Forall₂ (TransferOf k log) recs h)
    (directed : ∀ r ∈ recs, r.Directed role) (o : ℕ) :
    sentTo o h = if openedAs role.writes log = some o then entriesSent k recs else [] := by
  induction part with
  | nil => simp [sentTo, entriesSent]
  | @cons r x recs h is part ih =>
      have rest := ih fun r inside => directed r (List.mem_cons_of_mem _ inside)
      have first := directed r List.mem_cons_self
      simp only [sentTo, entriesSent] at rest ⊢
      cases is with
      | read opened => simpa using rest
      | @sent site m o' opened =>
          rw [show site.queue = role.writes from first] at opened
          by_cases same : o' = o
          · subst same
            simp [opened, rest]
          · simpa [opened, same] using rest

end Parts

/-- What only one process does to an object is all that happens to it. -/
theorem filterMap_partOf {α : Type} (f : Transfer (Entry ι B) → Option α) (pid : ι × Role)
    {h : List ((ι × Role) × Transfer (Entry ι B))}
    (others : ∀ pid', pid' ≠ pid → (partOf pid' h).filterMap f = []) :
    (h.map Prod.snd).filterMap f = (partOf pid h).filterMap f := by
  simp only [partOf, List.filterMap_map, List.filterMap_filterMap]
  refine List.filterMap_congr fun x inside => ?_
  by_cases same : x.1 = pid
  · simp [same]
  · have nothing := List.filterMap_eq_nil_iff.mp (others x.1 same) x.2
      (List.mem_filterMap.mpr ⟨x, inside, by simp⟩)
    simp [same, nothing]

end Leftovers

section Balance

variable {P : Policy Unit B} {cfg : Config} {κ₀ : Kernel QueueName (Entry Unit B)}
  {w : SessionsWorld Unit B} {role : Role} {o : ℕ}
  {h : List ((Unit × Role) × Transfer (Entry Unit B))}

/-- The object a program reads is not under the name of its other queue. -/
theorem not_openedAs_writes
    (reach : (sessions P).Reachable (sessionsStart cfg κ₀) w)
    (opened : openedAs role.reads (w.log ((), role)) = some o) (role' : Role) :
    openedAs role.writes (w.log ((), role')) ≠ some o := fun other =>
  role.reads_ne_writes ((oneName reach).apart _ _ _ _ o (openedAs_mem opened)
    (openedAs_mem other))

/-- Of one session, who is not the one program is the other. -/
theorem eq_peer_of_ne {pid : Unit × Role} (other : pid ≠ ((), role)) :
    pid = ((), role.peer) := by
  obtain ⟨⟨⟩, role'⟩ := pid
  cases role <;> cases role' <;> first | rfl | exact absurd rfl other

/-- Only the program takes from the queue it reads, -/
theorem HistoryOf.taken (history : HistoryOf κ₀ w h)
    (reach : (sessions P).Reachable (sessionsStart cfg κ₀) w)
    (opened : openedAs role.reads (w.log ((), role)) = some o) :
    readFrom o (h.map Prod.snd) = entriesRead (w.log ((), role)) := by
  have directed : ∀ role, ∀ r ∈ exchanges (w.log ((), role)), r.Directed role :=
    fun role r inside => directed_of_mem reach ((), role) r (List.mem_of_mem_filter inside)
  refine (filterMap_partOf _ ((), role) fun pid other => ?_).trans ?_
  · rw [eq_peer_of_ne other]
    refine (readFrom_part (history.parts _) (directed role.peer) o).trans (if_neg ?_)
    rw [Role.peer_reads]
    exact not_openedAs_writes reach opened role.peer
  · refine (readFrom_part (history.parts _) (directed role) o).trans ?_
    rw [if_pos opened, entriesRead_exchanges]

/-- and only its peer adds to it. -/
theorem HistoryOf.added (history : HistoryOf κ₀ w h)
    (reach : (sessions P).Reachable (sessionsStart cfg κ₀) w)
    (opened : openedAs role.reads (w.log ((), role)) = some o) :
    sentTo o (h.map Prod.snd) =
      if openedAs role.reads (w.log ((), role.peer)) = some o
        then entriesSent () (w.log ((), role.peer)) else [] := by
  have directed : ∀ role, ∀ r ∈ exchanges (w.log ((), role)), r.Directed role :=
    fun role r inside => directed_of_mem reach ((), role) r (List.mem_of_mem_filter inside)
  refine (filterMap_partOf _ ((), role.peer) fun pid other => ?_).trans ?_
  · have mine : pid = ((), role) := by
      by_contra no
      exact other (eq_peer_of_ne no)
    rw [mine]
    exact (sentTo_part (history.parts _) (directed role) o).trans
      (if_neg (not_openedAs_writes reach opened role))
  · refine (sentTo_part (history.parts _) (directed role.peer) o).trans ?_
    rw [Role.peer_writes, entriesSent_exchanges]

end Balance

/-- **A session starts with the leftovers.**  One session over any kernel, whatever fails:
what a program has read and what waits for it are the messages that waited in its queue when
the session began, and then, if both have the same queue, those its peer has sent. -/
theorem leftovers_first {P : Policy Unit B} (alone : ∀ sl rl q q', ¬ P.intrudes sl rl q q')
    (cfg : Config) (κ₀ : Kernel QueueName (Entry Unit B)) (w : SessionsWorld Unit B)
    (reach : (sessions P).Reachable (sessionsStart cfg κ₀) w) (role : Role) (o : ℕ)
    (opened : openedAs role.reads (w.log ((), role)) = some o) :
    entriesRead (w.log ((), role)) ++ w.env.queue o =
      κ₀.queue o ++ if openedAs role.reads (w.log ((), role.peer)) = some o
        then entriesSent () (w.log ((), role.peer)) else [] := by
  obtain ⟨h, history⟩ := exists_historyOf alone reach
  rw [← history.taken reach opened, ← history.added reach opened]
  exact (history.replays.balance o).symm

/-- A message of no bytes. -/
def noBytes : Message sampleBotan := ⟨[], Nat.zero_le kMessageSize⟩

/-- A kernel in which it waits for a sender. -/
def staleKernel : Kernel QueueName (Entry Unit sampleBotan) :=
  ((Kernel.empty QueueName (Entry Unit sampleBotan)).create .receiverToSender 10).setQueue 0
    [⟨none, noBytes⟩] (by decide)

/-- Over it, the receiver of a sample session has sent its key, and the sender has read the
message that was there before. -/
theorem leftovers_first_stale :
    ∃ w : SessionsWorld Unit sampleBotan,
      entriesRead (w.log ((), .sender)) ++ w.env.queue 0 =
        [⟨none, noBytes⟩] ++ entriesSent () (w.log ((), .receiver)) ∧
      entriesRead (w.log ((), .sender)) = [⟨none, noBytes⟩] ∧
      entriesSent () (w.log ((), .receiver)) = [sampleScript.cipherEntry ()] := by
  have honours := Policy.honest_honours Unit sampleDraws True
  have turn := alone_may (sessionsStart .source staleKernel).procs
  have fits := sampleBotan_lawful.subjectPublicKey_length
  have room : (1 : ℕ) < 10 := by decide
  -- the sender makes its queue, finds the other one, and sends its public key
  have s₁ := (Stage.Reached.refl (P := fun _ => Policy.honest Unit sampleDraws True)
    (Stage.at_start .source staleKernel ())).sender turn rfl
      (.mqOpen (Kernel.mqOpen_of_unbound _ rfl))
  have s₂ := s₁.sender turn rfl (.mqOpen (o := 0) (Kernel.mqOpen_of_bound _ rfl))
  have s₃ := s₂.sender turn rfl (.botan rfl (honours.autoSeededRng .sender))
  have s₄ := s₃.sender turn rfl (.botan rfl (honours.rsaPrivateKey .sender 2048))
  have s₅ := s₄.sender turn rfl (.botan rfl honours.localKey)
  simp only [SenderPc.start_of_le (fits _)] at s₅
  have s₆ := s₅.sender turn rfl (.mqSend (fits _) ⟨1, Nat.one_lt_two, rfl, by decide, rfl⟩)
  -- the receiver answers it
  have r₁ := s₆.receiver turn rfl (.mqOpen (o := 0) (Kernel.mqOpen_of_bound _ rfl))
  have r₂ := r₁.receiver turn rfl (.mqOpen (o := 1) (Kernel.mqOpen_of_bound _ rfl))
  have r₃ := r₂.receiver turn rfl (.mqReceive (e := sampleScript.publicKeyEntry ())
    ⟨1, [], Nat.one_lt_two, rfl, rfl, rfl⟩)
  have r₄ := r₃.receiver turn rfl
    (.botan rfl (honours.loadKey .receiver (sampleBotan_lawful.loadKey_subjectPublicKey _)))
  have r₅ := r₄.receiver turn rfl (.botan rfl (honours.autoSeededRng .receiver))
  have r₆ := r₅.receiver turn rfl (.botan rfl (honours.sessionKey rfl))
  have r₇ := r₆.receiver turn rfl (.botan rfl (honours.encrypt .receiver sampleScript.encrypted))
  have r₈ := r₇.receiver turn rfl
    (.mqSend sampleScript.cipher.property ⟨0, Nat.zero_lt_two, rfl, room, rfl⟩)
  -- and the sender reads what was there
  have s₇ := r₈.sender turn rfl (.mqReceive (e := ⟨none, noBytes⟩)
    ⟨0, [sampleScript.cipherEntry ()], Nat.zero_lt_two, rfl, rfl, rfl⟩)
  obtain ⟨w, reach, here, -⟩ := s₇
  have opened : openedAs .receiverToSender (w.log ((), .sender)) = some 0 := by
    rw [here.senderLog]
    rfl
  have peer : openedAs .receiverToSender (w.log ((), .receiver)) = some 0 := by
    rw [here.receiverLog]
    rfl
  have equation := leftovers_first (fun _ _ _ _ => id) .source staleKernel w reach .sender 0
    opened
  rw [show openedAs Role.sender.reads (w.log ((), Role.sender.peer)) = some 0 from peer,
    if_pos rfl] at equation
  exact ⟨w, equation, by rw [here.senderLog]; rfl, by rw [here.receiverLog]; rfl⟩

end QueueHistory

end SecureComm
