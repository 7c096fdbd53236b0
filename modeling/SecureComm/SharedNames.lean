import SecureComm.Isolation
import SecureComm.Stages

/-!
# Sessions one after another

What the refinement gives for sessions whose queue calls do not fail: a process only
ever reads what its own session sent, a session starts on unbound names, and its
handshake goes through empty queues.  Botan may answer anything.
-/

namespace SecureComm

open Interaction MessageQueue

section SharedNames

variable {ι : Type} {B : Botan}

/-- No queue call fails, Botan answers anything, the operator presses Enter, and there
is no third party. -/
def Policy.calm (ι : Type) (B : Botan) : Policy ι B where
  fails _ _ := False
  botan _ _ _ := True
  enter := True
  intrudes _ _ _ _ := False

theorem Policy.calm_isolating : (Policy.calm ι B).Isolating where
  opens _ _ _ := id
  keyArrives _ := id

/-- The sender has not sent its public key yet. -/
def SenderPoint.Unsent : SenderPoint B → Prop
  | .run _ .sendKey => True
  | .run _ _ => False
  | .openFailed _ => False
  | .threw _ _ => False
  | _ => True

theorem SenderPoint.not_unsent_loop (v : SenderVars B) (n i : ℕ) :
    ¬ (SenderPoint.run v (.loop n i)).Unsent := by
  cases n <;> exact id

/-- The receiver has not sent the symmetric key yet. -/
def ReceiverPoint.Unsent : ReceiverPoint B → Prop
  | .openRS => True
  | .openSR _ => True
  | .run _ .recvKey => True
  | .run _ (.loadKey _) => True
  | .run _ .rng => True
  | .run _ .randomize => True
  | .run _ (.encrypt _) => True
  | .run _ (.sendKey _) => True
  | _ => False

section Moves

variable {cfg : Config} {P : Policy ι B} {k : ι} {role : Role} {ch ch' : Channels ι B}
  {op : Op B} {r : op.Resp} {recs : List (Rec ι B)}

/-- What a call puts into a channel comes from its session, and what it reads waited
there. -/
theorem Answered.own (answer : Answered (channelService ι B) P k role ch op r ch' recs) :
    (∀ name e, e ∈ ch' name → e ∈ ch name ∨ ∃ site, e.origin = some (k, site)) ∧
      ∀ site e, .read site e ∈ recs → ∃ name, e ∈ ch name := by
  cases answer with
  | mqOpen h =>
      cases h
      exact ⟨fun _ _ => .inl, fun _ _ read => nomatch List.mem_singleton.mp read⟩
  | @mqSend _ site mq msg fits h =>
      cases h
      refine ⟨?_, fun _ _ read => nomatch List.mem_singleton.mp read⟩
      intro name e inside
      -- one message more in its own direction, none in the other
      by_cases same : name = site.queue
      · subst same
        rw [Function.update_self] at inside
        rcases List.mem_append.mp inside with before | now
        · exact .inl before
        · rw [List.mem_singleton.mp now]
          exact .inr ⟨site, rfl⟩
      · rw [Function.update_of_ne same] at inside
        exact .inl inside
  | @mqReceive _ site mq e h =>
      obtain ⟨rest, waits, rfl⟩ := h
      refine ⟨fun name e' inside => .inl ?_, fun site' e' read => ⟨site.queue, ?_⟩⟩
      · by_cases same : name = site.queue
        · subst same
          rw [Function.update_self] at inside
          rw [waits]
          exact List.mem_cons_of_mem _ inside
        · rwa [Function.update_of_ne same] at inside
      · cases List.mem_singleton.mp read
        rw [waits]
        exact List.mem_cons_self
  | mqUnlink h => cases h; exact ⟨fun _ _ => .inl, nofun⟩
  | _ => exact ⟨fun _ _ => .inl, nofun⟩

/-- Until the sender has sent, it has put nothing into its channel. -/
theorem SenderMove.unsent {pt pt' : SenderPoint B}
    (move : SenderMove cfg P k ch pt pt' ch' recs) (unsent : pt'.Unsent) :
    pt.Unsent ∧ ch' .senderToReceiver = ch .senderToReceiver := by
  cases move with
  | setKey v h => exact absurd unsent (SenderPoint.not_unsent_loop v _ 0)
  | frame v i n => exact absurd unsent (SenderPoint.not_unsent_loop v n (i + 1))
  | _ => first | exact ⟨trivial, rfl⟩ | exact unsent.elim

/-- Until the receiver has sent, it has put nothing into its channel. -/
theorem ReceiverMove.unsent {pt pt' : ReceiverPoint B}
    (move : ReceiverMove cfg P k ch pt pt' ch' recs) (unsent : pt'.Unsent) :
    pt.Unsent ∧ ch' .receiverToSender = ch .receiverToSender := by
  cases move with
  | recvKey v e rest waits => exact ⟨trivial, by simp⟩
  | receive v buffer e rest waits =>
      simp only [ReceiverPoint.receive] at unsent
      split_ifs at unsent <;> exact unsent.elim
  | _ => first | exact ⟨trivial, rfl⟩ | exact unsent.elim

/-- The receiver puts nothing into the sender's channel. -/
theorem ReceiverMove.frameChannel {pt pt' : ReceiverPoint B}
    (move : ReceiverMove cfg P k ch pt pt' ch' recs)
    (empty : ch .senderToReceiver = []) : ch' .senderToReceiver = [] := by
  cases move with
  | recvKey v e rest waits => simp [empty] at waits
  | receive v buffer e rest waits => simp [empty] at waits
  | sendKey v c fits => simpa using empty
  | _ => exact empty

end Moves

/-! ## The invariant of a session -/

/-- Everything in a session comes from it, and nothing waits before it is sent. -/
structure Session.Own (k : ι) (s : Session ι B) : Prop where
  waiting : ∀ name e, e ∈ s.chan name → ∃ site, e.origin = some (k, site)
  senderRead : ∀ site e, .read site e ∈ s.senderLog → ∃ site', e.origin = some (k, site')
  receiverRead : ∀ site e, .read site e ∈ s.receiverLog →
    ∃ site', e.origin = some (k, site')
  beforeKey : s.sender.Unsent → s.chan .senderToReceiver = []
  beforeReply : s.receiver.Unsent → s.chan .receiverToSender = []

/-- **A session keeps to itself.** -/
theorem Session.Own.step {cfg : Config} {k : ι} {s s' : Session ι B} (h : s.Own k)
    (step : Session.Step cfg (Policy.calm ι B) k s s') : s'.Own k := by
  cases step with
  | sender step answer =>
      have move := senderMove_of_step step answer
      obtain ⟨puts, reads⟩ := answer.own
      refine ⟨?_, ?_, h.receiverRead, ?_, ?_⟩
      · intro name e inside
        exact (puts name e inside).elim (h.waiting name e) id
      · intro site e read
        rcases List.mem_append.mp read with before | now
        · exact h.senderRead site e before
        · obtain ⟨name, waits⟩ := reads site e now
          exact h.waiting name e waits
      · intro unsent
        obtain ⟨before, same⟩ := move.unsent unsent
        exact same.trans (h.beforeKey before)
      · intro unsent
        by_contra full
        exact move.keyChannel full (h.beforeReply unsent)
  | receiver step answer =>
      have move := receiverMove_of_step step answer
      obtain ⟨puts, reads⟩ := answer.own
      refine ⟨?_, h.senderRead, ?_, ?_, ?_⟩
      · intro name e inside
        exact (puts name e inside).elim (h.waiting name e) id
      · intro site e read
        rcases List.mem_append.mp read with before | now
        · exact h.receiverRead site e before
        · obtain ⟨name, waits⟩ := reads site e now
          exact h.waiting name e waits
      · intro unsent
        exact move.frameChannel (h.beforeKey unsent)
      · intro unsent
        obtain ⟨before, same⟩ := move.unsent unsent
        exact same.trans (h.beforeReply before)
  | intrude intrudes => exact intrudes.elim

theorem Session.Reachable.own {cfg : Config} {k : ι} {s : Session ι B}
    (reach : s.Reachable cfg (Policy.calm ι B) k) : s.Own k :=
  invariant reach (I := Session.Own k)
    ⟨nofun, nofun, nofun, fun _ => rfl, fun _ => rfl⟩ fun _ _ _ h step => h.step step

/-! ## Any number of sessions -/

/-- The sessions do not interfere: a process reads messages of its own session only; a
session whose turn it is finds no name bound when it starts; and each of the two
handshake messages is sent on an empty queue. -/
structure Isolated [LT ι] (w : SessionsWorld ι B) : Prop where
  ownMessages : ∀ k role site e, .read site e ∈ w.log (k, role) →
    ∃ site', e.origin = some (k, site')
  freshNames : ∀ k, (∀ j, j < k → Returned (w.procs (j, .sender))) →
    (∀ role name o, .opened name o ∉ w.log (k, role)) → ∀ name, w.env.names name = none
  emptyForKey : ∀ k mq msg next,
    (w.procs (k, .sender)).next = some ⟨.mqSend .sendPublicKey mq msg, next⟩ →
    ∃ o, mq = some o ∧ w.env.queue o = []
  emptyForReply : ∀ k mq msg next,
    (w.procs (k, .receiver)).next = some ⟨.mqSend .sendSymmetricKey mq msg, next⟩ →
    ∃ o, mq = some o ∧ w.env.queue o = []

section Worlds

variable [LinearOrder ι] {cfg : Config} {w : SessionsWorld ι B} {s : ι → Session ι B}

/-- The sender sends its public key before anything else. -/
theorem SenderPoint.unsent_of_next {pt : SenderPoint B} {mq : Mqd} {msg : List B.Byte}
    {next : Bool → SenderPoint B}
    (waiting : pt.next cfg = some ⟨.mqSend .sendPublicKey mq msg, next⟩) : pt.Unsent := by
  cases pt with
  | run v pc => cases pc <;> cases waiting; trivial
  | _ => cases waiting

theorem ReceiverPoint.unsent_of_next {pt : ReceiverPoint B} {mq : Mqd} {msg : List B.Byte}
    {next : Bool → ReceiverPoint B}
    (waiting : pt.next cfg = some ⟨.mqSend .sendSymmetricKey mq msg, next⟩) :
    pt.Unsent := by
  cases pt with
  | run v pc => cases pc <;> cases waiting; trivial
  | _ => cases waiting

/-- A session that has nothing on record, in its turn, finds the names unbound. -/
theorem Tracks.names_eq_none {P : ι → Policy ι B} (iso : ∀ k, (P k).Isolating)
    (h : Tracks cfg P (Kernel.empty QueueName (Entry ι B)) w s) {k : ι}
    (turn : ∀ j, j < k → Returned (w.procs (j, .sender)))
    (idle : ∀ role name o, .opened name o ∉ w.log (k, role)) (name : QueueName) :
    w.env.names name = none := by
  obtain ⟨obj, placed⟩ := h.placed
  have unopened : ∀ name o, obj k name ≠ some o := by
    intro name o owns
    rcases placed.recorded k name o owns with recorded | recorded
    · exact idle .sender name o (h.senderLog k ▸ recorded)
    · exact idle .receiver name o (h.receiverLog k ▸ recorded)
  cases bound : w.env.names name with
  | none => rfl
  | some o =>
      obtain ⟨j, owns, linked⟩ | ⟨initial, -⟩ := placed.bound name o bound
      · rcases lt_trichotomy j k with lower | rfl | higher
        · exact absurd (h.turn iso turn j lower name) linked
        · exact absurd owns (unopened name o)
        · -- a later session has started, so this one's sender has unlinked, hence opened
          have unlinked := placed.started j name o owns k higher .senderToReceiver
          obtain ⟨o', holds⟩ := SenderPoint.holds_of_unlinked unlinked
          exact absurd (placed.known k .sender _ o' (.inl holds)) (unopened _ o')
      · cases initial

/-- **Sessions are isolated.** -/
theorem sessions_isolated (cfg : Config) (w : SessionsWorld ι B)
    (reach : (sessions (Policy.calm ι B)).Reachable
      (sessionsStart cfg (Kernel.empty QueueName (Entry ι B))) w) : Isolated w := by
  obtain ⟨n, chain⟩ := exists_chain reach
  obtain ⟨s, -, h⟩ := exists_tracks (fun _ => Policy.calm_isolating) (fun _ => rfl) chain
  obtain ⟨obj, placed⟩ := h.placed
  refine ⟨?_, ?_, ?_, ?_⟩
  · intro k role site e read
    have own := (h.reached k).own
    cases role with
    | sender => exact own.senderRead site e (h.senderLog k ▸ read)
    | receiver => exact own.receiverRead site e (h.receiverLog k ▸ read)
  · intro k turn idle
    exact h.names_eq_none (fun _ => Policy.calm_isolating) turn idle
  · intro k mq msg next waiting
    obtain ⟨next', there⟩ := (senderMain_bisimulation cfg).waiting_left (h.sender k) waiting
    obtain ⟨o, rfl, holds⟩ := SenderPoint.holds_of_uses there rfl
    have mine := placed.known k .sender .senderToReceiver o (.inl holds)
    refine ⟨o, rfl, ?_⟩
    rw [← placed.waits k _ o mine]
    exact (h.reached k).own.beforeKey (SenderPoint.unsent_of_next there)
  · intro k mq msg next waiting
    obtain ⟨next', there⟩ := (receiverMain_bisimulation cfg).waiting_left (h.receiver k) waiting
    obtain ⟨o, rfl, holds⟩ := ReceiverPoint.holds_of_uses there rfl
    have mine := placed.known k .receiver .receiverToSender o (.inl holds)
    refine ⟨o, rfl, ?_⟩
    rw [← placed.waits k _ o mine]
    exact (h.reached k).own.beforeReply (ReceiverPoint.unsent_of_next there)

end Worlds

/-- Two sessions of the sample have run, each with its own session key and the second
one past the receiver of the first. -/
theorem sessions_isolated_consecutive :
    ∃ (σ : ∀ k, Script (numberedDraws k)) (w : SessionsWorld ℕ sampleBotan),
      Consecutive .source σ 2 w ∧ Isolated w := by
  obtain ⟨σ⟩ := Classical.nonempty_pi.mpr fun k =>
    exists_script sampleBotan_lawful (numberedDraws k)
  obtain ⟨w, reach, run⟩ := exists_consecutive (P := fun _ => Policy.calm ℕ sampleBotan)
    .source σ (fun _ _ _ _ _ => trivial) (fun _ => trivial) (by decide) 2
  exact ⟨σ, w, run, sessions_isolated .source w reach⟩

end SharedNames

end SecureComm
