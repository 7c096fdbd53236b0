import Mathlib.Tactic.Common
import SecureComm.Stages

/-!
# Delivery

End-to-end correctness of one honest session over the kernel's queues.  Of each of
the three kinds of message, those read followed by those waiting are those sent, in
order; the key is agreed on; and every frame read is found to match.

All of it is read off the phase the session is in, once its channels have been found
again in the kernel (`Tracks.queueOf_eq`).
-/

namespace SecureComm

open Interaction MessageQueue

section Delivery

variable {ι : Type} {B : Botan}

/-! ## What a world shows -/

/-- The messages a process has sent in one of its functions. -/
def sentAt (site : Site) (log : List (Rec ι B)) : List (Message B) :=
  log.filterMap fun
    | .sent site' m => if site' = site then some m else none
    | _ => none

/-- The messages a process has read in one of its functions. -/
def readAt (site : Site) (log : List (Rec ι B)) : List (Message B) :=
  log.filterMap fun
    | .read site' e => if site' = site then some e.bytes else none
    | _ => none

/-- The messages of one function that wait in a queue. -/
def waitingFrom (site : Site) (queue : List (Entry ι B)) : List (Message B) :=
  queue.filterMap fun e =>
    match e.origin with
    | some (_, site') => if site' = site then some e.bytes else none
    | none => none

/-- The object a process has opened under a name. -/
def openedAs (name : QueueName) (log : List (Rec ι B)) : Option ℕ :=
  log.findSome? fun
    | .opened name' o => if name' = name then some o else none
    | _ => none

/-- What waits in a session's queue of a name, once one of its programs has opened it. -/
def queueOf (w : SessionsWorld ι B) (k : ι) (name : QueueName) : List (Entry ι B) :=
  match (openedAs name (w.log (k, .sender))).or (openedAs name (w.log (k, .receiver))) with
  | some o => w.env.queue o
  | none => []

/-- Of the messages `source` sends in one function, those read by the peer followed by
those waiting are those sent. -/
def Passed (w : SessionsWorld ι B) (k : ι) (source target : Role) (sending receiving : Site) :
    Prop :=
  readAt receiving (w.log (k, target)) ++ waitingFrom sending (queueOf w k sending.queue) =
    sentAt sending (w.log (k, source))

/-- The sender has read the encrypted key and has not stored the plaintext yet. -/
def Unwrapping (p : Process B) : Prop :=
  (∃ next, p.next = some ⟨.autoSeededRng, next⟩) ∨
    ∃ key c next, p.next = some ⟨.decrypt key c, next⟩

/-- **What an honest session delivers.** -/
structure Delivered (d : Draws B) (k : ι) (w : SessionsWorld ι B) : Prop where
  /-- Whichever program opened a name, it is the session's queue. -/
  shared : ∀ role name o, .opened name o ∈ w.log (k, role) →
    queueOf w k name = w.env.queue o
  publicKey : Passed w k .sender .receiver .sendPublicKey .getPublicKey
  publicKeyRead : ∀ m ∈ readAt .getPublicKey (w.log (k, .receiver)),
    m.val = B.subjectPublicKey (B.publicKey d.privateKey)
  symmetricKey : Passed w k .receiver .sender .sendSymmetricKey .receiveSymmetricKey
  symmetricKeyRead : ∀ m ∈ readAt .receiveSymmetricKey (w.log (k, .sender)),
    B.encrypt (B.publicKey d.privateKey) d.seed d.sessionKey.val = .ok m.val
  agreement : readAt .receiveSymmetricKey (w.log (k, .sender)) ≠ [] →
    ¬ Unwrapping (w.procs (k, .sender)) →
      (w.procs (k, .sender)).mem.symmetricKey = d.sessionKey.val ∧
        (w.procs (k, .receiver)).mem.symmetricKey = d.sessionKey.val
  frames : Passed w k .sender .receiver .sendPeriodicMessage .receivePeriodicMessages
  verified : comparisons (w.procs (k, .receiver)).mem.observed =
    (readAt .receivePeriodicMessages (w.log (k, .receiver))).map fun m => (m.val, true)

/-! ## The session's queues in the kernel -/

section Queues

theorem openedAs_mem {name : QueueName} {log : List (Rec ι B)} {o : ℕ}
    (opened : openedAs name log = some o) : .opened name o ∈ log := by
  obtain ⟨r, inside, is⟩ := List.exists_of_findSome?_eq_some opened
  cases r with
  | opened name' o' =>
      obtain ⟨rfl, rfl⟩ : name' = name ∧ o' = o := by simpa using is
      exact inside
  | _ => cases is

theorem openedAs_eq_none {name : QueueName} {log : List (Rec ι B)}
    (unopened : openedAs name log = none) (o : ℕ) : .opened name o ∉ log := by
  intro inside
  have nothing := List.findSome?_eq_none_iff.mp unopened _ inside
  simp at nothing

variable [LinearOrder ι] {cfg : Config} {P : ι → Policy ι B}
  {κ₀ : Kernel QueueName (Entry ι B)} {w : SessionsWorld ι B} {s : ι → Session ι B}

/-- A session's queues are its channels. -/
theorem Tracks.queueOf_eq (h : Tracks cfg P κ₀ w s) (k : ι) (name : QueueName) :
    queueOf w k name = (s k).chan name := by
  obtain ⟨obj, placed⟩ := h.placed
  cases opened : (openedAs name (w.log (k, .sender))).or
      (openedAs name (w.log (k, .receiver))) with
  | some o =>
      have knows : (s k).Knows .sender name o ∨ (s k).Knows .receiver name o := by
        rcases Option.or_eq_some_iff.mp opened with bySender | ⟨-, byReceiver⟩
        · exact .inl (.inr (h.senderLog k ▸ openedAs_mem bySender))
        · exact .inr (.inr (h.receiverLog k ▸ openedAs_mem byReceiver))
      have mine : obj k name = some o :=
        knows.elim (placed.known k _ name o) (placed.known k _ name o)
      simp only [queueOf, opened]
      exact (placed.waits k name o mine).symm
  | none =>
      obtain ⟨noSender, noReceiver⟩ := Option.or_eq_none_iff.mp opened
      have free : obj k name = none := by
        cases owns : obj k name with
        | none => rfl
        | some o =>
            rcases placed.recorded k name o owns with recorded | recorded
            · exact absurd (h.senderLog k ▸ recorded) (openedAs_eq_none noSender o)
            · exact absurd (h.receiverLog k ▸ recorded) (openedAs_eq_none noReceiver o)
      simp only [queueOf, opened]
      exact (placed.unopened k name free).symm

/-- Whichever program opened a name, it is the session's queue. -/
theorem Tracks.queueOf_of_opened (h : Tracks cfg P κ₀ w s) {k : ι} {role : Role}
    {name : QueueName} {o : ℕ} (opened : .opened name o ∈ w.log (k, role)) :
    queueOf w k name = w.env.queue o := by
  obtain ⟨obj, placed⟩ := h.placed
  have knows : (s k).Knows role name o := by
    cases role with
    | sender => exact .inr (h.senderLog k ▸ opened)
    | receiver => exact .inr (h.receiverLog k ▸ opened)
  rw [h.queueOf_eq, placed.waits k name o (placed.known k role name o knows)]

end Queues

/-! ## Reading a phase -/

section Reading

theorem sentAt_exchanges (site : Site) (log : List (Rec ι B)) :
    sentAt site (exchanges log) = sentAt site log := by
  simp only [sentAt, exchanges, List.filterMap_filter]
  refine List.filterMap_congr fun r _ => ?_
  cases r <;> rfl

theorem readAt_exchanges (site : Site) (log : List (Rec ι B)) :
    readAt site (exchanges log) = readAt site log := by
  simp only [readAt, exchanges, List.filterMap_filter]
  refine List.filterMap_congr fun r _ => ?_
  cases r <;> rfl

variable {d : Draws B} (σ : Script d) (k : ι)

/-- What the sender has sent and read, by function. -/
theorem Script.sentAt_senderRecs (site : Site) (i : ℕ) :
    sentAt site (σ.senderRecs k i) =
      (if site = .sendPublicKey then [σ.publicKey] else []) ++
        if site = .sendPeriodicMessage then (List.range i).map σ.frame else [] := by
  cases site <;> simp [sentAt, Script.senderRecs, List.filterMap_map]

theorem Script.readAt_senderRecs (site : Site) (i : ℕ) :
    readAt site (σ.senderRecs k i) =
      if site = .receiveSymmetricKey then [σ.cipher] else [] := by
  cases site <;>
    simp [readAt, Script.senderRecs, Script.cipherEntry, List.filterMap_map]

theorem Script.sentAt_receiverRecs (site : Site) (j : ℕ) :
    sentAt site (σ.receiverRecs k j) =
      if site = .sendSymmetricKey then [σ.cipher] else [] := by
  cases site <;> simp [sentAt, Script.receiverRecs, List.filterMap_map]

theorem Script.readAt_receiverRecs (site : Site) (j : ℕ) :
    readAt site (σ.receiverRecs k j) =
      (if site = .getPublicKey then [σ.publicKey] else []) ++
        if site = .receivePeriodicMessages then (List.range j).map σ.frame else [] := by
  cases site <;>
    simp [readAt, Script.receiverRecs, Script.publicKeyEntry, Script.frameEntry,
      List.filterMap_map]

theorem Script.waitingFrom_frames (site : Site) (j n : ℕ) :
    waitingFrom site ((List.range' j n).map (σ.frameEntry k)) =
      if site = .sendPeriodicMessage then (List.range' j n).map σ.frame else [] := by
  cases site <;> simp [waitingFrom, Script.frameEntry, List.filterMap_map, Function.comp_def]

variable {N : ℕ} {s : Session ι B}

/-- The public key read is the public key sent. -/
theorem Session.Phase.publicKey_passed (h : s.Phase N σ k) :
    readAt .getPublicKey s.receiverLog ++ waitingFrom .sendPublicKey (s.chan .senderToReceiver) =
      sentAt .sendPublicKey s.senderLog := by
  rw [← readAt_exchanges _ s.receiverLog, ← sentAt_exchanges _ s.senderLog]
  cases h with
  | start sender receiver sr rs sl rl => simp [sl, rl, sr, readAt, sentAt, waitingFrom]
  | keySent sender receiver sr rs sl rl =>
      simp [sl, rl, sr, readAt, sentAt, waitingFrom, Script.publicKeyEntry]
  | answering sender receiver sr rs sl rl =>
      simp [sl, rl, sr, readAt, sentAt, waitingFrom, Script.publicKeyEntry]
  | answered sender receiver sr rs sl rl =>
      simp [sl, rl, sr, σ.readAt_receiverRecs, sentAt, waitingFrom]
  | streaming j n sender receiver sr rs sl rl =>
      simp [sl, rl, sr, σ.readAt_receiverRecs, σ.sentAt_senderRecs, σ.waitingFrom_frames]

/-- The encrypted key read is the encrypted key sent. -/
theorem Session.Phase.symmetricKey_passed (h : s.Phase N σ k) :
    readAt .receiveSymmetricKey s.senderLog ++
        waitingFrom .sendSymmetricKey (s.chan .receiverToSender) =
      sentAt .sendSymmetricKey s.receiverLog := by
  rw [← readAt_exchanges _ s.senderLog, ← sentAt_exchanges _ s.receiverLog]
  cases h with
  | start sender receiver sr rs sl rl => simp [sl, rl, rs, readAt, sentAt, waitingFrom]
  | keySent sender receiver sr rs sl rl => simp [sl, rl, rs, readAt, sentAt, waitingFrom]
  | answering sender receiver sr rs sl rl => simp [sl, rl, rs, readAt, sentAt, waitingFrom]
  | answered sender receiver sr rs sl rl =>
      simp [sl, rl, rs, readAt, σ.sentAt_receiverRecs, waitingFrom, Script.cipherEntry]
  | streaming j n sender receiver sr rs sl rl =>
      simp [sl, rl, rs, σ.readAt_senderRecs, σ.sentAt_receiverRecs, waitingFrom]

/-- The frames read, then the frames waiting, are the frames sent. -/
theorem Session.Phase.frames_passed (h : s.Phase N σ k) :
    readAt .receivePeriodicMessages s.receiverLog ++
        waitingFrom .sendPeriodicMessage (s.chan .senderToReceiver) =
      sentAt .sendPeriodicMessage s.senderLog := by
  rw [← readAt_exchanges _ s.receiverLog, ← sentAt_exchanges _ s.senderLog]
  cases h with
  | start sender receiver sr rs sl rl => simp [sl, rl, sr, readAt, sentAt, waitingFrom]
  | keySent sender receiver sr rs sl rl =>
      simp [sl, rl, sr, readAt, sentAt, waitingFrom, Script.publicKeyEntry]
  | answering sender receiver sr rs sl rl =>
      simp [sl, rl, sr, readAt, sentAt, waitingFrom]
  | answered sender receiver sr rs sl rl =>
      simp [sl, rl, sr, σ.readAt_receiverRecs, sentAt, waitingFrom]
  | streaming j n sender receiver sr rs sl rl =>
      have joined : List.range j ++ List.range' j n = List.range (j + n) := by
        simpa [List.range_eq_range'] using List.range'_append_1 (s := 0) (m := j) (n := n)
      simp [sl, rl, sr, σ.readAt_receiverRecs, σ.sentAt_senderRecs, σ.waitingFrom_frames,
        ← List.map_append, joined]

/-- What the receiver takes for the public key is the public key. -/
theorem Session.Phase.publicKey_read (h : s.Phase N σ k) :
    ∀ m ∈ readAt .getPublicKey s.receiverLog, m = σ.publicKey := by
  rw [← readAt_exchanges _ s.receiverLog]
  cases h with
  | answering sender receiver sr rs sl rl => simp [rl, readAt, Script.publicKeyEntry]
  | answered sender receiver sr rs sl rl => simp [rl, σ.readAt_receiverRecs]
  | streaming j n sender receiver sr rs sl rl => simp [rl, σ.readAt_receiverRecs]
  | start sender receiver sr rs sl rl => simp [rl, readAt]
  | keySent sender receiver sr rs sl rl => simp [rl, readAt]

theorem SenderPoint.Streaming.key_eq {pt : SenderPoint B} {i : ℕ}
    (here : pt.Streaming d N i) : pt.key = d.sessionKey.val := by
  cases pt with
  | run v pc => cases pc <;> first | exact here.1 | exact here.elim
  | _ => exact here.elim

theorem ReceiverPoint.Listening.key_eq {pt : ReceiverPoint B} {frame : ℕ → Message B} {j : ℕ}
    (here : pt.Listening d frame j) : pt.key = d.sessionKey.val := by
  cases pt with
  | run v pc => cases pc <;> first | exact here.1 | exact here.elim
  | _ => exact here.elim

theorem ReceiverPoint.Starting.compared_eq {pt : ReceiverPoint B} (here : pt.Starting) :
    pt.compared = [] := by
  cases pt with
  | run v pc => cases pc <;> first | exact here.2.2 | exact here.elim
  | _ => first | rfl | exact here.elim

theorem ReceiverPoint.Answering.compared_eq {pt : ReceiverPoint B} {m c : Message B}
    (here : pt.Answering d m c) : pt.compared = [] := by
  cases pt with
  | run v pc => cases pc <;> first | exact here.2.2 | exact here.elim
  | _ => exact here.elim

theorem ReceiverPoint.Listening.compared_eq {pt : ReceiverPoint B} {frame : ℕ → Message B}
    {j : ℕ} (here : pt.Listening d frame j) :
    pt.compared = (List.range j).map fun i => ((frame i).val, true) := by
  cases pt with
  | run v pc =>
      cases pc with
      | setKey =>
          obtain ⟨-, none, rfl⟩ := here
          simpa using none
      | loop buffer => exact here.2
      | _ => exact here.elim
  | _ => exact here.elim

/-- What the sender takes for the encrypted key is the encrypted key, and then the sender
unwraps it or both hold the session key. -/
theorem Session.Phase.symmetricKey_read (h : s.Phase N σ k)
    (read : readAt .receiveSymmetricKey s.senderLog ≠ []) :
    readAt .receiveSymmetricKey s.senderLog = [σ.cipher] ∧
      (s.sender.Installing d σ.cipher ∨ s.sender.key = d.sessionKey.val) ∧
        s.receiver.key = d.sessionKey.val := by
  rw [← readAt_exchanges _ s.senderLog] at read ⊢
  cases h with
  | streaming j n sender receiver sr rs sl rl =>
      exact ⟨by simp [sl, σ.readAt_senderRecs],
        sender.imp And.left SenderPoint.Streaming.key_eq, receiver.key_eq⟩
  | start sender receiver sr rs sl rl => simp [sl, readAt] at read
  | keySent sender receiver sr rs sl rl => simp [sl, readAt] at read
  | answering sender receiver sr rs sl rl => simp [sl, readAt] at read
  | answered sender receiver sr rs sl rl => simp [sl, readAt] at read

/-- Every frame read has been found to match. -/
theorem Session.Phase.compared_eq (h : s.Phase N σ k) :
    s.receiver.compared =
      (readAt .receivePeriodicMessages s.receiverLog).map fun m => (m.val, true) := by
  rw [← readAt_exchanges _ s.receiverLog]
  cases h with
  | start sender receiver sr rs sl rl => simp [rl, readAt, receiver.compared_eq]
  | keySent sender receiver sr rs sl rl => simp [rl, readAt, receiver.compared_eq]
  | answering sender receiver sr rs sl rl => simp [rl, readAt, receiver.compared_eq]
  | answered sender receiver sr rs sl rl =>
      simp [rl, σ.readAt_receiverRecs, receiver.compared_eq]
  | streaming j n sender receiver sr rs sl rl =>
      simp [rl, σ.readAt_receiverRecs, receiver.compared_eq, Function.comp_def]

end Reading

/-! ## An honest session -/

/-- A sender that unwraps the encrypted key is in the calls that do so. -/
theorem SenderPoint.At.unwrapping {cfg : Config} {d : Draws B} {c : Message B}
    {pt : SenderPoint B} {p : Process B} (here : pt.At cfg p) (installing : pt.Installing d c) :
    Unwrapping p := by
  cases pt with
  | run v pc =>
      cases pc with
      | rngKey m => exact .inl ((senderMain_bisimulation cfg).waiting_right here rfl)
      | decrypt m =>
          obtain ⟨next, waiting⟩ := (senderMain_bisimulation cfg).waiting_right here rfl
          exact .inr ⟨_, _, next, waiting⟩
      | _ => exact installing.elim
  | _ => exact installing.elim

/-- **An honest session delivers**, in every state it reaches. -/
theorem honest_session_delivers (lawful : B.Lawful) (d : Draws B) (cfg : Config)
    (w : SessionsWorld Unit B)
    (reach : (sessions (Policy.honest Unit d True)).Reachable
      (sessionsStart cfg (Kernel.empty QueueName (Entry Unit B))) w) : Delivered d () w := by
  obtain ⟨n, chain⟩ := exists_chain reach
  obtain ⟨s, -, h⟩ := exists_tracks (fun _ => Policy.honest_isolating d True) (fun _ => rfl) chain
  obtain ⟨σ⟩ := exists_script lawful d
  have phase := (h.reached ()).phase σ
  exact {
    shared := fun role name o opened => h.queueOf_of_opened opened
    publicKey := by
      simpa only [Passed, Site.queue, h.queueOf_eq, h.senderLog, h.receiverLog] using
        phase.publicKey_passed σ ()
    publicKeyRead := fun m read => by
      rw [h.receiverLog] at read
      rw [phase.publicKey_read σ () m read]
      rfl
    symmetricKey := by
      simpa only [Passed, Site.queue, h.queueOf_eq, h.senderLog, h.receiverLog] using
        phase.symmetricKey_passed σ ()
    symmetricKeyRead := fun m read => by
      rw [h.senderLog] at read
      rw [(phase.symmetricKey_read σ () (List.ne_nil_of_mem read)).1] at read
      rw [List.mem_singleton.mp read]
      exact σ.encrypted
    agreement := fun read settled => by
      rw [h.senderLog] at read
      obtain ⟨-, sender, receiver⟩ := phase.symmetricKey_read σ () read
      rcases sender with installing | key
      · exact absurd ((h.sender ()).unwrapping installing) settled
      · exact ⟨(h.sender ()).symmetricKey.trans key, (h.receiver ()).symmetricKey.trans receiver⟩
    frames := by
      simpa only [Passed, Site.queue, h.queueOf_eq, h.senderLog, h.receiverLog] using
        phase.frames_passed σ ()
    verified := by
      rw [(h.receiver ()).comparisons, h.receiverLog]
      exact phase.compared_eq σ () }

/-- A sample session that has sent and read three of its frames. -/
theorem honest_session_delivers_frames :
    ∃ w : SessionsWorld Unit sampleBotan, Delivered sampleDraws () w ∧
      readAt .receivePeriodicMessages (w.log ((), .receiver)) =
        [sampleScript.frame 0, sampleScript.frame 1, sampleScript.frame 2] := by
  obtain ⟨buffer, w, reach, here, -⟩ := Stage.Reached.frames
    (P := fun _ => Policy.honest Unit sampleDraws True) (k := ()) (i := 3) sampleScript
    (Policy.honest_honours Unit sampleDraws True) (by decide) (fun _ => rfl)
    (fun _ => rfl) (alone_may _)
    (Stage.at_start .source (Kernel.empty _ _) ())
    (by decide)
  refine ⟨w, honest_session_delivers sampleBotan_lawful sampleDraws .source w reach, ?_⟩
  rw [here.receiverLog, ← readAt_exchanges, Script.exchanges_receiverLog,
    Script.readAt_receiverRecs]
  rfl

end Delivery

end SecureComm
