import Mathlib.Data.List.Basic
import SecureComm.Receiver

/-!
# The loop of receive_periodic_messages

What one round of the loop does to a message of each length, and from it what a
whole stream of messages does.  The invariant at the loop head is the shape
`loopAt`: the MAC object is keyed and empty, whatever the receive buffer holds.
Nothing about the buffer is needed, since the kernel overwrites exactly the bytes
the round then reads (`take_receiveInto`).
-/

namespace SecureComm

open Interaction

section ReceiveLoop

variable {B : Botan}

/-- The bytes of a message before its last `kCmacSize`. -/
def payloadOf (m : List B.Byte) : List B.Byte := m.take (m.length - kCmacSize)

/-- The last `kCmacSize` bytes of a message. -/
def tagOf (m : List B.Byte) : List B.Byte := m.drop (m.length - kCmacSize)

/-- Payload and tag are the message, nothing overlapping and nothing left out. -/
theorem payloadOf_append_tagOf (m : List B.Byte) : payloadOf m ++ tagOf m = m :=
  List.take_append_drop _ m

theorem length_tagOf {m : List B.Byte} (h : kCmacSize ≤ m.length) :
    (tagOf m).length = kCmacSize := by
  simp only [tagOf, List.length_drop]
  omega

/-- The tag of the message is the CMAC of its payload. -/
def TagMatches (key m : List B.Byte) : Prop := tagOf m = B.cmac key (payloadOf m)

instance (key m : List B.Byte) : Decidable (TagMatches key m) :=
  inferInstanceAs (Decidable (_ = _))

/-! ## Reading ranges -/

theorem settle_vectorRange {α : Type} (reader : AccessBy) (v : List B.Byte)
    (first last : ℤ) (inside : (⟨reader, first, last, v.length⟩ : Access).InRange)
    (f : List B.Byte → Code B α) (mem : Mem B) :
    ((vectorRange reader v first last).bind f).settle mem =
      (f ((v.drop first.toNat).take (last.toNat - first.toNat))).settle
        (mem.note [.accessed ⟨reader, first, last, v.length⟩]) := by
  simp [vectorRange, inside, Prog.bind_assoc]

theorem settle_vectorRange_outside {α : Type} (reader : AccessBy) (v : List B.Byte)
    (first last : ℤ) (outside : ¬ (⟨reader, first, last, v.length⟩ : Access).InRange)
    (f : List B.Byte → Code B α) (mem : Mem B) :
    ((vectorRange reader v first last).bind f).settle mem =
      ⟨mem.note [.accessed ⟨reader, first, last, v.length⟩],
        .undef (.outOfRange ⟨reader, first, last, v.length⟩)⟩ := by
  simp [vectorRange, outside, Prog.bind_assoc]

/-- The length handed to `update` is the payload's, for a message that has a tag. -/
theorem toSizeT_sub_kCmacSize {n : ℕ} (h : kCmacSize ≤ n) (bound : n ≤ kMessageSize) :
    toSizeT ((n : ℤ) - kCmacSize) = n - kCmacSize := by
  simp only [kMessageSize, toSizeT, kCmacSize] at *
  omega

/-! ## One round -/

/-- The two statements that report the outcome of the comparison. -/
def verdictObs (equal : Bool) : List (Obs B) :=
  if equal then [.printed verificationSucceeded]
  else [.printed verificationFailed, .printed verificationSucceeded]

/-- What a round on a message that has a tag leaves to be observed. -/
def roundObs (key buffer : List B.Byte) (m : Message B) : List (Obs B) :=
  [.accessed ⟨.tempVec, 0, m.val.length, (receiveInto buffer m).length⟩,
    .printed (.counted "[Receiver] Received " m.val.length " bytes \n"),
    .printed (.hex "[Receiver]" m.val),
    .accessed ⟨.receivedCmac, m.val.length - kCmacSize, m.val.length, m.val.length⟩,
    .printed (.cout "[Receiver] Received CMAC\n"),
    .printed (.hex "[Receiver]" (tagOf m.val)),
    .accessed ⟨.macUpdate, 0, toSizeT (m.val.length - kCmacSize), m.val.length⟩,
    .printed (.cout "[Receiver] Calculated CMAC of the received message\n"),
    .printed (.hex "[Receiver]" (B.cmac key (payloadOf m.val))),
    .compared m.val (decide (TagMatches key m.val))] ++
  verdictObs (decide (TagMatches key m.val))

/-- What a round on a message too short for a tag leaves to be observed, up to the
range that lies outside. -/
def shortObs (buffer : List B.Byte) (m : Message B) : List (Obs B) :=
  [.accessed ⟨.tempVec, 0, m.val.length, (receiveInto buffer m).length⟩,
    .printed (.counted "[Receiver] Received " m.val.length " bytes \n"),
    .printed (.hex "[Receiver]" m.val),
    .accessed ⟨.receivedCmac, m.val.length - kCmacSize, m.val.length, m.val.length⟩]

theorem length_le_length_receiveInto (buffer : List B.Byte) (m : Message B) :
    m.val.length ≤ (receiveInto buffer m).length := by
  simp [receiveInto]

/-- The copy to `temp_vec` is in range and is the message, whatever the buffer held. -/
theorem settle_tempVec {α : Type} (buffer : List B.Byte) (m : Message B)
    (f : List B.Byte → Code B α) (mem : Mem B) :
    ((vectorRange .tempVec (receiveInto buffer m) 0 (receivedBytes (some m))).bind
        f).settle mem =
      (f m.val).settle
        (mem.note [.accessed ⟨.tempVec, 0, m.val.length, (receiveInto buffer m).length⟩]) := by
  have long := length_le_length_receiveInto buffer m
  rw [settle_vectorRange _ _ _ _ (by simp [Access.InRange, receivedBytes, long])]
  simp [receivedBytes]

/-- **A message with room for a tag.**  The round compares its tag with the CMAC
of its payload, reports, and is back at the loop head with the MAC object empty. -/
theorem settle_receiveBody {α : Type} (key buffer : List B.Byte) (m : Message B)
    (h : kCmacSize ≤ m.val.length) (f : ReceiveState B ⊕ Unit → Code B α) (mem : Mem B) :
    ((receiveBody ⟨buffer, ⟨key, []⟩⟩ (some m)).bind f).settle mem =
      (f (.inl ⟨receiveInto buffer m, ⟨key, []⟩⟩)).settle
        (mem.note (roundObs key buffer m)) := by
  have size := toSizeT_sub_kCmacSize h m.property
  have positive : receivedBytes (some m) > 0 := by
    simp only [receivedBytes, kCmacSize] at *
    omega
  have cmacInside : (⟨.receivedCmac, (m.val.length : ℤ) - kCmacSize, m.val.length,
      m.val.length⟩ : Access).InRange := by
    simp only [Access.InRange, kCmacSize] at *
    omega
  have updateInside : (⟨.macUpdate, 0, (toSizeT ((m.val.length : ℤ) - kCmacSize) : ℕ),
      m.val.length⟩ : Access).InRange := by
    rw [size]
    simp only [Access.InRange, kCmacSize] at *
    omega
  simp only [receiveBody, positive, if_true, Prog.bind_eq, Prog.pure_eq, Prog.bind_assoc]
  rw [settle_tempVec]
  simp only [settle_print, receivedBytes]
  rw [settle_vectorRange _ _ _ _ cmacInside]
  simp only [settle_print]
  rw [settle_vectorRange _ _ _ _ updateInside]
  -- the two ranges are the tag and the payload
  have tagBytes : (m.val.drop ((m.val.length : ℤ) - kCmacSize).toNat).take
      ((m.val.length : ℤ).toNat - ((m.val.length : ℤ) - kCmacSize).toNat) =
        tagOf m.val := by
    have start : ((m.val.length : ℤ) - kCmacSize).toNat = m.val.length - kCmacSize := by
      omega
    rw [start, Int.toNat_natCast, tagOf, List.take_of_length_le (by simp)]
  have payloadBytes : (m.val.drop (0 : ℤ).toNat).take
      (((toSizeT ((m.val.length : ℤ) - kCmacSize) : ℕ) : ℤ).toNat - (0 : ℤ).toNat) =
        payloadOf m.val := by
    simp [size, payloadOf]
  rw [tagBytes, payloadBytes]
  by_cases same : tagOf m.val = B.cmac key (payloadOf m.val)
  · simp [roundObs, verdictObs, TagMatches, Mac.update, Mac.final, same, Prog.bind_assoc]
  · simp [roundObs, verdictObs, TagMatches, Mac.update, Mac.final, same, Prog.bind_assoc]

/-- **A message too short for a tag.**  The iterator `temp_vec.end() - kCmacSize`
lies before `temp_vec.begin()`, and the behaviour of the round is undefined. -/
theorem settle_receiveBody_short {α : Type} (st : ReceiveState B) (m : Message B)
    (positive : 0 < m.val.length) (h : m.val.length < kCmacSize)
    (f : ReceiveState B ⊕ Unit → Code B α) (mem : Mem B) :
    ((receiveBody st (some m)).bind f).settle mem =
      ⟨mem.note (shortObs st.buffer m), .undef (.outOfRange
        ⟨.receivedCmac, m.val.length - kCmacSize, m.val.length, m.val.length⟩)⟩ := by
  have received : receivedBytes (some m) > 0 := by
    simp only [receivedBytes]
    omega
  have outside : ¬ (⟨.receivedCmac, (m.val.length : ℤ) - kCmacSize, m.val.length,
      m.val.length⟩ : Access).InRange := by
    simp only [Access.InRange, kCmacSize] at *
    omega
  simp only [receiveBody, received, if_true, Prog.bind_eq, Prog.pure_eq, Prog.bind_assoc]
  rw [settle_tempVec]
  simp only [settle_print, receivedBytes]
  rw [settle_vectorRange_outside _ _ _ _ outside]
  simp [shortObs]

/-- **No bytes.**  A failed `mq_receive` and a delivered message of length zero
take the same branch: `perror` and `break`. -/
theorem settle_receiveBody_break {α : Type} (st : ReceiveState B)
    {received : Option (Message B)} (h : ¬ receivedBytes received > 0)
    (f : ReceiveState B ⊕ Unit → Code B α) (mem : Mem B) :
    ((receiveBody st received).bind f).settle mem =
      (f (.inr ())).settle (mem.note [.printed (.perror "mq_receive")]) := by
  simp [receiveBody, h, Prog.bind_assoc]

/-! ## The loop -/

/-- The process at the head of the loop, `k` being what follows the loop. -/
def loopAt (mq : Mqd) (k : Unit → Code B ℕ) (key buffer : List B.Byte) (mem : Mem B) :
    Process B :=
  ⟨mem, .loop (.mqReceive .receivePeriodicMessages mq)
    (⟨buffer, ⟨key, []⟩⟩ : ReceiveState B) receiveBody k⟩

/-- `mq_receive` returns, with the message or with -1. -/
def received (mq : Mqd) (r : Option (Message B)) : Event (Op B) Op.Resp :=
  ⟨.mqReceive .receivePeriodicMessages mq, r⟩

section Rounds

variable (mq : Mqd) (k : Unit → Code B ℕ) (key buffer : List B.Byte) (mem : Mem B)

/-- At the loop head, `mq_receive` is what the process waits for. -/
theorem loopAt_step (r : Option (Message B)) :
    Machine.Step Proc.next (loopAt mq k key buffer mem) (received mq r)
      (((receiveBody ⟨buffer, ⟨key, []⟩⟩ r).bind
        (Prog.again (.mqReceive .receivePeriodicMessages mq) receiveBody k)).settle mem) :=
  ⟨_, rfl, rfl⟩

theorem loopAt_step_long (m : Message B) (h : kCmacSize ≤ m.val.length) :
    Machine.Step Proc.next (loopAt mq k key buffer mem) (received mq (some m))
      (loopAt mq k key (receiveInto buffer m) (mem.note (roundObs key buffer m))) := by
  have step := loopAt_step mq k key buffer mem (some m)
  rwa [settle_receiveBody key buffer m h] at step

theorem loopAt_step_short (m : Message B) (positive : 0 < m.val.length)
    (h : m.val.length < kCmacSize) :
    Machine.Step Proc.next (loopAt mq k key buffer mem) (received mq (some m))
      ⟨mem.note (shortObs buffer m), .undef (.outOfRange
        ⟨.receivedCmac, m.val.length - kCmacSize, m.val.length, m.val.length⟩)⟩ := by
  have step := loopAt_step mq k key buffer mem (some m)
  rwa [settle_receiveBody_short _ m positive h] at step

theorem loopAt_step_break {r : Option (Message B)} (h : ¬ receivedBytes r > 0) :
    Machine.Step Proc.next (loopAt mq k key buffer mem) (received mq r)
      ((k ()).settle (mem.note [.printed (.perror "mq_receive")])) := by
  have step := loopAt_step mq k key buffer mem r
  rwa [settle_receiveBody_break _ h] at step

end Rounds

/-- The receive buffer after a stream of messages. -/
def bufferAfter (buffer : List B.Byte) (ms : List (Message B)) : List B.Byte :=
  ms.foldl receiveInto buffer

/-- What a stream of messages leaves to be observed. -/
def streamObs (key : List B.Byte) : List B.Byte → List (Message B) → List (Obs B)
  | _, [] => []
  | buffer, m :: ms => roundObs key buffer m ++ streamObs key (receiveInto buffer m) ms

/-- **A stream of messages, each with room for a tag**, brings the loop back to its
head, every message handled in turn. -/
theorem loopAt_runs (mq : Mqd) (k : Unit → Code B ℕ) (key buffer : List B.Byte)
    (mem : Mem B) (ms : List (Message B)) (h : ∀ m ∈ ms, kCmacSize ≤ m.val.length) :
    Machine.Runs Proc.next (loopAt mq k key buffer mem)
      (ms.map fun m => received mq (some m))
      (loopAt mq k key (bufferAfter buffer ms) (mem.note (streamObs key buffer ms))) := by
  induction ms generalizing buffer mem with
  | nil => simpa [bufferAfter, streamObs] using Machine.Runs.nil _
  | cons m ms ih =>
      have first := loopAt_step_long mq k key buffer mem m (h m (by simp))
      have rest := ih (receiveInto buffer m) (mem.note (roundObs key buffer m))
        fun m' mem' => h m' (by simp [mem'])
      simpa [bufferAfter, streamObs] using Machine.Runs.cons first rest

/-! ## The function -/

/-- A call of `receive_periodic_messages` from `main`'s variables. -/
def startReceiving (mq : Mqd) (mem : Mem B) : Process B :=
  (receivePeriodicMessages mq).settle mem

/-- The calls of `receive_periodic_messages` when `set_key` takes the key and the
queue delivers `ms`. -/
def receiveTrace (mq : Mqd) (key : List B.Byte) (ms : List (Message B)) :
    List (Event (Op B) Op.Resp) :=
  ⟨.setKey key, .ok ()⟩ :: ms.map fun m => received mq (some m)

/-- The receive buffer as it is declared. -/
def initialBuffer (B : Botan) : List B.Byte := List.replicate kMessageSize (B.lit 0)

/-- `set_key` brings the function to its loop. -/
theorem startReceiving_step (mq : Mqd) (mem : Mem B) :
    Machine.Step Proc.next (startReceiving mq mem) ⟨.setKey mem.symmetricKey, .ok ()⟩
      (loopAt mq (fun _ => .ret kOK) mem.symmetricKey (initialBuffer B) mem) := by
  have head : startReceiving mq mem = ⟨mem, .call (.setKey mem.symmetricKey) fun
      | .ok _ => (loopAt mq (fun _ => .ret kOK) mem.symmetricKey (initialBuffer B) mem).prog
      | .error e => .throw e⟩ := by
    simp only [startReceiving, receivePeriodicMessages, Prog.bind_eq,
      settle_getSymmetricKey, settle_keyedMac]
    congr 2
    funext r
    cases r <;> rfl
  rw [head]
  exact ⟨_, rfl, rfl⟩

/-- Every stream the loop survives has this run. -/
theorem startReceiving_runs (mq : Mqd) (mem : Mem B) (ms : List (Message B))
    (h : ∀ m ∈ ms, kCmacSize ≤ m.val.length) :
    Machine.Runs Proc.next (startReceiving mq mem) (receiveTrace mq mem.symmetricKey ms)
      (loopAt mq (fun _ => .ret kOK) mem.symmetricKey (bufferAfter (initialBuffer B) ms)
        (mem.note (streamObs mem.symmetricKey (initialBuffer B) ms))) :=
  .cons (startReceiving_step mq mem) (loopAt_runs _ _ _ _ _ ms h)

/-! ## Reading the observations -/

/-- A line that reports a verdict. -/
inductive Verdict
  | succeeded
  | failed
  deriving DecidableEq

/-- The verdict an observation reports, if it does. -/
def Obs.verdict? : Obs B → Option Verdict
  | .printed (.cout text) =>
      if text = "[Receiver] CMAC verification succeeded\n" then some .succeeded else none
  | .printed (.cerr text) =>
      if text = "[Receiver] CMAC verification failed!\n" then some .failed else none
  | _ => none

/-- The comparison an observation records, if it does. -/
def Obs.compared? : Obs B → Option (List B.Byte × Bool)
  | .compared m equal => some (m, equal)
  | _ => none

/-- The range an observation reads, if it does. -/
def Obs.accessed? : Obs B → Option Access
  | .accessed a => some a
  | _ => none

/-- The verdicts reported, in order. -/
def verdicts (os : List (Obs B)) : List Verdict := os.filterMap Obs.verdict?

/-- The messages compared with the outcome of each comparison, in order. -/
def comparisons (os : List (Obs B)) : List (List B.Byte × Bool) :=
  os.filterMap Obs.compared?

/-- The ranges read, in order. -/
def accesses (os : List (Obs B)) : List Access := os.filterMap Obs.accessed?

@[simp] theorem verdicts_append (os os' : List (Obs B)) :
    verdicts (os ++ os') = verdicts os ++ verdicts os' := List.filterMap_append

@[simp] theorem comparisons_append (os os' : List (Obs B)) :
    comparisons (os ++ os') = comparisons os ++ comparisons os' := List.filterMap_append

@[simp] theorem accesses_append (os os' : List (Obs B)) :
    accesses (os ++ os') = accesses os ++ accesses os' := List.filterMap_append

@[simp] theorem comparisons_nil : comparisons ([] : List (Obs B)) = [] := rfl

/-- Printing compares nothing. -/
@[simp] theorem comparisons_printed (line : Line B) (os : List (Obs B)) :
    comparisons (Obs.printed line :: os) = comparisons os := rfl

@[simp] theorem comparisons_shortObs (buffer : List B.Byte) (m : Message B) :
    comparisons (shortObs buffer m) = [] := rfl

/-- The verdicts of one round: a mismatch is reported as both. -/
def roundVerdicts (equal : Bool) : List Verdict :=
  if equal then [.succeeded] else [.failed, .succeeded]

@[simp] theorem verdicts_roundObs (key buffer : List B.Byte) (m : Message B) :
    verdicts (roundObs key buffer m) = roundVerdicts (decide (TagMatches key m.val)) := by
  by_cases same : TagMatches key m.val <;>
    simp [verdicts, List.filterMap_cons, roundObs, verdictObs, roundVerdicts, Obs.verdict?,
      verificationSucceeded, verificationFailed, same]

@[simp] theorem comparisons_roundObs (key buffer : List B.Byte) (m : Message B) :
    comparisons (roundObs key buffer m) = [(m.val, decide (TagMatches key m.val))] := by
  by_cases same : TagMatches key m.val <;>
    simp [comparisons, List.filterMap_cons, roundObs, verdictObs, Obs.compared?, same]

@[simp] theorem accesses_roundObs (key buffer : List B.Byte) (m : Message B) :
    accesses (roundObs key buffer m) =
      [⟨.tempVec, 0, m.val.length, (receiveInto buffer m).length⟩,
        ⟨.receivedCmac, m.val.length - kCmacSize, m.val.length, m.val.length⟩,
        ⟨.macUpdate, 0, toSizeT (m.val.length - kCmacSize), m.val.length⟩] := by
  by_cases same : TagMatches key m.val <;>
    simp [accesses, List.filterMap_cons, roundObs, verdictObs, Obs.accessed?, same]

theorem verdicts_streamObs (key buffer : List B.Byte) (ms : List (Message B)) :
    verdicts (streamObs key buffer ms) =
      ms.flatMap fun m => roundVerdicts (decide (TagMatches key m.val)) := by
  induction ms generalizing buffer with
  | nil => rfl
  | cons m ms ih => simp [streamObs, ih]

theorem comparisons_streamObs (key buffer : List B.Byte) (ms : List (Message B)) :
    comparisons (streamObs key buffer ms) =
      ms.map fun m => (m.val, decide (TagMatches key m.val)) := by
  induction ms generalizing buffer with
  | nil => rfl
  | cons m ms ih => simp [streamObs, ih]

end ReceiveLoop

end SecureComm
