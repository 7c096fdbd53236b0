import SecureComm.FrameRuns
import SecureComm.Verdicts

/-!
# One MAC object for many messages

Both loops key one MAC object and use it for every message, and both keep one
buffer.  `calculate_mac` makes a fresh object for one computation and is the
reference here: no message before leaves anything behind that a later tag could
depend on.
-/

namespace SecureComm

open Interaction

section MacReuse

variable {B : Botan}

/-- A call of `calculate_mac`. -/
def startMac (data key : List B.Byte) (mem : Mem B) :
    Proc (Op B) Op.Resp (Mem B) Exn Fault (List B.Byte) :=
  (calculateMac data key).settle mem

/-- `calculate_mac` returns this tag when `set_key` takes the key. -/
def OneShot (key data tag : List B.Byte) : Prop :=
  ∀ mem : Mem B, Machine.Runs Proc.next (startMac data key mem) [⟨.setKey key, .ok ()⟩]
    ⟨mem, .ret tag⟩

/-- A fresh object computes the CMAC of its only piece of data. -/
theorem oneShot_cmac (key data : List B.Byte) : OneShot key data (B.cmac key data) := by
  intro mem
  rw [startMac, calculateMac, Prog.bind_eq, settle_keyedMac]
  exact .cons ⟨_, rfl, rfl⟩ (.nil _)

/-- … and nothing else. -/
theorem oneShot_iff (key data tag : List B.Byte) :
    OneShot key data tag ↔ tag = B.cmac key data := by
  constructor
  · intro returns
    have same := (returns (Mem.init B)).unique (oneShot_cmac key data (Mem.init B))
    cases same
    rfl
  · rintro rfl
    exact oneShot_cmac key data

/-- After this history of messages, the next one is compared with this outcome. -/
def ComparedAfter (mq : Mqd) (pk : Option (PublicKey B.Pub)) (key : List B.Byte)
    (ms : List (Message B)) (w : Message B) (equal : Bool) : Prop :=
  (∃ p q, ReceivesTo mq pk key ms p ∧
      Machine.Step Proc.next p (received mq (some w)) q) ∧
    ∀ p q, ReceivesTo mq pk key ms p →
      Machine.Step Proc.next p (received mq (some w)) q →
        comparisons q.mem.observed = comparisons p.mem.observed ++ [(w.val, equal)]

theorem comparedAfter (mq : Mqd) (pk : Option (PublicKey B.Pub)) (key : List B.Byte)
    {ms : List (Message B)} (long : ∀ m ∈ ms, kCmacSize ≤ m.val.length) {w : Message B}
    (tagged : kCmacSize ≤ w.val.length) :
    ComparedAfter mq pk key ms w (decide (TagMatches key w.val)) := by
  have step := loopAt_step_long mq (fun _ => .ret kOK) key (bufferAfter (initialBuffer B) ms)
    ((callerMem pk key).note (streamObs key (initialBuffer B) ms)) w tagged
  refine ⟨⟨_, _, receivesTo_receivedAll long, step⟩, ?_⟩
  intro p q run next
  -- one run for each history, so this is the process of the first half
  rw [run.eq_receivedAll long] at next ⊢
  rw [next.unique step]
  simp only [receivedAll, loopAt, Mem.note_observed, comparisons_append,
    comparisons_roundObs]

/-- The tags of both loops are those of a fresh object, whatever came before. -/
structure ReusedAsFresh (key : List B.Byte) : Prop where
  /-- The `i`-th message sent carries the one-shot MAC of its payload. -/
  sender : ∀ (cfg : Config) (mq : Mqd) (mem : Mem B) (t : List (Event (Op B) Op.Resp))
    (p : Process B), mem.symmetricKey = key →
      Machine.Runs Proc.next (startSending cfg mq mem) t p →
      ∀ (i : ℕ) (s : Send B), (sends t)[i]? = some s →
        OneShot key (s.message.take kBufferSize) (s.message.drop kBufferSize)
  /-- Two histories lead to the same comparison, which is the one with the one-shot
  MAC. -/
  receiver : ∀ (mq : Mqd) (pk : Option (PublicKey B.Pub)) (ms ms' : List (Message B))
    (w : Message B), (∀ m ∈ ms, kCmacSize ≤ m.val.length) →
      (∀ m ∈ ms', kCmacSize ≤ m.val.length) → kCmacSize ≤ w.val.length →
      ∃ equal, ComparedAfter mq pk key ms w equal ∧ ComparedAfter mq pk key ms' w equal ∧
        (equal = true ↔ OneShot key (w.val.take (w.val.length - kCmacSize))
          (w.val.drop (w.val.length - kCmacSize)))
  /-- A message that is only a tag is compared with the MAC of the empty string. -/
  onlyTag : ∀ (mq : Mqd) (pk : Option (PublicKey B.Pub)) (ms : List (Message B))
    (w : Message B), (∀ m ∈ ms, kCmacSize ≤ m.val.length) → w.val.length = kCmacSize →
      ∃ equal, ComparedAfter mq pk key ms w equal ∧ (equal = true ↔ OneShot key [] w.val)

/-- **A reused MAC object computes what a fresh one does.** -/
theorem reusedAsFresh (key : List B.Byte) : ReusedAsFresh key := by
  refine ⟨?_, ?_, ?_⟩
  · rintro cfg mq mem t p rfl run i s there
    -- cutting a frame after its payload gives back payload and tag
    have size : (framePayload (B := B) i).length = kBufferSize := length_framePayload i
    rw [message_of_sends run there, frameBytes, ← size, List.take_left, List.drop_left]
    exact oneShot_cmac _ _
  · intro mq pk ms ms' w long long' tagged
    refine ⟨_, comparedAfter mq pk key long tagged, comparedAfter mq pk key long' tagged, ?_⟩
    rw [decide_eq_true_iff, oneShot_iff]
    rfl
  · intro mq pk ms w long only
    -- with nothing before the tag, the payload is empty
    refine ⟨_, comparedAfter mq pk key long only.ge, ?_⟩
    rw [decide_eq_true_iff, oneShot_iff, TagMatches, tagOf, payloadOf, only, Nat.sub_self,
      List.drop_zero, List.take_zero]

end MacReuse

end SecureComm
