import Mathlib.Data.List.Basic
import Mathlib.Data.Nat.ModEq
import SecureComm.Frames

/-!
# What send_periodic_message puts on the queue

`SendState` is what the loop of `send_periodic_message` carries from one message
to the next, and `SendState.round` the statements of a round that work on it.
Iterating them gives the frames (`before_eq`), whatever the results of `mq_send`;
the results only decide how many rounds there are.
-/

namespace SecureComm

open Interaction

section FrameRuns

variable {B : Botan}

/-! ## The rounds on the buffer -/

/-- The variables of the loop: the buffer and the MAC object. -/
structure SendState (B : Botan) where
  buffer : List B.Byte
  mac : Mac B

/-- One round up to its `mq_send`. -/
def SendState.round (st : SendState B) (messageIndex : ℕ) : SendState B :=
  let buffer := setCounter st.buffer messageIndex
  let (tag, mac) := (st.mac.update (buffer.take kBufferSize)).final
  ⟨copyTo buffer kBufferSize (tag.take kCmacSize), mac⟩

/-- The loop does its rounds. -/
theorem sendLoop_round (mq : Mqd) (n i : ℕ) (st : SendState B) :
    sendLoop mq (n + 1) i st.buffer st.mac =
      (mqSend .sendPeriodicMessage mq (st.round i).buffer).bind (fun
        | false => do
            print (.perror "mq_send")
            return kNOT_OK
        | true => do
            print (.sentPeriodic (st.round i).buffer.length i)
            print (.hex "[Sender]" (st.round i).buffer)
            sendLoop mq n (i + 1) (st.round i).buffer (st.round i).mac) := rfl

/-- The variables before round `i`. -/
def SendState.before (key : List B.Byte) : ℕ → SendState B
  | 0 => ⟨List.replicate (kBufferSize + kCmacSize) (B.lit 0xFF), ⟨key, []⟩⟩
  | i + 1 => (SendState.before key i).round i

/-- **Before every round the MAC object is empty and the buffer holds the frame of
the round before.** -/
theorem SendState.before_eq (key : List B.Byte) (i : ℕ) :
    SendState.before key i = ⟨bufferBefore key i, ⟨key, []⟩⟩ := by
  induction i with
  | zero => rfl
  | succ i ih =>
      rw [SendState.before, ih]
      -- `final` empties the object, and the payload is cut before the old tag
      simp only [SendState.round, Mac.update, Mac.final, List.nil_append]
      rw [take_setCounter, List.take_of_length_le (by simp [B.cmac_length]),
        copyTo_setCounter]
      rfl

/-- A round leaves the first 19 bytes of any buffer alone. -/
theorem SendState.take_round (st : SendState B) (i : ℕ) (size : 19 < st.buffer.length) :
    (st.round i).buffer.take 19 = st.buffer.take 19 := by
  -- the counter is byte 19 and the tag begins at byte 20
  have inside : 19 ≤ ((setCounter st.buffer i).take kBufferSize).length := by
    simp only [List.length_take, setCounter, List.length_set, kBufferSize]
    omega
  simp only [SendState.round, copyTo, List.append_assoc]
  rw [List.take_append_of_le_length inside, List.take_take, kBufferSize,
    Nat.min_eq_left (by omega), setCounter, List.take_set_of_le le_rfl]

/-- Two frames under one key are equal exactly when their counter bytes are. -/
theorem frameBytes_eq_iff (key : List B.Byte) (i i' : ℕ) :
    frameBytes key i = frameBytes key i' ↔ i ≡ i' [MOD 256] := by
  constructor
  · intro same
    have payloads : framePayload (B := B) i = framePayload i' :=
      (List.append_inj same (by simp)).1
    have counters : B.lit (UInt8.ofNat (i % 256)) = B.lit (UInt8.ofNat (i' % 256)) := by
      simpa [framePayload] using payloads
    have numbers := congrArg UInt8.toNat (B.lit_injective counters)
    simpa [Nat.ModEq] using numbers
  · intro congruent
    have counters : i % 256 = i' % 256 := congruent
    rw [frameBytes, frameBytes, framePayload, framePayload, counters]

/-! ## The calls of mq_send -/

/-- A call of `mq_send` with its result. -/
structure Send (B : Botan) where
  mq : Mqd
  message : List B.Byte
  sent : Bool

/-- The `mq_send` an event is. -/
def send? : Event (Op B) Op.Resp → Option (Send B)
  | ⟨.mqSend _ mq message, sent⟩ => some ⟨mq, message, sent⟩
  | _ => none

/-- The calls of `mq_send` in a trace, in order. -/
def sends (t : List (Event (Op B) Op.Resp)) : List (Send B) := t.filterMap send?

/-- The messages a trace puts on a queue, in order. -/
def queued (t : List (Event (Op B) Op.Resp)) : List (Mqd × List B.Byte) :=
  ((sends t).filter Send.sent).map fun s => (s.mq, s.message)

/-- The calls that put `j` frames on the queue, from frame `i` on. -/
def sentFrames (mq : Mqd) (key : List B.Byte) (i j : ℕ) : List (Send B) :=
  (List.range' i j).map fun k => ⟨mq, frameBytes key k, true⟩

theorem sentFrames_succ (mq : Mqd) (key : List B.Byte) (i j : ℕ) :
    sentFrames mq key i (j + 1) =
      ⟨mq, frameBytes key i, true⟩ :: sentFrames mq key (i + 1) j := by
  rw [sentFrames, List.range'_succ, List.map_cons, sentFrames]

/-- The rounds of the loop, the buffer and the MAC object as they are before round
`i`. -/
def framesAt (mq : Mqd) (key : List B.Byte) (n i : ℕ) (mem : Mem B) : Process B :=
  (sendLoop mq n i (bufferBefore key i) ⟨key, []⟩).settle mem

section Rounds

variable {mq : Mqd} {key : List B.Byte} {n i : ℕ} {mem : Mem B}

/-- A round of the loop: it sends its frame, and ends or goes on. -/
theorem framesAt_step {e : Event (Op B) Op.Resp} {q : Process B}
    (step : Machine.Step Proc.next (framesAt mq key (n + 1) i mem) e q) :
    (e = ⟨.mqSend .sendPeriodicMessage mq (frameBytes key i), false⟩ ∧
        ∃ m, q = ⟨m, .ret kNOT_OK⟩) ∨
      (e = ⟨.mqSend .sendPeriodicMessage mq (frameBytes key i), true⟩ ∧
        ∃ m, q = framesAt mq key n (i + 1) m) := by
  rw [framesAt, sendLoop_succ] at step
  obtain ⟨op, sent⟩ := e
  obtain ⟨k, waiting, rfl⟩ := step
  cases waiting
  cases sent with
  | false => exact .inl ⟨rfl, _, rfl⟩
  | true => exact .inr ⟨rfl, _, rfl⟩

/-- The loop is waiting in the `mq_send` of its frame. -/
theorem framesAt_waits (mq : Mqd) (key : List B.Byte) (n i : ℕ) (mem : Mem B)
    (sent : Bool) :
    ∃ q, Machine.Step Proc.next (framesAt mq key (n + 1) i mem)
      ⟨.mqSend .sendPeriodicMessage mq (frameBytes key i), sent⟩ q := by
  rw [framesAt, sendLoop_succ]
  exact ⟨_, _, rfl, rfl⟩

/-- Only a loop with no round to go is over. -/
theorem eq_zero_of_framesAt_ended (ended : (framesAt mq key n i mem).next = none) :
    n = 0 := by
  cases n with
  | zero => rfl
  | succ n =>
      obtain ⟨q, k, waiting, -⟩ := framesAt_waits mq key n i mem true
      rw [ended] at waiting
      cases waiting

/-- **A run of the loop** has sent some frames in order and is in a later round, or
it has been left at the frame that failed. -/
theorem framesAt_runs {t : List (Event (Op B) Op.Resp)} {p : Process B}
    (run : Machine.Runs Proc.next (framesAt mq key n i mem) t p) :
    ∃ j, (j ≤ n ∧ sends t = sentFrames mq key i j ∧
        ∃ m, p = framesAt mq key (n - j) (i + j) m) ∨
      (j < n ∧ sends t = sentFrames mq key i j ++ [⟨mq, frameBytes key (i + j), false⟩] ∧
        ∃ m, p = ⟨m, .ret kNOT_OK⟩) := by
  induction n generalizing i mem t with
  | zero =>
      cases run with
      | nil => exact ⟨0, .inl ⟨le_rfl, rfl, mem, rfl⟩⟩
      | cons step _ => obtain ⟨k, waiting, -⟩ := step; cases waiting
  | succ n ih =>
      cases run with
      | nil => exact ⟨0, .inl ⟨Nat.zero_le _, rfl, mem, rfl⟩⟩
      | cons step rest =>
          obtain ⟨rfl, m, rfl⟩ | ⟨rfl, m, rfl⟩ := framesAt_step step
          · -- the send fails, and the loop is left
            cases rest with
            | nil => exact ⟨0, .inr ⟨Nat.succ_pos _, rfl, m, rfl⟩⟩
            | cons step' _ => obtain ⟨k, waiting, -⟩ := step'; cases waiting
          · -- the frame is on the queue, and the rest is a run from the next round
            obtain ⟨j, ⟨bound, sent, m', rfl⟩ | ⟨bound, sent, m', rfl⟩⟩ := ih rest
            · have shift : i + (j + 1) = i + 1 + j := by omega
              refine ⟨j + 1, .inl ⟨by omega, ?_, m', ?_⟩⟩
              · rw [sentFrames_succ, ← sent]
                rfl
              · rw [Nat.add_sub_add_right, shift]
            · have shift : i + (j + 1) = i + 1 + j := by omega
              refine ⟨j + 1, .inr ⟨by omega, ?_, m', rfl⟩⟩
              rw [sentFrames_succ, shift, List.cons_append, ← sent]
              rfl

end Rounds

/-! ## The function -/

/-- A call of `send_periodic_message` from `main`'s variables. -/
def startSending (cfg : Config) (mq : Mqd) (mem : Mem B) : Process B :=
  (sendPeriodicMessage cfg mq).settle mem

section Function

variable {cfg : Config} {mq : Mqd} {mem : Mem B}

/-- `set_key` brings the function to its loop, or ends it. -/
theorem startSending_eq :
    startSending cfg mq mem = ⟨mem, .call (.setKey mem.symmetricKey) fun
      | .ok _ => sendLoop mq cfg.numMessagesToSend 0 (bufferBefore mem.symmetricKey 0)
          ⟨mem.symmetricKey, []⟩
      | .error e => .throw e⟩ := by
  simp only [startSending, sendPeriodicMessage, Prog.bind_eq, settle_getSymmetricKey,
    settle_keyedMac]
  congr 2
  funext answer
  cases answer <;> rfl

theorem startSending_step :
    Machine.Step Proc.next (startSending cfg mq mem) ⟨.setKey mem.symmetricKey, .ok ()⟩
      (framesAt mq mem.symmetricKey cfg.numMessagesToSend 0 mem) := by
  rw [startSending_eq]
  exact ⟨_, rfl, rfl⟩

/-- A run of the function: it has not begun, `set_key` has thrown, or it is a run of
the loop. -/
theorem startSending_runs {t : List (Event (Op B) Op.Resp)} {p : Process B}
    (run : Machine.Runs Proc.next (startSending cfg mq mem) t p) :
    (t = [] ∧ p = startSending cfg mq mem) ∨
      (∃ e, t = [⟨.setKey mem.symmetricKey, .error e⟩] ∧ p = ⟨mem, .throw e⟩) ∨
      ∃ t', t = ⟨.setKey mem.symmetricKey, .ok ()⟩ :: t' ∧
        Machine.Runs Proc.next
          (framesAt mq mem.symmetricKey cfg.numMessagesToSend 0 mem) t' p := by
  cases run with
  | nil => exact .inl ⟨rfl, rfl⟩
  | @cons _ _ _ e _ step rest =>
      rw [startSending_eq] at step
      obtain ⟨op, answer⟩ := e
      obtain ⟨k, waiting, rfl⟩ := step
      cases waiting
      cases answer with
      | ok _ => exact .inr (.inr ⟨_, rfl, rest⟩)
      | error e =>
          cases rest with
          | nil => exact .inr (.inl ⟨e, rfl, rfl⟩)
          | cons step' _ => obtain ⟨k, waiting, -⟩ := step'; cases waiting

/-- **The `i`-th message handed to `mq_send`** is frame `i`, in any run. -/
theorem message_of_sends {t : List (Event (Op B) Op.Resp)} {p : Process B}
    (run : Machine.Runs Proc.next (startSending cfg mq mem) t p) {i : ℕ} {s : Send B}
    (there : (sends t)[i]? = some s) : s.message = frameBytes mem.symmetricKey i := by
  obtain ⟨rfl, -⟩ | ⟨e, rfl, -⟩ | ⟨t, rfl, rounds⟩ := startSending_runs run
  · cases there
  · cases there
  · have size : ∀ j, (sentFrames mq mem.symmetricKey 0 j).length = j := by simp [sentFrames]
    have early : ∀ j, (sentFrames mq mem.symmetricKey 0 j)[i]? = some s →
        s.message = frameBytes mem.symmetricKey i := by
      intro j found
      rw [sentFrames, List.getElem?_map, Option.map_eq_some_iff] at found
      obtain ⟨k, here, rfl⟩ := found
      obtain ⟨-, rfl⟩ := List.getElem?_eq_some_iff.mp here
      simp
    change (sends t)[i]? = some s at there
    obtain ⟨j, ⟨-, sent, -⟩ | ⟨-, sent, -⟩⟩ := framesAt_runs rounds
    · rw [sent] at there
      exact early j there
    · rw [sent] at there
      rcases Nat.lt_or_ge i j with before | after
      · rw [List.getElem?_append_left (by rw [size]; exact before)] at there
        exact early j there
      · -- the one that failed
        rw [List.getElem?_append_right (by rw [size]; exact after), size,
          List.getElem?_singleton] at there
        split_ifs at there with last
        have same : i = j := by omega
        cases there
        simp [same]

end Function

/-! ## Patterns of results -/

/-- The first message whose `mq_send` fails, or `n` if none of the first `n` does. -/
def firstFailure (pattern : ℕ → Bool) (n : ℕ) : ℕ :=
  (List.range n).findIdx fun i => !pattern i

theorem firstFailure_eq {pattern : ℕ → Bool} {n j : ℕ} (bound : j ≤ n)
    (before : ∀ k < j, pattern k = true) (fails : j < n → pattern j = false) :
    firstFailure pattern n = j := by
  rcases Nat.lt_or_eq_of_le bound with inside | rfl
  · have size : j < (List.range n).length := by simpa using inside
    rw [firstFailure, List.findIdx_eq size]
    refine ⟨by simp [fails inside], ?_⟩
    intro k earlier
    simp [before k earlier]
  · have passed : ∀ k ∈ List.range j, (!pattern k) = false := by
      intro k inside
      simp [before k (List.mem_range.mp inside)]
    rw [firstFailure, List.findIdx_eq_length_of_false passed, List.length_range]

/-- The calls of `mq_send` return as the pattern says. -/
def Follows (pattern : ℕ → Bool) (t : List (Event (Op B) Op.Resp)) : Prop :=
  ∀ i s, (sends t)[i]? = some s → s.sent = pattern i

/-- A run of `send_periodic_message` to its end in which `set_key` takes the key. -/
structure Finishes (cfg : Config) (mq : Mqd) (mem : Mem B) (pattern : ℕ → Bool)
    (t : List (Event (Op B) Op.Resp)) (p : Process B) : Prop where
  run : Machine.Runs Proc.next (startSending cfg mq mem) t p
  keyed : (⟨.setKey mem.symmetricKey, .ok ()⟩ : Event (Op B) Op.Resp) ∈ t
  follows : Follows pattern t
  ended : p.next = none

/-- The calls of the loop when `mq_send` returns as the pattern says. -/
def loopTrace (mq : Mqd) (key : List B.Byte) (pattern : ℕ → Bool) :
    (n i : ℕ) → List (Event (Op B) Op.Resp)
  | 0, _ => []
  | n + 1, i =>
      ⟨.mqSend .sendPeriodicMessage mq (frameBytes key i), pattern i⟩ ::
        if pattern i then loopTrace mq key pattern n (i + 1) else []

theorem loopTrace_runs (mq : Mqd) (key : List B.Byte) (pattern : ℕ → Bool) (n i : ℕ)
    (mem : Mem B) :
    ∃ p, Machine.Runs Proc.next (framesAt mq key n i mem) (loopTrace mq key pattern n i) p ∧
      p.next = none := by
  induction n generalizing i mem with
  | zero => exact ⟨_, .nil _, rfl⟩
  | succ n ih =>
      obtain ⟨q, step⟩ := framesAt_waits mq key n i mem (pattern i)
      rw [loopTrace]
      cases result : pattern i with
      | false =>
          rw [result] at step
          obtain ⟨-, m, rfl⟩ | ⟨event, -⟩ := framesAt_step step
          · exact ⟨_, .cons step (.nil _), rfl⟩
          · cases event
      | true =>
          rw [result] at step
          obtain ⟨event, -⟩ | ⟨-, m, rfl⟩ := framesAt_step step
          · cases event
          · obtain ⟨p, rest, ended⟩ := ih (i + 1) m
            exact ⟨p, .cons step rest, ended⟩

theorem sends_loopTrace (mq : Mqd) (key : List B.Byte) (pattern : ℕ → Bool) (n i : ℕ)
    {k : ℕ} {s : Send B} (there : (sends (loopTrace mq key pattern n i))[k]? = some s) :
    s.sent = pattern (i + k) := by
  induction n generalizing i k with
  | zero => simp [loopTrace, sends] at there
  | succ n ih =>
      have unfolded : sends (loopTrace mq key pattern (n + 1) i) =
          ⟨mq, frameBytes key i, pattern i⟩ ::
            sends (if pattern i then loopTrace mq key pattern n (i + 1) else []) := rfl
      rw [unfolded] at there
      cases k with
      | zero =>
          cases there
          rfl
      | succ k =>
          rw [List.getElem?_cons_succ] at there
          cases result : pattern i with
          | false => simp [result, sends] at there
          | true =>
              rw [result, if_pos rfl] at there
              rw [ih (i + 1) there, Nat.add_assoc, Nat.add_comm 1]

/-- Every pattern has its run. -/
theorem exists_finishes (cfg : Config) (mq : Mqd) (mem : Mem B) (pattern : ℕ → Bool) :
    ∃ t p, Finishes cfg mq mem pattern t p := by
  obtain ⟨p, run, ended⟩ :=
    loopTrace_runs mq mem.symmetricKey pattern cfg.numMessagesToSend 0 mem
  refine ⟨_, p, .cons startSending_step run, List.mem_cons_self, ?_, ended⟩
  intro i s there
  rw [sends_loopTrace mq mem.symmetricKey pattern cfg.numMessagesToSend 0 there,
    Nat.zero_add]

/-- The frames under a key, and the buffer they are made in. -/
structure FrameLayout (key : List B.Byte) : Prop where
  /-- Nineteen bytes 0xFF, the counter, and the CMAC of those twenty. -/
  bytes : ∀ i, frameBytes key i =
    (List.replicate 19 (B.lit 0xFF) ++ [B.lit (UInt8.ofNat (i % 256))]) ++
      B.cmac key (List.replicate 19 (B.lit 0xFF) ++ [B.lit (UInt8.ofNat (i % 256))])
  length : ∀ i, (frameBytes key i).length = 36
  /-- After round `i` the buffer is frame `i`. -/
  buffer : ∀ i, (SendState.before key (i + 1)).buffer = frameBytes key i
  fixed : ∀ i pos, pos < 19 →
    (SendState.before key (i + 1)).buffer[pos]? = (SendState.before key i).buffer[pos]?
  equal : ∀ i i', frameBytes key i = frameBytes key i' ↔ i ≡ i' [MOD 256]

theorem frameLayout (key : List B.Byte) : FrameLayout key := by
  refine ⟨?_, ?_, ?_, ?_, ?_⟩
  · intro i
    rfl
  · intro i
    exact length_frameBytes key i
  · intro i
    rw [SendState.before_eq, bufferBefore]
  · intro i pos inside
    have size : 19 < (SendState.before key i).buffer.length := by
      simp [SendState.before_eq, length_bufferBefore, kBufferSize, kCmacSize]
    have start := SendState.take_round (SendState.before key i) i size
    rw [← List.getElem?_take_of_lt inside, SendState.before, start,
      List.getElem?_take_of_lt inside]
  · exact frameBytes_eq_iff key

/-- A finished call has sent the frames before the first failure, in order, has
stopped there, and returns whether there was one. -/
structure SendsFrames (mq : Mqd) (key : List B.Byte) (n : ℕ) (pattern : ℕ → Bool)
    (t : List (Event (Op B) Op.Resp)) (p : Process B) : Prop where
  attempted : sends t = sentFrames mq key 0 (firstFailure pattern n) ++
    (if firstFailure pattern n = n then []
      else [⟨mq, frameBytes key (firstFailure pattern n), false⟩])
  queued : queued t =
    (List.range (firstFailure pattern n)).map fun i => (mq, frameBytes key i)
  status : ∃ status, p.prog = .ret status ∧ (status = kOK ↔ firstFailure pattern n = n)

/-- The messages that arrive are those of the calls that succeed. -/
theorem queued_of_sends {mq : Mqd} {key : List B.Byte} {j : ℕ} {lost : List (Send B)}
    {t : List (Event (Op B) Op.Resp)} (fails : ∀ s ∈ lost, s.sent = false)
    (sent : sends t = sentFrames mq key 0 j ++ lost) :
    queued t = (List.range j).map fun i => (mq, frameBytes key i) := by
  have arrived : (sentFrames mq key 0 j).filter Send.sent = sentFrames mq key 0 j := by
    rw [List.filter_eq_self]
    intro s inside
    obtain ⟨i, -, rfl⟩ := List.mem_map.mp inside
    rfl
  have dropped : lost.filter Send.sent = [] := by
    rw [List.filter_eq_nil_iff]
    intro s inside
    simp [fails s inside]
  rw [queued, sent, List.filter_append, arrived, dropped, List.append_nil, sentFrames,
    List.map_map, List.range_eq_range']
  rfl

/-- The results of the calls say where the first failure is. -/
theorem firstFailure_of_sends {mq : Mqd} {key : List B.Byte} {n j : ℕ}
    {pattern : ℕ → Bool} {lost : List (Send B)} {t : List (Event (Op B) Op.Resp)}
    (follows : Follows pattern t) (bound : j ≤ n)
    (sent : sends t = sentFrames mq key 0 j ++ lost)
    (fails : j < n → ∃ s, lost = [s] ∧ s.sent = false) : firstFailure pattern n = j := by
  have size : (sentFrames mq key 0 j).length = j := by simp [sentFrames]
  refine firstFailure_eq bound ?_ ?_
  · intro k earlier
    have there : (sends t)[k]? = some ⟨mq, frameBytes key k, true⟩ := by
      rw [sent, List.getElem?_append_left (by omega)]
      simp [sentFrames, earlier]
    exact (follows k _ there).symm
  · intro inside
    obtain ⟨s, rfl, failed⟩ := fails inside
    have there : (sends t)[j]? = some s := by
      rw [sent, List.getElem?_append_right (by omega), size, Nat.sub_self]
      rfl
    rw [← follows j s there, failed]

/-- **The exact output of the loop over the frames.** -/
theorem sendPeriodicMessage_frames (cfg : Config) (mq : Mqd) (mem : Mem B)
    (pattern : ℕ → Bool) :
    FrameLayout mem.symmetricKey ∧ (∃ t p, Finishes cfg mq mem pattern t p) ∧
      ∀ t p, Finishes cfg mq mem pattern t p →
        SendsFrames mq mem.symmetricKey cfg.numMessagesToSend pattern t p := by
  refine ⟨frameLayout _, exists_finishes cfg mq mem pattern, ?_⟩
  rintro t p ⟨run, keyed, follows, ended⟩
  obtain ⟨rfl, -⟩ | ⟨e, rfl, -⟩ | ⟨t, rfl, rounds⟩ := startSending_runs run
  · cases keyed
  · cases List.mem_singleton.mp keyed
  · obtain ⟨j, ⟨bound, sent, m, rfl⟩ | ⟨inside, sent, m, rfl⟩⟩ := framesAt_runs rounds
    · -- every frame has been sent
      have spent : cfg.numMessagesToSend - j = 0 := eq_zero_of_framesAt_ended ended
      have last : j = cfg.numMessagesToSend := by omega
      have all : sends t = sentFrames mq mem.symmetricKey 0 j ++ [] := by simp [sent]
      have first := firstFailure_of_sends follows bound all (by omega)
      refine ⟨?_, ?_, kOK, ?_, ?_⟩
      · rw [first, if_pos last]
        exact all
      · rw [first]
        exact queued_of_sends (by simp) all
      · rw [spent]
        rfl
      · rw [first]
        exact iff_of_true rfl last
    · -- frame `j` has not
      rw [Nat.zero_add] at sent
      have first := firstFailure_of_sends follows inside.le sent fun _ => ⟨_, rfl, rfl⟩
      refine ⟨?_, ?_, kNOT_OK, rfl, ?_⟩
      · rw [first, if_neg inside.ne]
        exact sent
      · rw [first]
        exact queued_of_sends (by simp) sent
      · rw [first]
        exact iff_of_false (by decide) inside.ne

end FrameRuns

end SecureComm
