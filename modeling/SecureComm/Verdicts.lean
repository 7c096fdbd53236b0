import SecureComm.BotanLaws
import SecureComm.ReceiveLoop

/-!
# What the receiver reports

Three results about whole streams of messages delivered to
`receive_periodic_messages`, each exact: when the verdict lines are the verdicts
of the tags, when the loop outlives everything a third party injects, and when
every range it reads lies inside the message.
-/

namespace SecureComm

open Interaction

section Verdicts

variable {B : Botan}

/-- `main`'s variables when `receive_periodic_messages` is called, nothing observed
yet. -/
def callerMem (pk : Option (PublicKey B.Pub)) (key : List B.Byte) : Mem B := ⟨pk, key, []⟩

/-- The run of `receive_periodic_messages` over a stream of messages ends in `p`. -/
def ReceivesTo (mq : Mqd) (pk : Option (PublicKey B.Pub)) (key : List B.Byte)
    (ms : List (Message B)) (p : Process B) : Prop :=
  Machine.Runs Proc.next (startReceiving mq (callerMem pk key)) (receiveTrace mq key ms) p

/-- The process waits in the loop's `mq_receive`. -/
def WaitsForMessage (mq : Mqd) (p : Process B) : Prop :=
  ∃ k, p.next = some ⟨.mqReceive .receivePeriodicMessages mq, k⟩

section Runs

variable {mq : Mqd} {pk : Option (PublicKey B.Pub)} {key : List B.Byte}
  {ms : List (Message B)}

/-- The process after a stream of messages that have room for a tag. -/
def receivedAll (mq : Mqd) (pk : Option (PublicKey B.Pub)) (key : List B.Byte)
    (ms : List (Message B)) : Process B :=
  loopAt mq (fun _ => .ret kOK) key (bufferAfter (initialBuffer B) ms)
    ((callerMem pk key).note (streamObs key (initialBuffer B) ms))

theorem receivesTo_receivedAll (long : ∀ m ∈ ms, kCmacSize ≤ m.val.length) :
    ReceivesTo mq pk key ms (receivedAll mq pk key ms) :=
  startReceiving_runs mq (callerMem pk key) ms long

/-- … and it is the only one. -/
theorem ReceivesTo.eq_receivedAll (long : ∀ m ∈ ms, kCmacSize ≤ m.val.length)
    {p : Process B} (run : ReceivesTo mq pk key ms p) : p = receivedAll mq pk key ms :=
  Machine.Runs.unique run (receivesTo_receivedAll long)

theorem waitsForMessage_receivedAll :
    WaitsForMessage mq (receivedAll mq pk key ms) := ⟨_, rfl⟩

theorem verdicts_receivedAll :
    verdicts (receivedAll mq pk key ms).mem.observed =
      ms.flatMap fun m => roundVerdicts (decide (TagMatches key m.val)) := by
  simp [receivedAll, loopAt, callerMem, verdicts_streamObs]

theorem comparisons_receivedAll :
    comparisons (receivedAll mq pk key ms).mem.observed =
      ms.map fun m => (m.val, decide (TagMatches key m.val)) := by
  simp [receivedAll, loopAt, callerMem, comparisons_streamObs]

/-- One message more. -/
theorem receivesTo_snoc_iff {m : Message B} {q : Process B}
    (long : ∀ m ∈ ms, kCmacSize ≤ m.val.length) :
    ReceivesTo mq pk key (ms ++ [m]) q ↔
      Machine.Step Proc.next (receivedAll mq pk key ms) (received mq (some m)) q := by
  have trace : receiveTrace mq key (ms ++ [m]) =
      receiveTrace mq key ms ++ [received mq (some m)] := by
    simp [receiveTrace]
  constructor
  · intro run
    rw [ReceivesTo, trace, Machine.runs_append_iff] at run
    obtain ⟨p, front, last⟩ := run
    rw [ReceivesTo.eq_receivedAll long front] at last
    cases last with
    | cons step rest => cases rest; exact step
  · intro step
    rw [ReceivesTo, trace]
    exact (receivesTo_receivedAll long).snoc step

end Runs

/-! ## Verdict lines -/

/-- The verdict a message deserves under a key. -/
def expectedVerdict (key : List B.Byte) (m : Message B) : Verdict :=
  if TagMatches key m.val then .succeeded else .failed

/-- The loop survives the stream and reports exactly one verdict for each message,
in order, each the one its tag deserves. -/
def VerdictsExact (mq : Mqd) (pk : Option (PublicKey B.Pub)) (key : List B.Byte)
    (ms : List (Message B)) : Prop :=
  ∃ p, ReceivesTo mq pk key ms p ∧ WaitsForMessage mq p ∧
    verdicts p.mem.observed = ms.map (expectedVerdict key)

/-- Every message gets a verdict, and a mismatched one gets two. -/
theorem length_le_length_flatMap_roundVerdicts (key : List B.Byte) (ms : List (Message B)) :
    ms.length ≤
      (ms.flatMap fun m => roundVerdicts (decide (TagMatches key m.val))).length := by
  induction ms with
  | nil => simp
  | cons m ms ih =>
      have here : 1 ≤ (roundVerdicts (decide (TagMatches key m.val))).length := by
        unfold roundVerdicts
        split <;> simp
      simp only [List.flatMap_cons, List.length_append, List.length_cons]
      omega

/-- **One verdict a message, and the right one, exactly when every tag matches.**
A mismatch is reported as a failure and then as a success: the second line is not
in an `else`. -/
theorem verdictsExact_iff (mq : Mqd) (pk : Option (PublicKey B.Pub)) (key : List B.Byte)
    (ms : List (Message B)) (long : ∀ m ∈ ms, kCmacSize ≤ m.val.length) :
    VerdictsExact mq pk key ms ↔ ∀ m ∈ ms, TagMatches key m.val := by
  have reported : VerdictsExact mq pk key ms ↔
      (ms.flatMap fun m => roundVerdicts (decide (TagMatches key m.val))) =
        ms.map (expectedVerdict key) := by
    constructor
    · rintro ⟨p, run, -, exact⟩
      rwa [run.eq_receivedAll long, verdicts_receivedAll] at exact
    · intro exact
      exact ⟨_, receivesTo_receivedAll long, waitsForMessage_receivedAll,
        verdicts_receivedAll.trans exact⟩
  rw [reported]
  clear reported long
  induction ms with
  | nil => simp
  | cons m ms ih =>
      rw [List.flatMap_cons, List.map_cons, List.forall_mem_cons]
      by_cases same : TagMatches key m.val
      · have one : roundVerdicts (decide (TagMatches key m.val)) = [.succeeded] := by
          simp [roundVerdicts, same]
        rw [one, expectedVerdict, if_pos same, List.singleton_append, List.cons_inj_right]
        exact ih.trans (and_iff_right same).symm
      · -- two lines for `m` leave one too many for the rest
        have two : roundVerdicts (decide (TagMatches key m.val)) =
            [.failed, .succeeded] := by
          simp [roundVerdicts, same]
        have longer := length_le_length_flatMap_roundVerdicts key ms
        refine iff_of_false (fun equal => ?_) (fun all => same all.1)
        have lengths := congrArg List.length equal
        rw [two] at lengths
        simp only [List.length_append, List.length_cons, List.length_nil,
          List.length_map] at lengths
        omega

/-- A message that is the tag of the empty payload under the sample key. -/
def tagOnly : Message sampleBotan := ⟨Sample.cmac Sample.sessionKey [], by decide⟩

/-- The first periodic frame under it. -/
def firstFrame : Message sampleBotan :=
  ⟨Sample.firstPayload ++ Sample.cmac Sample.sessionKey Sample.firstPayload, by decide⟩

/-- Sixteen zero bytes: an empty payload with a tag that is not its CMAC. -/
def zeroTag : Message sampleBotan := ⟨List.replicate 16 (0 : UInt8), by decide⟩

/-- A stream the receiver reports correctly, and the stream with a wrong tag in it. -/
theorem verdictsExact_iff_firstFrame :
    VerdictsExact (some 0) none sampleKey [firstFrame, tagOnly, firstFrame] ∧
      ¬ VerdictsExact (some 0) none sampleKey [firstFrame, zeroTag, tagOnly, firstFrame] := by
  constructor
  · exact (verdictsExact_iff (some 0) none sampleKey _ (by decide)).mpr (by decide)
  · rw [verdictsExact_iff (some 0) none sampleKey _ (by decide)]
    exact fun all => absurd (all zeroTag (by simp)) (by decide)

/-- **A wrong tag is reported as verified.** -/
theorem not_verdictsExact_of_wrong_tag :
    ¬ ∀ (key : List sampleBotan.Byte) (ms : List (Message sampleBotan)),
      (∀ m ∈ ms, kCmacSize ≤ m.val.length) → VerdictsExact (some 0) none key ms := by
  intro claim
  have long : ∀ m ∈ [zeroTag], kCmacSize ≤ m.val.length :=
    List.forall_mem_singleton.mpr (by decide)
  obtain ⟨p, run, -, exact⟩ := claim sampleKey [zeroTag] long
  have reported : verdicts p.mem.observed = [.failed, .succeeded] := by
    have wrong : decide (TagMatches sampleKey zeroTag.val) =
        false := by decide
    rw [run.eq_receivedAll long, verdicts_receivedAll, List.flatMap_cons, wrong]
    rfl
  rw [reported] at exact
  exact absurd (congrArg List.length exact) (by simp)

/-! ## Injected messages -/

/-- A delivered message, and whether a third party put it on the queue. -/
structure Delivery (B : Botan) where
  injected : Bool
  message : Message B

/-- The stream the loop receives. -/
def messagesOf (w : List (Delivery B)) : List (Message B) := w.map Delivery.message

/-- The stream without the injections. -/
def honestOf (w : List (Delivery B)) : List (Delivery B) := w.filter fun d => !d.injected

/-- The comparisons made on the honest messages of a stream, given all of them. -/
def honestComparisons (w : List (Delivery B)) (made : List (List B.Byte × Bool)) :
    List (List B.Byte × Bool) :=
  ((w.zip made).filter fun x => !x.1.injected).map Prod.snd

/-- The loop outlives the stream: it goes on after every delivered message, the
honest ones are compared as they would have been without the injections, and it
ends when `mq_receive` fails. -/
structure Unsilenced (mq : Mqd) (pk : Option (PublicKey B.Pub)) (key : List B.Byte)
    (w : List (Delivery B)) : Prop where
  goesOn : ∀ u, u <+: w → ∃ p, ReceivesTo mq pk key (messagesOf u) p ∧ WaitsForMessage mq p
  comparedAlike : ∃ p p', ReceivesTo mq pk key (messagesOf w) p ∧
    ReceivesTo mq pk key (messagesOf (honestOf w)) p' ∧
    honestComparisons w (comparisons p.mem.observed) = comparisons p'.mem.observed
  endsOnFailure : ∀ u p, u <+: w → ReceivesTo mq pk key (messagesOf u) p →
    ∃ q, Machine.Step Proc.next p (received mq none) q ∧ q.prog = .ret kOK

/-- What a third party can inject, next to honest messages that carry a tag. -/
def Deliverable (d : Delivery B) : Prop :=
  kCmacSize ≤ d.message.val.length ∨ d.injected = true ∧ d.message.val = []

section Injection

variable {mq : Mqd} {pk : Option (PublicKey B.Pub)} {key : List B.Byte}
  {w : List (Delivery B)}

/-- Comparing a stream message by message and keeping the honest ones is comparing
the honest ones. -/
theorem honestComparisons_messagesOf (f : Message B → List B.Byte × Bool) :
    honestComparisons w ((messagesOf w).map f) = (messagesOf (honestOf w)).map f := by
  induction w with
  | nil => rfl
  | cons d w ih =>
      simp only [honestComparisons, messagesOf, honestOf, List.map_cons,
        List.zip_cons_cons] at ih ⊢
      cases third : d.injected with
      | true => simpa [third] using ih
      | false => simpa [third] using ih

/-- A message of length zero ends the loop as a failed `mq_receive` does. -/
theorem not_waitsForMessage_of_empty {m : Message B} {p : Process B}
    {ms : List (Message B)} (empty : m.val = [])
    (step : Machine.Step Proc.next (receivedAll mq pk key ms) (received mq (some m)) p) :
    ¬ WaitsForMessage mq p := by
  have nothing : ¬ receivedBytes (some m) > 0 := by simp [receivedBytes, empty]
  have ended := loopAt_step_break mq (fun _ => .ret kOK) key
    (bufferAfter (initialBuffer B) ms)
    ((callerMem pk key).note (streamObs key (initialBuffer B) ms)) nothing
  rw [step.unique ended]
  rintro ⟨k, waiting⟩
  cases waiting

/-- If the loop goes on after every prefix, every message had room for a tag. -/
theorem long_of_goesOn (deliverable : ∀ d ∈ w, Deliverable d)
    (goesOn : ∀ u, u <+: w →
      ∃ p, ReceivesTo mq pk key (messagesOf u) p ∧ WaitsForMessage mq p) :
    ∀ m ∈ messagesOf w, kCmacSize ≤ m.val.length := by
  induction w using List.reverseRecOn with
  | nil => simp [messagesOf]
  | append_singleton u d ih =>
      have front := ih (fun d' inside => deliverable d' (by simp [inside]))
        fun v pre => goesOn v (pre.trans (List.prefix_append u [d]))
      obtain ⟨p, run, waits⟩ := goesOn (u ++ [d]) (List.prefix_refl _)
      have split : messagesOf (u ++ [d]) = messagesOf u ++ [d.message] := by
        simp [messagesOf]
      rw [split] at run ⊢
      have last := (receivesTo_snoc_iff front).mp run
      obtain long | ⟨-, empty⟩ := deliverable d (by simp)
      · intro m inside
        rcases List.mem_append.mp inside with before | here
        · exact front m before
        · rwa [List.mem_singleton.mp here]
      · exact absurd waits (not_waitsForMessage_of_empty empty last)

/-- If every message has room for a tag, the loop outlives the stream. -/
theorem unsilenced_of_long (long : ∀ m ∈ messagesOf w, kCmacSize ≤ m.val.length) :
    Unsilenced mq pk key w := by
  have prefixLong : ∀ u, u <+: w → ∀ m ∈ messagesOf u, kCmacSize ≤ m.val.length := by
    intro u pre m inside
    exact long m ((pre.map Delivery.message).subset inside)
  have honestLong : ∀ m ∈ messagesOf (honestOf w), kCmacSize ≤ m.val.length := by
    intro m inside
    exact long m ((List.filter_sublist.map Delivery.message).subset inside)
  refine ⟨?_, ?_, ?_⟩
  · intro u pre
    exact ⟨_, receivesTo_receivedAll (prefixLong u pre), waitsForMessage_receivedAll⟩
  · refine ⟨_, _, receivesTo_receivedAll long, receivesTo_receivedAll honestLong, ?_⟩
    rw [comparisons_receivedAll, comparisons_receivedAll, honestComparisons_messagesOf]
  · intro u p pre run
    rw [run.eq_receivedAll (prefixLong u pre)]
    exact ⟨_, loopAt_step_break mq _ key _ _ (by simp [receivedBytes]), rfl⟩

end Injection

/-- **The loop outlives injected messages exactly when none of them is empty.** -/
theorem unsilenced_iff (mq : Mqd) (pk : Option (PublicKey B.Pub)) (key : List B.Byte)
    (w : List (Delivery B)) (deliverable : ∀ d ∈ w, Deliverable d) :
    Unsilenced mq pk key w ↔ ∀ d ∈ w, d.injected = true → d.message.val ≠ [] := by
  constructor
  · intro outlives d inside _ empty
    have long := long_of_goesOn deliverable outlives.goesOn d.message
      (List.mem_map_of_mem inside)
    simp [empty, kCmacSize] at long
  · intro nonempty
    refine unsilenced_of_long fun m inside => ?_
    obtain ⟨d, there, rfl⟩ := List.mem_map.mp inside
    obtain long | ⟨injected, empty⟩ := deliverable d there
    · exact long
    · exact absurd empty (nonempty d there injected)

/-- An injected message with a tag, one without, one of length zero, -/
def injectedTagOnly : Delivery sampleBotan := ⟨true, tagOnly⟩

def injectedZeroTag : Delivery sampleBotan := ⟨true, zeroTag⟩

def injectedEmpty : Delivery sampleBotan := ⟨true, ⟨[], by decide⟩⟩

/-- and an honest frame. -/
def honestFrame : Delivery sampleBotan := ⟨false, firstFrame⟩

/-- A stream with injections before honest frames, which the loop outlives, and the
same stream with an empty injection, which it does not. -/
theorem unsilenced_iff_injectedZeroTag :
    Unsilenced (some 0) none sampleKey
        [injectedZeroTag, honestFrame, injectedTagOnly, honestFrame] ∧
      ¬ Unsilenced (some 0) none sampleKey
        [injectedZeroTag, honestFrame, injectedEmpty, honestFrame] := by
  constructor
  · refine (unsilenced_iff (some 0) none sampleKey _ ?_).mpr (by decide)
    simp only [List.forall_mem_cons, Deliverable]
    exact ⟨.inl (by decide), .inl (by decide), .inl (by decide), .inl (by decide), by simp⟩
  · rw [unsilenced_iff (some 0) none sampleKey _ ?_]
    · exact fun nonempty => nonempty injectedEmpty (by simp) rfl rfl
    · simp only [List.forall_mem_cons, Deliverable]
      exact ⟨.inl (by decide), .inl (by decide), .inr ⟨rfl, rfl⟩, .inl (by decide), by simp⟩

/-- **An injected message of length zero silences the receiver.** -/
theorem not_unsilenced_of_empty :
    ¬ ∀ (key : List sampleBotan.Byte) (w : List (Delivery sampleBotan)),
      (∀ d ∈ w, Deliverable d) → Unsilenced (some 0) none key w := by
  intro claim
  have deliverable : ∀ d ∈ [injectedEmpty], Deliverable d :=
    List.forall_mem_singleton.mpr (Or.inr ⟨rfl, rfl⟩)
  have long := long_of_goesOn deliverable (claim sampleKey [injectedEmpty] deliverable).goesOn
    injectedEmpty.message (by simp [messagesOf])
  exact absurd long (by decide)

/-! ## Splitting a message -/

/-- The ranges read between two states of a process. -/
def newAccesses (p q : Process B) : List Access :=
  (accesses q.mem.observed).drop (accesses p.mem.observed).length

/-- A round on a message reads nothing outside its vectors and has defined
behaviour; and if the message has room for a tag, what is given to `update` and
what is compared with the result are the two parts of the message. -/
structure SplitExact (key : List B.Byte) (p q : Process B) (m : Message B) : Prop where
  inRange : ∀ a ∈ newAccesses p q, a.InRange
  defined : ∀ f, q.prog ≠ .undef f
  parts : kCmacSize ≤ m.val.length → ∃ payload tag, m.val = payload ++ tag ∧
    tag.length = kCmacSize ∧
    newAccesses p q = [⟨.tempVec, 0, m.val.length, kMessageSize⟩,
      ⟨.receivedCmac, payload.length, m.val.length, m.val.length⟩,
      ⟨.macUpdate, 0, payload.length, m.val.length⟩] ∧
    comparisons q.mem.observed = comparisons p.mem.observed ++
      [(m.val, decide (tag = B.cmac key payload))]

/-- Every message of the stream is split exactly, whatever came before it. -/
def SplitsExactly (mq : Mqd) (pk : Option (PublicKey B.Pub)) (key : List B.Byte)
    (ms : List (Message B)) : Prop :=
  ∀ hs m, hs ++ [m] <+: ms → ∃ p q, ReceivesTo mq pk key hs p ∧
    Machine.Step Proc.next p (received mq (some m)) q ∧ SplitExact key p q m

section Splitting

variable {mq : Mqd} {pk : Option (PublicKey B.Pub)} {key : List B.Byte}
  {ms : List (Message B)}

theorem length_bufferAfter {buffer : List B.Byte} (h : buffer.length = kMessageSize)
    (ms : List (Message B)) : (bufferAfter buffer ms).length = kMessageSize := by
  induction ms generalizing buffer with
  | nil => exact h
  | cons m ms ih => exact ih (length_receiveInto h m)

theorem splitExact_of_long {m : Message B} (long : kCmacSize ≤ m.val.length)
    {q : Process B}
    (step : Machine.Step Proc.next (receivedAll mq pk key ms) (received mq (some m)) q) :
    SplitExact key (receivedAll mq pk key ms) q m := by
  have size : (receiveInto (bufferAfter (initialBuffer B) ms) m).length = kMessageSize :=
    length_receiveInto (length_bufferAfter (by simp [initialBuffer]) ms) m
  have bound := m.property
  have payload : (payloadOf m.val).length = m.val.length - kCmacSize := by
    simp [payloadOf]
  have round := loopAt_step_long mq (fun _ => .ret kOK) key
    (bufferAfter (initialBuffer B) ms)
    ((callerMem pk key).note (streamObs key (initialBuffer B) ms)) m long
  have next := step.unique round
  have read : newAccesses (receivedAll mq pk key ms) q =
      [⟨.tempVec, 0, m.val.length, kMessageSize⟩,
        ⟨.receivedCmac, (payloadOf m.val).length, m.val.length, m.val.length⟩,
        ⟨.macUpdate, 0, (payloadOf m.val).length, m.val.length⟩] := by
    rw [next]
    simp only [newAccesses, receivedAll, loopAt, Mem.note_observed, accesses_append,
      List.drop_left, accesses_roundObs, size, toSizeT_sub_kCmacSize long bound, payload,
      Int.ofNat_sub long]
  refine ⟨?_, ?_, ?_⟩
  · intro a inside
    rw [read] at inside
    simp only [List.mem_cons, List.not_mem_nil, or_false] at inside
    rcases inside with rfl | rfl | rfl
    · simpa [Access.InRange] using bound
    · simp [Access.InRange, payload]
    · simp [Access.InRange, payload]
  · intro f
    rw [next]
    simp [loopAt]
  · intro _
    refine ⟨payloadOf m.val, tagOf m.val, (payloadOf_append_tagOf _).symm,
      length_tagOf long, read, ?_⟩
    rw [next]
    simp only [receivedAll, loopAt, Mem.note_observed, comparisons_append,
      comparisons_roundObs]
    rfl

theorem not_splitExact_of_short {m : Message B} (positive : 0 < m.val.length)
    (short : m.val.length < kCmacSize) {q : Process B}
    (step : Machine.Step Proc.next (receivedAll mq pk key ms) (received mq (some m)) q) :
    ¬ SplitExact key (receivedAll mq pk key ms) q m := by
  have round := loopAt_step_short mq (fun _ => .ret kOK) key
    (bufferAfter (initialBuffer B) ms)
    ((callerMem pk key).note (streamObs key (initialBuffer B) ms)) m positive short
  rw [step.unique round]
  exact fun exact => exact.defined _ rfl

/-- If every message is split exactly, every one had room for a tag. -/
theorem long_of_splitsExactly (positive : ∀ m ∈ ms, 0 < m.val.length)
    (splits : SplitsExactly mq pk key ms) : ∀ m ∈ ms, kCmacSize ≤ m.val.length := by
  induction ms using List.reverseRecOn with
  | nil => simp
  | append_singleton hs m ih =>
      have front := ih (fun m' inside => positive m' (by simp [inside]))
        fun us m' pre => splits us m' (pre.trans (List.prefix_append hs [m]))
      obtain ⟨p, q, run, step, exact⟩ := splits hs m (List.prefix_refl _)
      rw [run.eq_receivedAll front] at step exact
      have here : kCmacSize ≤ m.val.length := by
        by_contra short
        exact not_splitExact_of_short (positive m (by simp)) (by omega) step exact
      intro m' inside
      rcases List.mem_append.mp inside with before | last
      · exact front m' before
      · rwa [List.mem_singleton.mp last]

end Splitting

/-- **Every message is split inside its bounds exactly when each has room for a
tag.** -/
theorem splitsExactly_iff (mq : Mqd) (pk : Option (PublicKey B.Pub)) (key : List B.Byte)
    (ms : List (Message B)) (positive : ∀ m ∈ ms, 0 < m.val.length) :
    SplitsExactly mq pk key ms ↔ ∀ m ∈ ms, kCmacSize ≤ m.val.length := by
  constructor
  · exact long_of_splitsExactly positive
  · intro long hs m pre
    have front : ∀ m' ∈ hs, kCmacSize ≤ m'.val.length := fun m' inside =>
      long m' (pre.subset (by simp [inside]))
    have here : kCmacSize ≤ m.val.length := long m (pre.subset (by simp))
    have step := loopAt_step mq (fun _ => .ret kOK) key (bufferAfter (initialBuffer B) hs)
      ((callerMem pk key).note (streamObs key (initialBuffer B) hs)) (some m)
    exact ⟨_, _, receivesTo_receivedAll front, step, splitExact_of_long here step⟩

/-- A message of one byte. -/
def oneByte : Message sampleBotan := ⟨[(0 : UInt8)], Nat.le_of_ble_eq_true rfl⟩

/-- A stream with a history and payloads, split inside its bounds, and one that runs
out of them after such a history. -/
theorem splitsExactly_iff_firstFrame :
    SplitsExactly (some 0) none sampleKey [firstFrame, tagOnly, firstFrame] ∧
      ¬ SplitsExactly (some 0) none sampleKey [firstFrame, tagOnly, oneByte] := by
  constructor
  · exact (splitsExactly_iff (some 0) none sampleKey _ (by decide)).mpr (by decide)
  · rw [splitsExactly_iff (some 0) none sampleKey _ (by decide)]
    exact fun long => absurd (long oneByte (by simp)) (by decide)

/-- **A one-byte message is read outside its bounds.** -/
theorem not_splitsExactly_of_oneByte :
    ¬ ∀ (key : List sampleBotan.Byte) (ms : List (Message sampleBotan)),
      (∀ m ∈ ms, 0 < m.val.length) → SplitsExactly (some 0) none key ms := by
  intro claim
  have positive : ∀ m ∈ [oneByte], 0 < m.val.length :=
    List.forall_mem_singleton.mpr (by decide)
  have long := long_of_splitsExactly positive (claim sampleKey [oneByte] positive) oneByte
    (by simp)
  exact absurd long (by decide)

end Verdicts

end SecureComm
