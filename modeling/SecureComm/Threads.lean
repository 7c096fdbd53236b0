import Mathlib.Tactic.Common
import SecureComm.Channels
import SecureComm.ExitStatus

/-!
# One process among many

What a process does among others it could have done alone: `exists_thread` takes its run
out of the sessions', and an invariant of its points is kept whatever the others do, if
its own moves keep it (`sender_invariant`, `receiver_invariant`).
-/

namespace SecureComm

open Interaction MessageQueue

section Threads

variable {ι : Type} {B : Botan}

/-- How a call is answered over the kernel it can be over channels, if they hold what it
receives. -/
theorem Answered.exists_channels {K : Type} {Q : QueueService ι B K} {P : Policy ι B} {k : ι}
    {role : Role} {κ κ' : K} {op : Op B} {r : op.Resp} {recs : List (Rec ι B)}
    (answer : Answered Q P k role κ op r κ' recs) :
    ∃ ch ch', Answered (channelService ι B) P k role ch op r ch' recs := by
  cases answer with
  | mqOpen opens => exact ⟨fun _ => [], _, .mqOpen rfl⟩
  | mqOpenFails fails => exact ⟨fun _ => [], _, .mqOpenFails fails⟩
  | mqSend fits sends => exact ⟨fun _ => [], _, .mqSend fits rfl⟩
  | mqSendFails fails => exact ⟨fun _ => [], _, .mqSendFails fails⟩
  | @mqReceive κ' site mq e receives => exact ⟨fun _ => [e], _, .mqReceive ⟨[], rfl, rfl⟩⟩
  | mqReceiveFails fails => exact ⟨fun _ => [], _, .mqReceiveFails fails⟩
  | mqClose => exact ⟨fun _ => [], _, .mqClose⟩
  | mqUnlink unlinks => exact ⟨fun _ => [], _, .mqUnlink rfl⟩
  | cinGet pressed => exact ⟨fun _ => [], _, .cinGet pressed⟩
  | botan is answers => exact ⟨fun _ => [], _, .botan is answers⟩

variable [DecidableEq ι] [LT ι] {P : Policy ι B} {cfg : Config}
  {κ₀ : Kernel QueueName (Entry ι B)} {w : SessionsWorld ι B}

omit [DecidableEq ι] [LT ι] in
/-- Every process starts at the start of its program. -/
theorem sessionsStart_procs (k : ι) (role : Role) :
    (sessionsStart cfg κ₀).procs (k, role) = role.process cfg := by
  cases role <;> rfl

/-- The run of a process, from the start of its program. -/
theorem exists_thread (reach : (sessions P).Reachable (sessionsStart cfg κ₀) w) (k : ι)
    (role : Role) : ∃ t : List (Event (Op B) Op.Resp × List (Rec ι B)),
      Machine.Runs Proc.next (role.process cfg) (t.map Prod.fst) (w.procs (k, role)) ∧
      w.log (k, role) = t.flatMap Prod.snd ∧
      ∀ x ∈ t, ∃ κ κ', Answered (kernelService ι B) P k role κ x.1.1 x.1.2 κ' x.2 := by
  obtain ⟨t, run, log, answers⟩ := reach.exists_thread (k, role)
  rw [sessionsStart_procs] at run
  exact ⟨t, run, log, answers⟩

/-- **What every move of the sender keeps** holds wherever a sender is. -/
theorem sender_invariant {I : SenderPoint B → List (Rec ι B) → Prop} {k : ι}
    (start : I .openSR [])
    (keep : ∀ ch ch' pt pt' log recs, SenderMove cfg P k ch pt pt' ch' recs → I pt log →
      I pt' (log ++ recs))
    (reach : (sessions P).Reachable (sessionsStart cfg κ₀) w) :
    ∃ pt, pt.At cfg (w.procs (k, .sender)) ∧ I pt (w.log (k, .sender)) := by
  refine invariant reach
    (I := fun w => ∃ pt, pt.At cfg (w.procs (k, .sender)) ∧ I pt (w.log (k, .sender)))
    ⟨.openSR, senderProcess_at cfg, start⟩ ?_
  rintro w w' - ⟨pt, here, holds⟩ step
  cases step with
  | move intruded => exact ⟨pt, here, holds⟩
  | @act pid e p env recs may step answer =>
      by_cases mine : (k, Role.sender) = pid
      · subst mine
        obtain ⟨pt', next, there⟩ := (senderMain_bisimulation cfg).step_right here step
        obtain ⟨ch, ch', answer'⟩ := answer.exists_channels
        refine ⟨pt', by simpa using there, ?_⟩
        simpa using keep ch ch' pt pt' _ recs (senderMove_of_step next answer') holds
      · exact ⟨pt, by simpa [mine] using here, by simpa [mine] using holds⟩

/-- **What every move of the receiver keeps** holds wherever a receiver is. -/
theorem receiver_invariant {I : ReceiverPoint B → List (Rec ι B) → Prop} {k : ι}
    (start : I .openRS [])
    (keep : ∀ ch ch' pt pt' log recs, ReceiverMove cfg P k ch pt pt' ch' recs → I pt log →
      I pt' (log ++ recs))
    (reach : (sessions P).Reachable (sessionsStart cfg κ₀) w) :
    ∃ pt, pt.At cfg (w.procs (k, .receiver)) ∧ I pt (w.log (k, .receiver)) := by
  refine invariant reach
    (I := fun w => ∃ pt, pt.At cfg (w.procs (k, .receiver)) ∧ I pt (w.log (k, .receiver)))
    ⟨.openRS, receiverProcess_at cfg, start⟩ ?_
  rintro w w' - ⟨pt, here, holds⟩ step
  cases step with
  | move intruded => exact ⟨pt, here, holds⟩
  | @act pid e p env recs may step answer =>
      by_cases mine : (k, Role.receiver) = pid
      · subst mine
        obtain ⟨pt', next, there⟩ := (receiverMain_bisimulation cfg).step_right here step
        obtain ⟨ch, ch', answer'⟩ := answer.exists_channels
        refine ⟨pt', by simpa using there, ?_⟩
        simpa using keep ch ch' pt pt' _ recs (receiverMove_of_step next answer') holds
      · exact ⟨pt, by simpa [mine] using here, by simpa [mine] using holds⟩

end Threads

end SecureComm
