import Mathlib.Data.List.Basic
import SecureComm.Sender

/-!
# The frames of send_periodic_message

The loop rewrites one buffer in place: the counter byte is set while the tag of
the frame before is still behind it, and the new tag overwrites that one.  The
loop invariant `bufferBefore` says what the buffer holds when a round starts, and
`sendLoop_succ` is a round with the buffer in that shape.
-/

namespace SecureComm

open Interaction

section Frames

variable {B : Botan}

/-- The payload of frame `i`: nineteen bytes 0xFF and the counter byte. -/
def framePayload (i : ℕ) : List B.Byte :=
  List.replicate 19 (B.lit 0xFF) ++ [B.lit (UInt8.ofNat (i % 256))]

/-- Frame `i` under a key: the payload and its CMAC. -/
def frameBytes (key : List B.Byte) (i : ℕ) : List B.Byte :=
  framePayload i ++ B.cmac key (framePayload i)

/-- The buffer when round `i` starts: as declared, and later the frame before. -/
def bufferBefore (key : List B.Byte) : ℕ → List B.Byte
  | 0 => List.replicate (kBufferSize + kCmacSize) (B.lit 0xFF)
  | i + 1 => frameBytes key i

@[simp] theorem length_framePayload (i : ℕ) :
    (framePayload (B := B) i).length = kBufferSize := by
  simp [framePayload, kBufferSize]

@[simp] theorem length_frameBytes (key : List B.Byte) (i : ℕ) :
    (frameBytes key i).length = kBufferSize + kCmacSize := by
  simp [frameBytes, B.cmac_length]

theorem length_frameBytes_le (key : List B.Byte) (i : ℕ) :
    (frameBytes key i).length ≤ kMessageSize := by
  simp [kBufferSize, kCmacSize, kMessageSize]

theorem length_bufferBefore (key : List B.Byte) (i : ℕ) :
    (bufferBefore key i).length = kBufferSize + kCmacSize := by
  cases i with
  | zero => simp [bufferBefore]
  | succ i => simp [bufferBefore]

/-- The first 19 bytes are never changed. -/
theorem take_bufferBefore (key : List B.Byte) (i : ℕ) :
    (bufferBefore key i).take 19 = List.replicate 19 (B.lit 0xFF) := by
  cases i with
  | zero => simp [bufferBefore, kBufferSize, kCmacSize]
  | succ i => simp [bufferBefore, frameBytes, framePayload]

/-- Setting the counter makes the payload of this round, whatever tag the buffer
still holds. -/
theorem take_setCounter (key : List B.Byte) (i : ℕ) :
    (setCounter (bufferBefore key i) i).take kBufferSize = framePayload i := by
  have size : 19 < (bufferBefore key i).length := by
    simp [length_bufferBefore, kBufferSize, kCmacSize]
  have start := take_bufferBefore key i
  rw [setCounter, List.set_eq_take_append_cons_drop, if_pos size, start, framePayload,
    kBufferSize]
  simp

/-- Copying the tag behind it completes the frame. -/
theorem copyTo_setCounter (key : List B.Byte) (i : ℕ) :
    copyTo (setCounter (bufferBefore key i) i) kBufferSize
      (B.cmac key (framePayload i)) = frameBytes key i := by
  have size : (setCounter (bufferBefore key i) i).length = kBufferSize + kCmacSize := by
    simp [setCounter, length_bufferBefore]
  rw [copyTo, take_setCounter, B.cmac_length, List.drop_eq_nil_of_le (by omega)]
  simp [frameBytes]

/-- **A round of the loop** sends the frame of its index and leaves it in the
buffer. -/
theorem sendLoop_succ (mq : Mqd) (key : List B.Byte) (n i : ℕ) :
    sendLoop mq (n + 1) i (bufferBefore key i) ⟨key, []⟩ =
      (mqSend .sendPeriodicMessage mq (frameBytes key i)).bind (fun
        | false => do
            print (.perror "mq_send")
            return kNOT_OK
        | true => do
            print (.sentPeriodic (frameBytes key i).length i)
            print (.hex "[Sender]" (frameBytes key i))
            sendLoop mq n (i + 1) (bufferBefore key (i + 1)) ⟨key, []⟩) := by
  have frame : copyTo (setCounter (bufferBefore key i) i) kBufferSize
      ((B.cmac key ((setCounter (bufferBefore key i) i).take kBufferSize)).take
        kCmacSize) = frameBytes key i := by
    rw [take_setCounter, List.take_of_length_le (by simp [B.cmac_length]),
      copyTo_setCounter]
  simp only [sendLoop, Mac.update, Mac.final, List.nil_append, Prog.bind_eq]
  rw [frame]
  rfl

/-- The sender's frames carry the tag the receiver looks for. -/
theorem frameBytes_split (key : List B.Byte) (i : ℕ) :
    (frameBytes key i).take ((frameBytes key i).length - kCmacSize) = framePayload i ∧
      (frameBytes key i).drop ((frameBytes key i).length - kCmacSize) =
        B.cmac key (framePayload i) := by
  have size : (frameBytes key i).length - kCmacSize = (framePayload (B := B) i).length := by
    simp
  rw [size, frameBytes, List.take_left, List.drop_left]
  exact ⟨rfl, rfl⟩

end Frames

end SecureComm
