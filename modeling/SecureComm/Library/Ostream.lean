import Mathlib.Data.Nat.Digits.Lemmas

/-!
# Text streams with sticky format

Output streams in the manner of iostreams.  Base, case and fill stay as a manipulator
sets them; the width is used up by the next insertion.  A function that inserts under a
format of its own can therefore change how everything after it is written.  `showbase` and
`adjustfield` are not in the model: they are as a stream is constructed, no base shown and
the padding on the left.

`Writes f cs` says that `f` does not: from any plain stream it appends `cs` and leaves a
plain stream.  Its rules follow how such functions are put together.
-/

namespace Iostream

/-! ## Streams -/

/-- `std::dec` and `std::hex`. -/
inductive Base
  | dec
  | hex
  deriving DecidableEq

def Base.radix : Base → ℕ
  | .dec => 10
  | .hex => 16

/-- The format of a stream, and what it has been given. -/
structure Ostream where
  base : Base
  uppercase : Bool
  width : ℕ
  fill : Char
  text : List Char

/-- A digit, in the case asked for. -/
def digitChar (uppercase : Bool) (d : ℕ) : Char :=
  if uppercase then (Nat.digitChar d).toUpper else Nat.digitChar d

/-- A number in a base, the most significant digit first. -/
def numeral (b : ℕ) (uppercase : Bool) (n : ℕ) : List Char :=
  if n = 0 then [digitChar uppercase 0] else (b.digits n).reverse.map (digitChar uppercase)

namespace Ostream

variable (s : Ostream)

/-- A stream as it is constructed. -/
def fresh : Ostream := ⟨.dec, false, 0, ' ', []⟩

/-- The manipulators. -/
def setBase (base : Base) : Ostream := { s with base := base }

def setUppercase : Ostream := { s with uppercase := true }

def setw (n : ℕ) : Ostream := { s with width := n }

def setfill (c : Char) : Ostream := { s with fill := c }

/-- An insertion pads on the left and uses the width up. -/
def insert (cs : List Char) : Ostream :=
  { s with width := 0, text := s.text ++ cs.leftpad s.width s.fill }

def insertText (t : String) : Ostream := s.insert t.toList

/-- An unsigned number, as the format says. -/
def insertNat (n : ℕ) : Ostream := s.insert (numeral s.base.radix s.uppercase n)

@[simp] theorem setBase_width (base : Base) : (s.setBase base).width = s.width := rfl

@[simp] theorem setBase_base (base : Base) : (s.setBase base).base = base := rfl

@[simp] theorem setBase_text (base : Base) : (s.setBase base).text = s.text := rfl

@[simp] theorem insert_base (cs : List Char) : (s.insert cs).base = s.base := rfl

@[simp] theorem insert_width (cs : List Char) : (s.insert cs).width = 0 := rfl

theorem insert_text (cs : List Char) :
    (s.insert cs).text = s.text ++ cs.leftpad s.width s.fill := rfl

/-- Nothing is padded where no width is set. -/
theorem insert_text_of_width {s : Ostream} (none : s.width = 0) (cs : List Char) :
    (s.insert cs).text = s.text ++ cs := by
  simp [insert_text, List.leftpad, none]

/-- Numbers are written in decimal, and nothing is padded. -/
structure Plain (s : Ostream) : Prop where
  base : s.base = .dec
  width : s.width = 0

theorem plain_fresh : fresh.Plain := ⟨rfl, rfl⟩

end Ostream

/-! ## What a function writes -/

/-- From any plain stream `f` appends `cs`, and leaves a plain stream. -/
def Writes (f : Ostream → Ostream) (cs : List Char) : Prop :=
  ∀ s, s.Plain → (f s).Plain ∧ (f s).text = s.text ++ cs

namespace Writes

variable {f g : Ostream → Ostream} {cs cs' : List Char}

/-- Nothing. -/
theorem id : Writes (fun s => s) [] := fun s plain => ⟨plain, by simp⟩

/-- A text. -/
theorem text (t : String) : Writes (fun s => s.insertText t) t.toList := fun _ plain =>
  ⟨⟨plain.base, rfl⟩, Ostream.insert_text_of_width plain.width _⟩

/-- A number, in decimal whatever the case of the digits. -/
theorem nat (n : ℕ) : Writes (fun s => s.insertNat n) (numeral 10 false n) := by
  intro s plain
  have decimal : numeral 10 s.uppercase n = numeral 10 false n := by
    have digit : ∀ d, d < 10 → digitChar true d = digitChar false d := by decide
    cases s.uppercase with
    | false => rfl
    | true =>
        unfold numeral
        split_ifs with zero
        · rfl
        · refine List.map_congr_left fun d inside => digit d ?_
          exact Nat.digits_lt_base (by decide) (List.mem_reverse.mp inside)
  refine ⟨⟨plain.base, rfl⟩, ?_⟩
  have inserted := Ostream.insert_text_of_width plain.width (numeral 10 s.uppercase n)
  rw [decimal] at inserted
  simpa only [Ostream.insertNat, plain.base, Base.radix, decimal] using inserted

/-- One thing after another. -/
theorem comp (first : Writes f cs) (second : Writes g cs') :
    Writes (fun s => g (f s)) (cs ++ cs') := by
  intro s plain
  obtain ⟨plain', text⟩ := first s plain
  obtain ⟨plain'', text'⟩ := second (f s) plain'
  exact ⟨plain'', by rw [text', text, List.append_assoc]⟩

/-- A list of things. -/
theorem foldl {α : Type} {f : α → Ostream → Ostream} {text : α → List Char}
    (each : ∀ a, Writes (f a) (text a)) (as : List α) :
    Writes (fun s => as.foldl (fun s a => f a s) s) (as.flatMap text) := by
  induction as with
  | nil => exact id
  | cons a as ih => exact (each a).comp ih

end Writes

/-- Lines that end in a separator they do not hold are got back by splitting. -/
theorem splitOn_flatMap {α : Type} [DecidableEq α] {sep : α} {lines : List (List α)}
    (free : ∀ line ∈ lines, sep ∉ line) :
    (lines.flatMap fun line => line ++ [sep]).splitOn sep = lines ++ [[]] := by
  induction lines with
  | nil => rfl
  | cons line lines ih =>
      have rest := ih fun line' inside => free line' (List.mem_cons_of_mem _ inside)
      rw [List.flatMap_cons, List.append_assoc, List.singleton_append,
        List.splitOn_append_cons_self_of_not_mem (free line List.mem_cons_self), rest,
        List.cons_append]

/-! ## Numbers of a fixed width -/

section Padded

variable {b w n : ℕ}

/-- A number with room to spare is padded with zeros to its width. -/
theorem leftpad_numeral (uppercase : Bool) (base : 1 < b) (room : 0 < w) (fits : n < b ^ w) :
    (numeral b uppercase n).leftpad w (digitChar uppercase 0) =
      (b.digitsAppend w n).reverse.map (digitChar uppercase) := by
  have size : (b.digits n).length ≤ w := (Nat.digits_length_le_iff base n).mpr fits
  by_cases zero : n = 0
  · subst zero
    obtain ⟨v, rfl⟩ : ∃ v, w = v + 1 := ⟨w - 1, by omega⟩
    simp [numeral, List.leftpad, Nat.digitsAppend, List.replicate_succ,
      ← List.replicate_succ']
  · simp [numeral, List.leftpad, Nat.digitsAppend, zero]

/-- Two digits are the quotient and the remainder. -/
theorem digitsAppend_two (base : 1 < b) (fits : n < b ^ 2) :
    b.digitsAppend 2 n = [n % b, n / b] := by
  have low : n % b < b := Nat.mod_lt _ (by omega)
  have high : n / b < b := Nat.div_lt_of_lt_mul (by rwa [← Nat.pow_two])
  have value : Nat.ofDigits b [n % b, n / b] = n := by
    simp [Nat.ofDigits_cons, Nat.mod_add_div]
  refine Nat.injOn_ofDigits base 2 (Nat.mapsTo_digitsAppend base 2 fits) ⟨rfl, ?_⟩ ?_
  · simp [low, high]
  · rw [value]
    exact (Nat.setInvOn_digitsAppend_ofDigits base 2).2 fits

/-- The value of a digit written in upper case. -/
def digitValue (c : Char) : Option ℕ := (List.range 16).find? fun d => digitChar true d = c

theorem digitChar_ne_newline (uppercase : Bool) {d : ℕ} (small : d < 16) :
    digitChar uppercase d ≠ '\n' := by
  revert d uppercase
  decide

theorem newline_notMem_numeral (n : ℕ) : '\n' ∉ numeral 10 false n := by
  unfold numeral
  split_ifs with zero
  · decide
  · intro inside
    obtain ⟨d, digit, is⟩ := List.mem_map.mp inside
    have small : d < 10 := Nat.digits_lt_base (by decide) (List.mem_reverse.mp digit)
    exact digitChar_ne_newline false (by omega) is

theorem digitValue_digitChar {d : ℕ} (small : d < 16) :
    digitValue (digitChar true d) = some d := by
  revert d
  decide

end Padded

end Iostream
