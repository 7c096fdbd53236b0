import SecureComm.Symbolic

/-!
# Taking messages apart

The attacker's derivations in a normal form.  `ComposeRule` has all of its rules but
decryption, and knowledge is `Opened` that holds whatever its private keys open.  From
opened knowledge nothing can be derived that cannot be composed (`derives_iff_composes`),
and a byte that was composed says from what.
-/

namespace SecureComm

open Deduction

/-- The rules that need no private key. -/
def ComposeRule (B : Botan) : Rules (Term B) :=
  fun premises t => AttackRule B premises t ∧ ∀ key, .privateKey key ∉ premises

section Composition

variable {known : Set (Term symbolicBotan)}

/-- A private key is known, or out of reach. -/
theorem privateKey_of_composed {pair : KeyPair}
    (h : Derives (ComposeRule symbolicBotan) known (.privateKey pair)) :
    .privateKey pair ∈ known := by
  cases h with
  | known h => exact h
  | apply rule all => nomatch rule.1

/-- A byte that is known, or a byte of something made from what can be composed. -/
inductive Composed (known : Set (Term symbolicBotan)) : SymByte → Prop
  | known {b : SymByte} (h : .byte b ∈ known) : Composed known b
  | lit (b : UInt8) : Composed known (.lit b)
  | publicKey (pair : KeyPair) (i : ℕ) : Composed known (.publicKey pair i)
  | tag {key : List SymByte} (data : List SymByte) (i : ℕ)
      (all : ∀ b ∈ key, Derives (ComposeRule symbolicBotan) known (.byte b)) :
      Composed known (.tag key data i)
  | cipher (pair : KeyPair) (seed : ℕ) {plaintext : List SymByte} (i : ℕ)
      (all : ∀ b ∈ plaintext, Derives (ComposeRule symbolicBotan) known (.byte b)) :
      Composed known (.cipher pair seed plaintext i)

/-- **A byte that was composed says from what.** -/
theorem composed_of_derives {b : SymByte}
    (h : Derives (ComposeRule symbolicBotan) known (.byte b)) : Composed known b := by
  cases h with
  | known h => exact .known h
  | apply rule all =>
      obtain ⟨rule, keyless⟩ := rule
      cases rule with
      | lit b => exact .lit b
      | subjectPublicKey h =>
          obtain ⟨i, -, rfl⟩ := List.mem_map.mp h
          exact .publicKey _ i
      | cmac h =>
          obtain ⟨i, -, rfl⟩ := List.mem_map.mp h
          exact .tag _ i fun b mem => all _ (.inl ⟨b, mem, rfl⟩)
      | encrypt encrypted h =>
          obtain rfl := SymByte.encrypt_eq_ok encrypted
          obtain ⟨i, -, rfl⟩ := List.mem_map.mp h
          exact .cipher _ _ i fun b mem => all _ ⟨b, mem, rfl⟩
      | decrypt decrypted h => exact absurd (Set.mem_insert _ _) (keyless _)

/-- Whatever its private keys open is in the knowledge. -/
def Opened (known : Set (Term symbolicBotan)) : Prop :=
  ∀ pair seed plaintext i, .privateKey pair ∈ known →
    .byte (.cipher pair seed plaintext i) ∈ known →
      bytesOf (B := symbolicBotan) plaintext ⊆ known

/-- **Opened knowledge leaves nothing to decrypt.** -/
theorem derives_iff_composes (opened : Opened known) {t : Term symbolicBotan} :
    Derives (AttackRule symbolicBotan) known t ↔
      Derives (ComposeRule symbolicBotan) known t := by
  constructor
  · refine Derives.admissible fun premises t rule all => ?_
    cases rule with
    | lit b => exact .apply ⟨.lit b, nofun⟩ all
    | subjectPublicKey h => exact .apply ⟨.subjectPublicKey h, nofun⟩ all
    | cmac h =>
        refine .apply ⟨.cmac h, ?_⟩ all
        rintro key (⟨b, -, ⟨⟩⟩ | ⟨b, -, ⟨⟩⟩)
    | encrypt encrypted h =>
        refine .apply ⟨.encrypt encrypted h, ?_⟩ all
        rintro key ⟨b, -, ⟨⟩⟩
    | @decrypt pair c plaintext b decrypted h =>
        have key := privateKey_of_composed (all _ (Set.mem_insert _ _))
        obtain ⟨seed, rfl⟩ := SymByte.decrypt_eq_ok decrypted
        obtain ⟨rest, shape⟩ := SymByte.ciphertext_eq_cons pair seed plaintext
        -- the ciphertext is known, or somebody who has the plaintext has made it
        have first := all (.byte (.cipher pair seed plaintext 0))
          (.inr ⟨_, by rw [shape]; exact List.mem_cons_self, rfl⟩)
        cases composed_of_derives first with
        | known heard => exact .known (opened pair seed plaintext 0 key heard ⟨b, h, rfl⟩)
        | cipher _ _ _ inner => exact inner b h
  · exact Derives.weaken fun premises t rule => rule.1

end Composition

end SecureComm
