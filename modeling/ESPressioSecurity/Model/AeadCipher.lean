import ESPressioSecurity.Model.SecurityTypes
import ESPressioSecurity.Framework.KeyedTable

namespace ESPressioSecurity

open Framework

/-- What `Seal` returns and leaves in the ciphertext and tag storage handed to it. -/
structure SealOutcome (ciphertextCapacity tagCapacity : Nat) where
  ok : Bool
  ciphertext : Block ciphertextCapacity
  tag : Block tagCapacity

/-- What `Open` returns and leaves in the plaintext storage, also when it returns false. -/
structure OpenOutcome (plaintextCapacity : Nat) where
  ok : Bool
  plaintext : Block plaintextCapacity

/-- An implementation of `IAeadCipher`. Both callers hand `Seal` ciphertext storage of the
plaintext's size and `Open` plaintext storage of the ciphertext's size. -/
structure IAeadCipher where
  algorithm : AeadAlgorithm
  keySize : Nat
  nonceSize : Nat
  tagSize : Nat
  aeadSeal : (key nonce aad plaintext : Bytes) → (tagCapacity : Nat) →
    SealOutcome plaintext.length tagCapacity
  aeadOpen : (key nonce aad ciphertext tag : Bytes) → OpenOutcome ciphertext.length

/-- `AeadCipherRegistry`: registrations searched front to back, one for each algorithm. -/
structure AeadCipherRegistry where
  ciphers : List IAeadCipher
  distinct : KeyedTable.Distinct IAeadCipher.algorithm ciphers

namespace AeadCipherRegistry

def empty : AeadCipherRegistry := ⟨[],List.nodup_nil⟩

def find (r : AeadCipherRegistry) (algorithm : AeadAlgorithm) : Option IAeadCipher :=
  KeyedTable.lookup IAeadCipher.algorithm algorithm r.ciphers

def register (r : AeadCipherRegistry) (cipher : IAeadCipher) : Bool×AeadCipherRegistry :=
  match h : r.find cipher.algorithm with
  | some _ => (false,r)
  | none => (true,⟨r.ciphers++[cipher],KeyedTable.distinct_push _ r.distinct h⟩)

def unregister (r : AeadCipherRegistry) (algorithm : AeadAlgorithm) : Bool×AeadCipherRegistry :=
  match r.find algorithm with
  | none => (false,r)
  | some _ => (true,⟨KeyedTable.erase IAeadCipher.algorithm algorithm r.ciphers,
      KeyedTable.distinct_erase _ r.distinct⟩)

theorem find_algorithm {r : AeadCipherRegistry} {a : AeadAlgorithm} {c : IAeadCipher}
    (h : r.find a=some c) : c.algorithm=a :=
  (KeyedTable.lookup_key _ h).2

theorem register_iff (r : AeadCipherRegistry) (c : IAeadCipher) :
    (r.register c).1=true ↔ r.find c.algorithm=none := by
  unfold register
  split
  · rename_i d h
    simp [h]
  · rename_i h
    simp [h]

/-- Registration fills an empty place and never displaces a registered cipher. -/
theorem find_register (r : AeadCipherRegistry) (c : IAeadCipher) (a : AeadAlgorithm) :
    (r.register c).2.find a=(r.find a).or (if c.algorithm=a then some c else none) := by
  unfold register
  split
  · rename_i d h
    by_cases ha : c.algorithm=a
    · subst ha; simp [h]
    · simp [ha]
  · exact KeyedTable.lookup_push _ a r.ciphers c

theorem find_unregister (r : AeadCipherRegistry) (a b : AeadAlgorithm) :
    (r.unregister a).2.find b=if b=a then none else r.find b := by
  unfold unregister
  split
  · rename_i h
    by_cases hb : b=a
    · subst hb; simp [h]
    · simp [hb]
  · by_cases hb : b=a
    · subst hb
      rw [if_pos rfl]
      exact KeyedTable.lookup_erase_self _ r.distinct
    · rw [if_neg hb]
      exact KeyedTable.lookup_erase_ne _ hb r.ciphers

/-- After `Unregister` no cipher for the algorithm is left, whatever it answered. -/
theorem unregister_gone (r : AeadCipherRegistry) (a : AeadAlgorithm) :
    ∀c∈(r.unregister a).2.ciphers,c.algorithm≠a := by
  have gone : (r.unregister a).2.find a=none := by
    rw [find_unregister,if_pos rfl]
  rw [find,KeyedTable.lookup_none_iff] at gone
  intro c hc he
  rw [← he] at gone hc
  exact gone (List.mem_map_of_mem hc)

end AeadCipherRegistry
end ESPressioSecurity
