import ESPressioSecurity.Model.AeadCipher
import ESPressioSecurity.Model.KeyProvider

namespace ESPressioSecurity

open Framework

/-- What `Fill` returns, leaves in the storage handed to it (also on failure) and becomes. -/
structure FillOutcome (ρ : Type) (size : Nat) where
  ok : Bool
  bytes : Block size
  next : ρ

/-- An implementation of `IRandomSource` with internal state `ρ`. -/
structure IRandomSource (ρ : Type) where
  fill : ρ → (size : Nat) → FillOutcome ρ size

/-- The surroundings of one call: the objects held by reference, whether the allocator grants a
buffer of a given size, and the width of `size_t`. Nothing ties the hosts of two calls together,
so a registry, key store, cipher or allocator may change or keep state between calls. -/
structure Host (ρ : Type) where
  ciphers : AeadCipherRegistry
  keys : IKeyProvider
  random : IRandomSource ρ
  allocates : Nat → Bool
  sizeBits : Nat

structure FillCall where
  size : Nat
  ok : Bool
  bytes : Bytes
  deriving DecidableEq,Repr

structure SealCall where
  key : Bytes
  nonce : Bytes
  aad : Bytes
  plaintext : Bytes
  ok : Bool
  ciphertext : Bytes
  tag : Bytes
  deriving DecidableEq,Repr

structure OpenCall where
  key : Bytes
  nonce : Bytes
  aad : Bytes
  ciphertext : Bytes
  tag : Bytes
  ok : Bool
  plaintext : Bytes
  deriving DecidableEq,Repr

/-- The resize of a plaintext buffer: the size asked for, and whether the vector grew or threw. -/
structure ResizeCall where
  size : Nat
  ok : Bool
  deriving DecidableEq,Repr

/-- The callbacks of `ITransportSecurityObserver`. -/
inductive Notification
  | configurationChanged (before after : TransportSecurityConfig)
  | sessionReset (previousSessionID : UInt64)
  | sessionEstablished (sessionID : UInt64)
  | replayProtectionReset
  | failure (result : SecurityResult)
  deriving DecidableEq,Repr

/-- Calls made on the borrowed objects, the plaintext buffer and the observable, in the order they
are made. -/
inductive Effect
  | filled (call : FillCall)
  | sealed (call : SealCall)
  | resized (call : ResizeCall)
  | opened (call : OpenCall)
  | notified (n : Notification)
  deriving DecidableEq,Repr

/-- `std::length_error` left the call: it returned no result. -/
def threw (effects : List Effect) : Bool :=
  effects.any fun
    | .resized call => !call.ok
    | _ => false

theorem threw_append (a b : List Effect) : threw (a++b)=(threw a || threw b) := List.any_append

/-- The `Seal` calls that succeeded. -/
def sealsOf (effects : List Effect) : List SealCall :=
  effects.filterMap fun
    | .sealed call => if call.ok then some call else none
    | _ => none

theorem mem_sealsOf {effects : List Effect} {call : SealCall} :
    call∈sealsOf effects ↔ Effect.sealed call∈effects ∧ call.ok=true := by
  simp only [sealsOf,List.mem_filterMap]
  constructor
  · intro ⟨e,he,h⟩
    cases e with
    | sealed c =>
      by_cases hc : c.ok=true
      · simp only [hc,if_true,Option.some.injEq] at h
        subst h
        exact ⟨he,hc⟩
      · simp [hc] at h
    | _ => simp at h
  · intro ⟨he,hc⟩
    exact ⟨_,he,by simp [hc]⟩

/-- No `Seal` call among the effects. -/
def Quiet (effects : List Effect) : Prop := ∀ call,Effect.sealed call∉effects

theorem quiet_nil : Quiet [] := fun _ h => absurd h (by simp)

theorem quiet_append {a b : List Effect} (ha : Quiet a) (hb : Quiet b) : Quiet (a++b) :=
  fun call h => (List.mem_append.mp h).elim (ha call) (hb call)

theorem quiet_of_notified {effects : List Effect} (h : ∀e∈effects,∃ n,e=Effect.notified n) :
    Quiet effects := by
  intro call hc
  obtain ⟨n,he⟩ := h _ hc
  exact absurd he (by simp)

theorem sealsOf_append (a b : List Effect) : sealsOf (a++b)=sealsOf a++sealsOf b := by
  simp [sealsOf]

/-- `Open` succeeds only on a key, nonce, associated data, ciphertext and tag that a listed `Seal`
produced, and then yields the plaintext of that `Seal`. Asked of the ciphers the host registers
under the keys its provider resolves. -/
def OpensOnly {ρ : Type} (host : Host ρ) (seals : List SealCall) : Prop :=
  ∀ algorithm cipher,host.ciphers.find algorithm=some cipher →
  ∀ keyID view,host.keys.getKey keyID algorithm=some view →
  ∀ nonce aad ciphertext tag,
    (cipher.aeadOpen view.data nonce aad ciphertext tag).ok=true →
    ∃ call∈seals,call.key=view.data ∧ call.nonce=nonce ∧ call.aad=aad ∧
      call.ciphertext=ciphertext ∧ call.tag=tag ∧
      call.plaintext=(cipher.aeadOpen view.data nonce aad ciphertext tag).plaintext.val

/-- What `opener` makes of anything `sealer` sealed: the plaintext that went in. -/
def OpensSealed (opener sealer : IAeadCipher) : Prop :=
  ∀ key nonce aad plaintext,
    (sealer.aeadSeal key nonce aad plaintext sealer.tagSize).ok=true →
    let s := sealer.aeadSeal key nonce aad plaintext sealer.tagSize
    (opener.aeadOpen key nonce aad s.ciphertext.val s.tag.val).ok=true ∧
    (opener.aeadOpen key nonce aad s.ciphertext.val s.tag.val).plaintext.val=plaintext

/-- Whatever a cipher opens under a whole tag it seals again to the same ciphertext and tag. -/
def SealsOpened (cipher : IAeadCipher) : Prop :=
  ∀ key nonce aad ciphertext tag,tag.length=cipher.tagSize →
    (cipher.aeadOpen key nonce aad ciphertext tag).ok=true →
    let s := cipher.aeadSeal key nonce aad
      (cipher.aeadOpen key nonce aad ciphertext tag).plaintext.val cipher.tagSize
    s.ok=true ∧ s.ciphertext.val=ciphertext ∧ s.tag.val=tag

end ESPressioSecurity
