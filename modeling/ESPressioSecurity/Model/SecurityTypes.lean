import ESPressioSecurity.Framework.Buffer

namespace ESPressioSecurity

open Framework

/-- `enum class AeadAlgorithm : uint8_t`. The decoders cast an arbitrary header byte to it, so
every byte is a value; the named ones are constants below. -/
@[ext] structure AeadAlgorithm where
  raw : UInt8
  deriving DecidableEq,Repr

namespace AeadAlgorithm

def unknown : AeadAlgorithm := ⟨0⟩
def aes128GCM : AeadAlgorithm := ⟨1⟩
def aes256GCM : AeadAlgorithm := ⟨2⟩
def aes128CCM : AeadAlgorithm := ⟨3⟩
def aes256CCM : AeadAlgorithm := ⟨4⟩
def chaCha20Poly1305 : AeadAlgorithm := ⟨5⟩
def testOnly : AeadAlgorithm := ⟨250⟩

end AeadAlgorithm

inductive TransportSecurityPolicy
  | disabled
  | preferred
  | required
  deriving DecidableEq,Repr

inductive SecurityError
  | none
  | invalidArgument
  | plaintextRejected
  | malformedEnvelope
  | unsupportedVersion
  | unsupportedAlgorithm
  | missingKey
  | invalidKeyLength
  | randomFailure
  | encryptionFailed
  | authenticationFailed
  | protocolMismatch
  | replayDetected
  | sequenceExhausted
  | bufferLimitExceeded
  deriving DecidableEq,Repr

structure SecurityResult where
  success : Bool := false
  isProtected : Bool := false
  error : SecurityError := .none
  message : String := ""
  deriving DecidableEq,Repr

namespace SecurityResult

def ok (protectedPayload : Bool) : SecurityResult := ⟨true,protectedPayload,.none,""⟩

def fail (error : SecurityError) (message : String) : SecurityResult :=
  ⟨false,false,error,message⟩

@[simp] theorem ok_success (p : Bool) : (ok p).success=true := rfl
@[simp] theorem ok_isProtected (p : Bool) : (ok p).isProtected=p := rfl
@[simp] theorem fail_success (e : SecurityError) (m : String) : (fail e m).success=false := rfl
@[simp] theorem fail_isProtected (e : SecurityError) (m : String) :
    (fail e m).isProtected=false := rfl
@[simp] theorem fail_error (e : SecurityError) (m : String) : (fail e m).error=e := rfl

end SecurityResult

/-- `max_size()` of a `SecurityBuffer` where `size_t` has the given width: a vector of bytes ends
where `ptrdiff_t` does, as every object in memory. -/
def SecurityBuffer.maxSize (sizeBits : Nat) : Nat := 2^(sizeBits-1)-1

theorem SecurityBuffer.maxSize_lt (sizeBits : Nat) : maxSize sizeBits<2^sizeBits := by
  have narrower : 2^(sizeBits-1)≤2^sizeBits := Nat.pow_le_pow_right (by decide) (Nat.sub_le _ _)
  have positive : 0<2^(sizeBits-1) := Nat.two_pow_pos _
  rw [maxSize]
  omega

/-- What a vector leaves of `size_t` has room for more than the sizes a header states beside it. -/
theorem SecurityBuffer.le_maxSize {sizeBits : Nat} (width : 32 ≤ sizeBits) :
    2^31-1 ≤ maxSize sizeBits :=
  Nat.sub_le_sub_right (Nat.pow_le_pow_right (by decide) (by omega)) 1

theorem SecurityBuffer.maxSize_half {sizeBits : Nat} (width : 32 ≤ sizeBits) :
    maxSize sizeBits+2^31<2^sizeBits := by
  have wide : 2^31≤2^(sizeBits-1) := Nat.pow_le_pow_right (by decide) (by omega)
  have double : 2^sizeBits=2^(sizeBits-1)*2 := by
    rw [← Nat.pow_succ]
    congr 1
    omega
  rw [maxSize]
  omega

/-- A pointer and a size as the callers pass them; a null pointer may come with any size. -/
inductive Span
  | null (size : Nat)
  | bytes (b : Bytes)
  deriving DecidableEq,Repr

namespace Span

def size : Span → Nat
  | null n => n
  | bytes b => b.length

def content : Span → Bytes
  | null _ => []
  | bytes b => b

/-- `pointer == nullptr && size != 0` -/
def invalid : Span → Bool
  | null n => n≠0
  | bytes _ => false

theorem size_eq (s : Span) (h : s.invalid=false) : s.size=s.content.length := by
  cases s with
  | null n => simpa [invalid,size,content] using h
  | bytes b => rfl

end Span

/-- A borrowed key: its bytes stay what they were when the provider bound the view. -/
structure KeyMaterialView where
  keyID : UInt32
  data : Bytes
  deriving DecidableEq,Repr

def KeyMaterialView.size (key : KeyMaterialView) : Nat := key.data.length

structure TransportSecurityConfig where
  policy : TransportSecurityPolicy := .required
  outboundAlgorithm : AeadAlgorithm := .aes256GCM
  outboundKeyID : UInt32 := 1
  senderID : UInt64 := 0
  sessionID : UInt64 := 0
  maximumPlaintextBytes : Nat := 16384
  replayWindowSize : Nat := 64
  deriving DecidableEq,Repr

structure UnprotectedPayload where
  protocol : UInt8 := 0
  keyID : UInt32 := 0
  senderID : UInt64 := 0
  sessionID : UInt64 := 0
  sequence : UInt64 := 0
  algorithm : AeadAlgorithm := .unknown
  isProtected : Bool := false
  data : Bytes := []
  deriving DecidableEq,Repr

end ESPressioSecurity
