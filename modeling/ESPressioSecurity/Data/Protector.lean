import ESPressioSecurity.Data.Header
import ESPressioSecurity.Model.Host

namespace ESPressioSecurity

open Framework

structure DataProtectionConfig where
  algorithm : AeadAlgorithm := .aes256GCM
  keyID : UInt32 := 1
  maximumPlaintextBytes : Nat := 64*1024
  deriving DecidableEq,Repr

/-- `DataProtector` has no state of its own beside its configuration; the references it holds are
the `Host` of each call. -/
structure DataProtector where
  config : DataProtectionConfig
  deriving DecidableEq,Repr

namespace DataProtector

variable {ρ : Type}

def setConfig (_ : DataProtector) (config : DataProtectionConfig) : DataProtector := ⟨config⟩

structure ProtectOutcome (ρ : Type) where
  result : SecurityResult
  output : Bytes
  random : ρ
  effects : List Effect

/-- A failing exit of `Protect` while the output is as the first `clear` left it. -/
def refuse (r : ρ) (effects : List Effect) (error : SecurityError) (message : String) :
    ProtectOutcome ρ :=
  ⟨.fail error message,[],r,effects⟩

/-- A failing exit of `Protect` that clears the envelope it had begun. -/
def clearAndRefuse (r : ρ) (effects : List Effect) (protectedData : Bytes) (error : SecurityError)
    (message : String) : ProtectOutcome ρ :=
  ⟨.fail error message,clear protectedData,r,effects⟩

/-- The associated data: the header in place, or header and context put together. -/
def associatedData (data : Bytes) (context : Span) : Bytes :=
  if context.size≠0 then slice data 0 headerSize++context.content else slice data 0 headerSize

/-- The header `Protect` writes; the casts truncate. -/
def outboundHeader (d : DataProtector) (cipher : IAeadCipher) (plaintext : Span) : Header where
  version := formatVersion
  algorithm := d.config.algorithm
  keyID := d.config.keyID
  nonceSize := UInt16.ofNat cipher.nonceSize
  tagSize := UInt16.ofNat cipher.tagSize
  plaintextSize := UInt32.ofNat plaintext.size

/-- `Protect` from the allocation of the envelope on. An allocation that fails throws out of the
call, so the offsets delimit ranges of one buffer and their sums are taken in ℕ. -/
def sealEnvelope (host : Host ρ) (d : DataProtector) (r : ρ) (cipher : IAeadCipher)
    (key : KeyMaterialView) (plaintext context : Span) : ProtectOutcome ρ :=
  let tagOffset := headerSize+cipher.nonceSize
  let ciphertextOffset := tagOffset+cipher.tagSize
  let envelopeSize := ciphertextOffset+plaintext.size
  let protectedData := resize [] envelopeSize
  let protectedData := writeHeader protectedData d.config.algorithm d.config.keyID
    (UInt16.ofNat cipher.nonceSize) (UInt16.ofNat cipher.tagSize) (UInt32.ofNat plaintext.size)
  let nonce := host.random.fill r cipher.nonceSize
  let protectedData := overwrite protectedData headerSize nonce.bytes.val
  let effects : List Effect := [.filled ⟨cipher.nonceSize,nonce.ok,nonce.bytes.val⟩]
  if nonce.ok=false then
    clearAndRefuse nonce.next effects protectedData .randomFailure
      "Unable to generate data-protection nonce"
  else
    let nonceBytes := slice protectedData headerSize cipher.nonceSize
    let aad := associatedData protectedData context
    let sealing := cipher.aeadSeal key.data nonceBytes aad plaintext.content cipher.tagSize
    let protectedData := overwrite protectedData tagOffset sealing.tag.val
    let protectedData := overwrite protectedData ciphertextOffset sealing.ciphertext.val
    let effects := effects++[.sealed ⟨key.data,nonceBytes,aad,plaintext.content,sealing.ok,
      sealing.ciphertext.val,sealing.tag.val⟩]
    if sealing.ok=false then
      clearAndRefuse nonce.next effects protectedData .encryptionFailed
        "Authenticated data protection failed"
    else ⟨.ok true,protectedData,nonce.next,effects⟩

def protect (host : Host ρ) (d : DataProtector) (r : ρ) (plaintext context : Span) :
    ProtectOutcome ρ :=
  if plaintext.invalid=true ∨ context.invalid=true ∨ d.config.keyID=0 then
    refuse r [] .invalidArgument "Invalid data-protection argument"
  else if plaintext.size>d.config.maximumPlaintextBytes then
    refuse r [] .bufferLimitExceeded "Plaintext exceeds configured limit"
  else match host.ciphers.find d.config.algorithm with
  | none =>
    refuse r [] .unsupportedAlgorithm "Requested data-protection algorithm is unavailable"
  | some cipher =>
    match host.keys.getKey d.config.keyID d.config.algorithm with
    | none => refuse r [] .missingKey "Data-protection key is unavailable"
    | some key =>
      if key.size≠cipher.keySize then
        refuse r [] .invalidKeyLength "Data-protection key length is invalid"
      else sealEnvelope host d r cipher key plaintext context

structure UnprotectOutcome where
  result : SecurityResult
  plaintext : Bytes
  effects : List Effect

/-- A failing exit of `Unprotect` while the plaintext buffer is as the first `clear` left it. -/
def reject (effects : List Effect) (error : SecurityError) (message : String) : UnprotectOutcome :=
  ⟨.fail error message,[],effects⟩

/-- A failing exit of `Unprotect` that clears what `Open` left in the plaintext buffer. -/
def clearAndReject (effects : List Effect) (plaintext : Bytes) (error : SecurityError)
    (message : String) : UnprotectOutcome :=
  ⟨.fail error message,clear plaintext,effects⟩

/-- The resize of the plaintext buffer threw out of `Unprotect`: nothing is returned, the buffer
stays empty, and `result` is the default that no exit returns. -/
def throwLength (size : Nat) : UnprotectOutcome := ⟨{},[],[.resized ⟨size,false⟩]⟩

/-- `expected`, a sum in `size_t`. -/
def expectedSize (host : Host ρ) (h : Header) : Nat :=
  (headerSize+h.nonceSize.toNat+h.tagSize.toNat+h.plaintextSize.toNat)%2^host.sizeBits

/-- `Unprotect` from the slicing of the envelope on. -/
def openEnvelope (host : Host ρ) (data : Bytes) (context : Span) (h : Header)
    (cipher : IAeadCipher) (key : KeyMaterialView) : UnprotectOutcome :=
  let nonceOffset := headerSize
  let tagOffset := nonceOffset+h.nonceSize.toNat
  let ciphertextOffset := tagOffset+h.tagSize.toNat
  let nonce := slice data nonceOffset h.nonceSize.toNat
  let tag := slice data tagOffset h.tagSize.toNat
  let ciphertext := slice data ciphertextOffset h.plaintextSize.toNat
  let aad := associatedData data context
  if h.plaintextSize.toNat>SecurityBuffer.maxSize host.sizeBits then
    throwLength h.plaintextSize.toNat
  else
    let opening := cipher.aeadOpen key.data nonce aad ciphertext tag
    let plaintext := opening.plaintext.val
    let effects : List Effect := [.resized ⟨h.plaintextSize.toNat,true⟩,
      .opened ⟨key.data,nonce,aad,ciphertext,tag,opening.ok,opening.plaintext.val⟩]
    if opening.ok=false then
      clearAndReject effects plaintext .authenticationFailed
        "Protected data could not be authenticated or decrypted"
    else ⟨.ok true,plaintext,effects⟩

def unprotect (host : Host ρ) (d : DataProtector) (protectedData context : Span) :
    UnprotectOutcome :=
  match protectedData with
  | .null _ => reject [] .invalidArgument "Invalid protected-data argument"
  | .bytes data =>
    if data.length<headerSize ∨ context.invalid=true then
      reject [] .invalidArgument "Invalid protected-data argument"
    else match readHeader data with
    | none => reject [] .malformedEnvelope "Malformed protected-data envelope"
    | some h =>
      if h.version≠formatVersion then
        reject [] .unsupportedVersion "Unsupported protected-data format version"
      else if h.plaintextSize.toNat>d.config.maximumPlaintextBytes then
        reject [] .bufferLimitExceeded "Protected plaintext exceeds configured limit"
      else match host.ciphers.find h.algorithm with
      | none => reject [] .unsupportedAlgorithm "Protected-data algorithm is unavailable"
      | some cipher =>
        if h.nonceSize.toNat≠cipher.nonceSize ∨ h.tagSize.toNat≠cipher.tagSize then
          reject [] .malformedEnvelope "Protected-data nonce or tag size is invalid"
        else if expectedSize host h≠data.length then
          reject [] .malformedEnvelope "Protected-data envelope length is invalid"
        else match host.keys.getKey h.keyID h.algorithm with
        | none => reject [] .missingKey "Protected-data key is unavailable"
        | some key =>
          if key.size≠cipher.keySize then
            reject [] .invalidKeyLength "Protected-data key length is invalid"
          else openEnvelope host data context h cipher key

/-- `ProtectString` of a view on the given characters. -/
def protectString (host : Host ρ) (d : DataProtector) (r : ρ) (text : Bytes) (context : Span) :
    ProtectOutcome ρ :=
  protect host d r (.bytes text) context

/-- `UnprotectString`: the destination is assigned only on success, so neither by a failure nor where
`Unprotect` throws. -/
def unprotectString (host : Host ρ) (d : DataProtector) (protectedData context : Span)
    (destination : Bytes) : SecurityResult×Bytes :=
  let o := unprotect host d protectedData context
  if o.result.success=false then (o.result,destination) else (o.result,o.plaintext)

end DataProtector
end ESPressioSecurity
