import ESPressioSecurity.Model.Host
import ESPressioSecurity.Model.ReplayWindow
import ESPressioSecurity.Transport.Header

namespace ESPressioSecurity

open Framework

/-- The members of `TransportSecurity`; `observable` tells whether the observer bookkeeping was
materialized. The references it holds are the `Host` of each call. -/
structure TransportSecurity where
  config : TransportSecurityConfig
  replay : ReplayWindow
  sessionID : UInt64
  nextSequence : UInt64
  sessionReady : Bool
  observable : Bool

namespace TransportSecurity

variable {ρ : Type}

def new (config : TransportSecurityConfig) : TransportSecurity :=
  let fresh : TransportSecurity := {
    config := config
    replay := ReplayWindow.new config.replayWindowSize
    sessionID := 0
    nextSequence := 1
    sessionReady := false
    observable := false }
  if config.sessionID≠0 then
    {fresh with sessionID := config.sessionID,sessionReady := true}
  else fresh

/-- `if (_observable) _observable->...` -/
def notify (s : TransportSecurity) (n : Notification) : List Effect :=
  if s.observable then [.notified n] else []

def registerObserver (s : TransportSecurity) : TransportSecurity := {s with observable := true}

def setConfig (s : TransportSecurity) (config : TransportSecurityConfig) :
    TransportSecurity×List Effect :=
  let next : TransportSecurity := {s with
    config := config
    replay := ReplayWindow.new config.replayWindowSize
    nextSequence := 1
    sessionID := config.sessionID
    sessionReady := config.sessionID≠0}
  (next,
    s.notify (.configurationChanged s.config config)++
    (if s.sessionID≠0 ∧ s.sessionID≠next.sessionID then s.notify (.sessionReset s.sessionID) else [])++
    (if next.sessionReady ∧ next.sessionID≠s.sessionID then
      s.notify (.sessionEstablished next.sessionID) else []))

theorem notify_only {s : TransportSecurity} {n : Notification} {e : Effect} (h : e∈s.notify n) :
    e=.notified n := by
  rw [notify] at h
  split_ifs at h
  · exact List.mem_singleton.mp h
  · exact absurd h (by simp)

theorem notify_returned (s : TransportSecurity) (n : Notification) : threw (s.notify n)=false := by
  rw [notify]
  split_ifs <;> rfl

theorem setConfig_only {s : TransportSecurity} {config : TransportSecurityConfig} {e : Effect}
    (h : e∈(s.setConfig config).2) : ∃ n,e=.notified n := by
  have part : ∀ (p : Prop) [Decidable p] (n : Notification),
      e∈(if p then s.notify n else []) → ∃ n,e=.notified n := by
    intro p _ n he
    split_ifs at he
    · exact ⟨n,notify_only he⟩
    · exact absurd he (by simp)
  rcases List.mem_append.mp h with h|h
  · rcases List.mem_append.mp h with h|h
    · exact ⟨_,notify_only h⟩
    · exact part _ _ h
  · exact part _ _ h

def resetReplayProtection (s : TransportSecurity) : TransportSecurity×List Effect :=
  ({s with replay := s.replay.reset},s.notify .replayProtectionReset)

def establish (s : TransportSecurity) (sessionID : UInt64) : TransportSecurity :=
  {s with sessionID := sessionID,sessionReady := true}

/-- The attempts of `EnsureSessionID`: a failed `Fill` ends them, a zero candidate is drawn again.
The candidate's bytes are the machine's own, least significant first. -/
def drawSessionID (source : IRandomSource ρ) : Nat → ρ → Option UInt64×ρ×List Effect
  | 0,r => (none,r,[])
  | attempts+1,r =>
    let draw := source.fill r 8
    let effect : Effect := .filled ⟨8,draw.ok,draw.bytes.val⟩
    if draw.ok=false then (none,draw.next,[effect])
    else
      let candidate := UInt64.ofNat (ofLE draw.bytes.val)
      if candidate≠0 then (some candidate,draw.next,[effect])
      else
        let later := drawSessionID source attempts draw.next
        (later.1,later.2.1,effect::later.2.2)

/-- `std::numeric_limits<uint64_t>::max()` -/
def maxSequence : UInt64 := 0xFFFFFFFFFFFFFFFF

structure SessionOutcome (ρ : Type) where
  ok : Bool
  security : TransportSecurity
  random : ρ
  effects : List Effect

def ensureSessionID (host : Host ρ) (s : TransportSecurity) (r : ρ) : SessionOutcome ρ :=
  if s.sessionReady then ⟨true,s,r,[]⟩
  else if s.config.sessionID≠0 then
    ⟨true,s.establish s.config.sessionID,r,s.notify (.sessionEstablished s.config.sessionID)⟩
  else
    let drawn := drawSessionID host.random 4 r
    match drawn.1 with
    | some candidate =>
      ⟨true,s.establish candidate,drawn.2.1,drawn.2.2++s.notify (.sessionEstablished candidate)⟩
    | none => ⟨false,s,drawn.2.1,drawn.2.2⟩

/-- `SecureErase`: every byte is set to 0 before the buffer is cleared. -/
def secureErase (bytes : Bytes) : Bytes := clear (bytes.map (fun _ => 0))

structure ProtectOutcome (ρ : Type) where
  result : SecurityResult
  output : Bytes
  security : TransportSecurity
  random : ρ
  effects : List Effect

/-- A failing exit of `Protect` while the output is as the first `clear` left it. -/
def refuse (s : TransportSecurity) (r : ρ) (effects : List Effect) (error : SecurityError)
    (message : String) : ProtectOutcome ρ :=
  ⟨.fail error message,[],s,r,effects++s.notify (.failure (.fail error message))⟩

/-- A failing exit of `Protect` that erases what the output holds. -/
def eraseAndRefuse (s : TransportSecurity) (r : ρ) (effects : List Effect) (output : Bytes)
    (error : SecurityError) (message : String) : ProtectOutcome ρ :=
  ⟨.fail error message,secureErase output,s,r,effects++s.notify (.failure (.fail error message))⟩

/-- The plaintext exits of `Protect`. -/
def passThrough (s : TransportSecurity) (r : ρ) (plaintext : Span) : ProtectOutcome ρ :=
  ⟨.ok false,plaintext.content,s,r,[]⟩

/-- The header `Protect` appends; the casts narrow sizes it has bounded before. -/
def outboundHeader (s : TransportSecurity) (cipher : IAeadCipher) (protocol : UInt8)
    (plaintext : Span) : Header where
  magic := envelopeMagic
  version := envelopeVersion
  algorithm := cipher.algorithm.raw
  flags := 0
  protocol := protocol
  keyID := s.config.outboundKeyID
  senderID := s.config.senderID
  sessionID := s.sessionID
  sequence := s.nextSequence
  nonceLength := UInt8.ofNat cipher.nonceSize
  tagLength := UInt8.ofNat cipher.tagSize
  reserved := 0
  ciphertextLength := UInt32.ofNat plaintext.size

/-- `Protect` from the point where it takes a sequence number. The offsets delimit ranges of one
allocated buffer, so their sums stay within `size_t` and are taken in ℕ. -/
def sealEnvelope (host : Host ρ) (s : TransportSecurity) (r : ρ) (effects : List Effect)
    (cipher : IAeadCipher) (key : KeyMaterialView) (protocol : UInt8) (plaintext : Span) :
    ProtectOutcome ρ :=
  let header := s.outboundHeader cipher protocol plaintext
  let s : TransportSecurity := {s with nextSequence := s.nextSequence+1}
  let ciphertextOffset := fixedHeaderSize+cipher.nonceSize
  let tagOffset := ciphertextOffset+plaintext.size
  let totalSize := tagOffset+cipher.tagSize
  if host.allocates totalSize=false then
    eraseAndRefuse s r effects [] .bufferLimitExceeded "Protected output allocation failed"
  else
    let output := appendHeader [] header
    if output.length≠fixedHeaderSize then
      eraseAndRefuse s r effects output .malformedEnvelope
        "Transport security header size is inconsistent"
    else
      let output := resize output totalSize
      let nonce := host.random.fill r cipher.nonceSize
      let output := overwrite output fixedHeaderSize nonce.bytes.val
      let effects := effects++[.filled ⟨cipher.nonceSize,nonce.ok,nonce.bytes.val⟩]
      if nonce.ok=false then
        eraseAndRefuse s nonce.next effects output .randomFailure
          "Cryptographic nonce generation failed"
      else
        let nonceBytes := slice output fixedHeaderSize cipher.nonceSize
        let aad := slice output 0 fixedHeaderSize
        let sealing := cipher.aeadSeal key.data nonceBytes aad plaintext.content cipher.tagSize
        let output := overwrite output ciphertextOffset sealing.ciphertext.val
        let output := overwrite output tagOffset sealing.tag.val
        let effects := effects++[.sealed ⟨key.data,nonceBytes,aad,plaintext.content,sealing.ok,
          sealing.ciphertext.val,sealing.tag.val⟩]
        if sealing.ok=false then
          eraseAndRefuse s nonce.next effects output .encryptionFailed "AEAD encryption failed"
        else ⟨.ok true,output,s,nonce.next,effects⟩

def protect (host : Host ρ) (s : TransportSecurity) (r : ρ) (protocol : UInt8)
    (plaintext : Span) : ProtectOutcome ρ :=
  if plaintext.invalid=true ∨ plaintext.size>s.config.maximumPlaintextBytes then
    refuse s r [] .invalidArgument "Invalid or oversized plaintext payload"
  else if s.config.policy=.disabled then passThrough s r plaintext
  else
    match host.ciphers.find s.config.outboundAlgorithm,
      host.keys.getKey s.config.outboundKeyID s.config.outboundAlgorithm with
    | some cipher,some key =>
      if key.size≠cipher.keySize then
        refuse s r [] .invalidKeyLength "Outbound key length does not match AEAD algorithm"
      else
        let session := ensureSessionID host s r
        if session.ok=false then
          refuse session.security session.random session.effects .randomFailure
            "Transport security session ID generation failed"
        else if session.security.nextSequence=0 ∨ session.security.nextSequence=maxSequence then
          refuse session.security session.random session.effects .sequenceExhausted
            "Outbound sequence exhausted; establish a new session before continuing"
        else if cipher.nonceSize>0xFF ∨ cipher.tagSize>0xFF ∨ plaintext.size>0xFFFFFFFF then
          refuse session.security session.random session.effects .bufferLimitExceeded
            "Transport security envelope fields exceed wire-format limits"
        else
          sealEnvelope host session.security session.random session.effects cipher key protocol
            plaintext
    | none,_ =>
      if s.config.policy=.preferred then passThrough s r plaintext
      else refuse s r [] .unsupportedAlgorithm "Outbound AEAD algorithm is not registered"
    | some _,none =>
      if s.config.policy=.preferred then passThrough s r plaintext
      else refuse s r [] .missingKey "Outbound key is unavailable"

structure UnprotectOutcome where
  result : SecurityResult
  payload : UnprotectedPayload
  security : TransportSecurity
  effects : List Effect

/-- A failing exit of `Unprotect` with the payload in its reset state. -/
def reject (s : TransportSecurity) (effects : List Effect) (error : SecurityError)
    (message : String) : UnprotectOutcome :=
  ⟨.fail error message,{},s,effects++s.notify (.failure (.fail error message))⟩

/-- A failing exit of `Unprotect` that erases what `Open` left in the payload's data. -/
def eraseAndReject (s : TransportSecurity) (effects : List Effect) (data : Bytes)
    (error : SecurityError) (message : String) : UnprotectOutcome :=
  ⟨.fail error message,{data := secureErase data},s,
    effects++s.notify (.failure (.fail error message))⟩

/-- The resize of the plaintext buffer threw out of `Unprotect`: nothing is returned or reported, the
payload stays in its reset state, and `result` is the default that no exit returns. -/
def throwLength (s : TransportSecurity) (size : Nat) : UnprotectOutcome :=
  ⟨{},{},s,[.resized ⟨size,false⟩]⟩

/-- `expectedSize`, a sum in `size_t`. -/
def expectedSize (host : Host ρ) (h : Header) : Nat :=
  (fixedHeaderSize+h.nonceLength.toNat+h.ciphertextLength.toNat+h.tagLength.toNat)%2^host.sizeBits

def Header.domain (h : Header) : ReplayDomain := ⟨h.senderID,h.keyID,h.sessionID⟩

/-- `Unprotect` from the slicing of the envelope on. -/
def openEnvelope (host : Host ρ) (s : TransportSecurity) (expectedProtocol : UInt8) (input : Bytes)
    (h : Header) (cipher : IAeadCipher) (key : KeyMaterialView) : UnprotectOutcome :=
  let nonceOffset := fixedHeaderSize
  let ciphertextOffset := nonceOffset+h.nonceLength.toNat
  let tagOffset := ciphertextOffset+h.ciphertextLength.toNat
  let nonce := slice input nonceOffset h.nonceLength.toNat
  let aad := slice input 0 fixedHeaderSize
  let ciphertext := slice input ciphertextOffset h.ciphertextLength.toNat
  let tag := slice input tagOffset h.tagLength.toNat
  if h.ciphertextLength.toNat>SecurityBuffer.maxSize host.sizeBits then
    throwLength s h.ciphertextLength.toNat
  else
    let opening := cipher.aeadOpen key.data nonce aad ciphertext tag
    let data := opening.plaintext.val
    let effects : List Effect := [.resized ⟨h.ciphertextLength.toNat,true⟩,
      .opened ⟨key.data,nonce,aad,ciphertext,tag,opening.ok,opening.plaintext.val⟩]
    if opening.ok=false then
      eraseAndReject s effects data .authenticationFailed "AEAD authentication/decryption failed"
    else if h.protocol≠expectedProtocol then
      eraseAndReject s effects data .protocolMismatch
        "Authenticated payload protocol does not match expected transport protocol"
    else {
      result := .ok true
      payload := {
        protocol := h.protocol
        keyID := h.keyID
        senderID := h.senderID
        sessionID := h.sessionID
        sequence := h.sequence
        algorithm := ⟨h.algorithm⟩
        isProtected := true
        data := data }
      security := {s with replay := s.replay.commit h.domain h.sequence}
      effects := effects }

def unprotect (host : Host ρ) (s : TransportSecurity) (expectedProtocol : UInt8) (input : Span) :
    UnprotectOutcome :=
  if input.invalid then reject s [] .invalidArgument "Invalid protected input"
  else if looksProtected input=false then
    if s.config.policy=.required then
      reject s [] .plaintextRejected "Plaintext transport payload rejected by Required policy"
    else ⟨.ok false,{protocol := expectedProtocol,isProtected := false,data := input.content},s,[]⟩
  else if input.size<fixedHeaderSize then
    reject s [] .malformedEnvelope "Transport security envelope is truncated"
  else match readHeader input.content with
  | none => reject s [] .malformedEnvelope "Transport security header is malformed"
  | some h =>
    if h.magic≠envelopeMagic ∨ h.version≠envelopeVersion then
      if h.version≠envelopeVersion then
        reject s [] .unsupportedVersion "Unsupported transport security envelope version"
      else reject s [] .malformedEnvelope "Invalid transport security envelope magic"
    else if h.ciphertextLength.toNat>s.config.maximumPlaintextBytes then
      reject s [] .bufferLimitExceeded "Protected payload exceeds configured limit"
    else if expectedSize host h≠input.size ∨ h.sessionID=0 ∨ h.sequence=0 ∨ h.keyID=0 then
      reject s [] .malformedEnvelope
        "Transport security envelope lengths or identifiers are inconsistent"
    else match host.ciphers.find ⟨h.algorithm⟩ with
    | none => reject s [] .unsupportedAlgorithm "Inbound AEAD algorithm is not registered"
    | some cipher =>
      if h.nonceLength.toNat≠cipher.nonceSize ∨ h.tagLength.toNat≠cipher.tagSize then
        reject s [] .malformedEnvelope "Nonce/tag size does not match AEAD algorithm"
      else if s.replay.wouldAccept h.domain h.sequence=false then
        reject s [] .replayDetected "Replay or stale protected transport payload rejected"
      else match host.keys.getKey h.keyID ⟨h.algorithm⟩ with
      | none => reject s [] .missingKey "Inbound key is unavailable"
      | some key =>
        if key.size≠cipher.keySize then
          reject s [] .invalidKeyLength "Inbound key length does not match AEAD algorithm"
        else openEnvelope host s expectedProtocol input.content h cipher key

end TransportSecurity
end ESPressioSecurity
