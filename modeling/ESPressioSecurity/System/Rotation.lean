import ESPressioSecurity.Data.Sizes
import ESPressioSecurity.System.Site

namespace ESPressioSecurity

open Framework

/-! ### One envelope -/

namespace DataProtector

variable {ρ σ : Type}

/-- Sizes that fit their header fields are the sizes a reader finds. -/
theorem Emits.sized {host : Host ρ} {d : DataProtector} {r : ρ} {plaintext context : Span}
    {cipher : IAeadCipher} {key : KeyMaterialView} {f : Frame}
    (emits : Emits host d r plaintext context cipher key f) (fits : Fits cipher plaintext) :
    f.Sized := by
  have hn := (ofNat16_toNat cipher.nonceSize).mpr fits.nonce
  have ht := (ofNat16_toNat cipher.tagSize).mpr fits.tag
  have hp := (ofNat32_toNat plaintext.size).mpr fits.plaintext
  refine ⟨?_,?_,?_⟩
  · rw [emits.nonce_size,emits.header]
    exact hn.symm
  · rw [emits.tag_size,emits.header]
    exact ht.symm
  · rw [emits.ciphertext_size,emits.header]
    exact hp.symm

/-- What `Protect` put out unprotects wherever its algorithm and key identifier still resolve to the
same cipher and key bytes: nothing else is taken from the configuration but the limit. -/
theorem Emits.unprotects {host : Host ρ} {d : DataProtector} {r : ρ} {plaintext context : Span}
    {cipher : IAeadCipher} {key view : KeyMaterialView} {f : Frame}
    (emits : Emits host d r plaintext context cipher key f) (fits : Fits cipher plaintext)
    (opens : OpensSealed cipher cipher) {reader : Host σ} {e : DataProtector} {context' : Span}
    (valid : context'.invalid=false) (same : context'.content=context.content)
    (found : reader.ciphers.find d.config.algorithm=some cipher)
    (keyed : reader.keys.getKey d.config.keyID d.config.algorithm=some view)
    (bytes : view.data=key.data) (bounded : plaintext.size≤e.config.maximumPlaintextBytes)
    (small : f.bytes.length≤SecurityBuffer.maxSize reader.sizeBits) :
    (unprotect reader e (.bytes f.bytes) context').result=.ok true ∧
    (unprotect reader e (.bytes f.bytes) context').plaintext=plaintext.content := by
  have sized := emits.sized fits
  have hk : f.header.keyID≠0 := by
    rw [emits.header]
    exact emits.ready.keyID
  have length : f.bytes.length=18+f.header.nonceSize.toNat+f.header.tagSize.toNat+
      f.header.plaintextSize.toNat := by
    rw [f.bytes_length,sized.nonce,sized.tag,sized.ciphertext]
  have admitted : Admitted reader e f.bytes context' f.header cipher view := by
    refine ⟨⟨valid,f.readHeader_bytes hk,?_,?_,?_,?_,?_,?_,?_,?_⟩,?_⟩
    · rw [emits.header]
      rfl
    · rw [← sized.ciphertext,emits.ciphertext_size]
      exact bounded
    · rw [emits.header]
      exact found
    · rw [← sized.nonce,emits.nonce_size]
    · rw [← sized.tag,emits.tag_size]
    · have wide := small.trans_lt (SecurityBuffer.maxSize_lt _)
      rw [length] at wide ⊢
      exact Nat.mod_eq_of_lt wide
    · rw [emits.header]
      exact keyed
    · rw [KeyMaterialView.size,bytes]
      exact emits.ready.key_size
    · rw [length] at small
      omega
  have opened := opens key.data f.nonce (f.header.bytes++context.content) plaintext.content
    emits.sealed
  dsimp only at opened
  rw [← emits.ciphertext,← emits.tag] at opened
  obtain ⟨ok,val⟩ := opening_frame sized context' valid cipher view
  rw [same,bytes] at ok val
  obtain ⟨result,plain⟩ := unprotect_opened admitted (ok.trans opened.1)
  exact ⟨result,plain.trans (val.trans opened.2)⟩

end DataProtector

/-! ### Runs -/

namespace Site

variable {ι κ ρ : Type}

/-- The commands of rotation: all but those that take the cipher of `algorithm` or the key stored
for `keyID` and `algorithm` away or replace it. -/
def Command.Spares (keyID : UInt32) (algorithm : AeadAlgorithm) :
    Command ι κ StaticKeyProvider.Change → Prop
  | .unregisterCipher other => other≠algorithm
  | .changeKeys (.add _ k a _) => (k,a)≠(keyID,algorithm)
  | .changeKeys (.remove k a) => (k,a)≠(keyID,algorithm)
  | .changeKeys .clear => False
  | _ => True

variable [DecidableEq ι] [DecidableEq κ]

/-- Cipher and key that a site resolves for an algorithm and key identifier. -/
def Resolves (s : Site ι κ StaticKeyProvider ρ) (keyID : UInt32) (algorithm : AeadAlgorithm)
    (cipher : IAeadCipher) (key : KeyMaterialView) : Prop :=
  s.ciphers.find algorithm=some cipher ∧ s.keys.getKey keyID algorithm=some key

theorem resolves_step (platform : Platform ρ) {s : Site ι κ StaticKeyProvider ρ} {keyID : UInt32}
    {algorithm : AeadAlgorithm} {cipher : IAeadCipher} {key : KeyMaterialView}
    (h : s.Resolves keyID algorithm cipher key)
    (c : Command ι κ StaticKeyProvider.Change) (hc : c.Spares keyID algorithm) :
    (step StaticKeyProvider.store platform s c).1.Resolves keyID algorithm cipher key := by
  obtain ⟨found,keyed⟩ := h
  cases c with
  | registerCipher added =>
    refine ⟨?_,keyed⟩
    show (s.ciphers.register added).2.find algorithm=_
    rw [AeadCipherRegistry.find_register,found]
    rfl
  | unregisterCipher other =>
    refine ⟨?_,keyed⟩
    show (s.ciphers.unregister other).2.find algorithm=_
    rw [AeadCipherRegistry.find_unregister,if_neg (Ne.symm hc)]
    exact found
  | changeKeys change =>
    refine ⟨found,?_⟩
    cases change with
    | add memory k a bytes =>
      exact (StaticKeyProvider.getKey_add_ne s.keys memory k keyID a algorithm bytes
        (Ne.symm hc)).trans keyed
    | remove k a =>
      exact (StaticKeyProvider.getKey_remove_ne s.keys k keyID a algorithm (Ne.symm hc)).trans keyed
    | clear => exact hc.elim
  | call allocates c => exact ⟨found,keyed⟩

theorem run_resolves (platform : Platform ρ) {s : Site ι κ StaticKeyProvider ρ} {keyID : UInt32}
    {algorithm : AeadAlgorithm} {cipher : IAeadCipher} {key : KeyMaterialView}
    (h : s.Resolves keyID algorithm cipher key) (cs : List (Command ι κ StaticKeyProvider.Change))
    (hcs : ∀c∈cs,c.Spares keyID algorithm) :
    ((machine ι κ StaticKeyProvider.store platform).after s cs).Resolves keyID algorithm cipher
      key :=
  (machine ι κ StaticKeyProvider.store platform).invariant_state
    (I := fun u => u.Resolves keyID algorithm cipher key) cs h
    (fun _ c hc hu => resolves_step platform hu c (hcs c hc))

/-- An envelope, made from bytes or from a string, gives its plaintext back after any rotation that
spares its algorithm and key. As a vector in memory it is no longer than vectors get. -/
theorem protected_survives (platform : Platform ρ) (s : Site ι κ StaticKeyProvider ρ)
    (allocates : Nat → Bool) (k : κ) (plaintext context : Span) (cipher : IAeadCipher)
    (found : s.ciphers.find (s.services.protectors k).config.algorithm=some cipher)
    (fits : DataProtector.Fits cipher plaintext) (opens : OpensSealed cipher cipher)
    (out : DataProtector.ProtectOutcome ρ)
    (made : out=DataProtector.protect (s.host StaticKeyProvider.store platform allocates)
        (s.services.protectors k) s.services.random plaintext context ∨
      ∃ text,plaintext=.bytes text ∧ out=DataProtector.protectString
        (s.host StaticKeyProvider.store platform allocates) (s.services.protectors k)
        s.services.random text context)
    (ok : out.result.success=true) (small : out.output.length≤SecurityBuffer.maxSize platform.sizeBits)
    (cs : List (Command ι κ StaticKeyProvider.Change))
    (spares : ∀c∈cs,c.Spares (s.services.protectors k).config.keyID
      (s.services.protectors k).config.algorithm)
    (k' : κ) (allocates' : Nat → Bool) (context' : Span) (valid : context'.invalid=false)
    (same : context'.content=context.content) :
    let now := (machine ι κ StaticKeyProvider.store platform).after s
      (.call allocates (.dataProtect k plaintext context)::cs)
    let host := now.host StaticKeyProvider.store platform allocates'
    let d := now.services.protectors k'
    plaintext.size≤d.config.maximumPlaintextBytes →
    (d.unprotect host (.bytes out.output) context').result=.ok true ∧
    (d.unprotect host (.bytes out.output) context').plaintext=plaintext.content ∧
    ∀ destination,d.unprotectString host (.bytes out.output) context' destination=
      (.ok true,plaintext.content) := by
  intro now host d bounded
  have protects : out=DataProtector.protect (s.host StaticKeyProvider.store platform allocates)
      (s.services.protectors k) s.services.random plaintext context := by
    obtain made|⟨text,rfl,made⟩ := made
    · exact made
    · exact made
  subst protects
  obtain ⟨sealer,key,f,emits,bytes,_⟩ := DataProtector.protect_success ok
  obtain rfl := Option.some.inj (found.symm.trans emits.ready.cipher_found)
  rw [bytes] at small ⊢
  have start : s.Resolves (s.services.protectors k).config.keyID
      (s.services.protectors k).config.algorithm cipher key := ⟨found,emits.ready.key_found⟩
  obtain ⟨found',keyed'⟩ := run_resolves platform start
    (.call allocates (.dataProtect k plaintext context)::cs) (by
      intro c hc
      rcases List.mem_cons.mp hc with rfl|hc
      · trivial
      · exact spares c hc)
  have cipher_found : host.ciphers.find (s.services.protectors k).config.algorithm=some cipher :=
    found'
  have key_found : host.keys.getKey (s.services.protectors k).config.keyID
      (s.services.protectors k).config.algorithm=some key := keyed'
  obtain ⟨result,plain⟩ := emits.unprotects fits opens valid same cipher_found key_found rfl bounded
    small
  refine ⟨result,plain,?_⟩
  intro destination
  rw [DataProtector.unprotectString]
  rw [if_neg (by rw [result]; decide),result,plain]

theorem protected_survives_rekeyed :
    let platform : Platform UInt8 := ⟨DeterministicRandom,64⟩
    let s : Site Unit Unit StaticKeyProvider UInt8 := {
      ciphers := (AeadCipherRegistry.empty.register (TinyCipher .testOnly 2 2 2)).2
      keys := (StaticKeyProvider.empty.add {} 1 .testOnly (.bytes [1,2])).2
      services := Deployment.new (fun _ => {}) (fun _ => {algorithm := .testOnly}) 1 }
    let grants : Nat → Bool := fun _ => true
    let out := DataProtector.protect (s.host StaticKeyProvider.store platform grants)
      (s.services.protectors ()) 1 (.bytes [9]) (.bytes [5])
    let now := (machine Unit Unit StaticKeyProvider.store platform).after s
      [.call grants (.dataProtect () (.bytes [9]) (.bytes [5])),
        .changeKeys (.add {} 2 .testOnly (.bytes [7,7])),
        .call grants (.dataSetConfig () {algorithm := .testOnly,keyID := 2})]
    ((now.services.protectors ()).unprotect (now.host StaticKeyProvider.store platform grants)
      (.bytes out.output) (.bytes [5])).plaintext=[9] := by
  intro platform s grants out now
  refine (protected_survives platform s grants () (.bytes [9]) (.bytes [5])
    (TinyCipher .testOnly 2 2 2) rfl ⟨by decide,by decide,by decide⟩
    (TinyCipher.opens .testOnly 2 2 2) out (Or.inl rfl) (by decide) (by decide)
    [.changeKeys (.add {} 2 .testOnly (.bytes [7,7])),
      .call grants (.dataSetConfig () {algorithm := .testOnly,keyID := 2})]
    ?_ () grants (.bytes [5]) rfl rfl (by decide)).2.1
  intro c hc
  simp only [List.mem_cons,List.not_mem_nil,or_false] at hc
  rcases hc with rfl|rfl
  · show ((2 : UInt32),AeadAlgorithm.testOnly)≠((1 : UInt32),AeadAlgorithm.testOnly)
    decide
  · trivial

end Site
end ESPressioSecurity
