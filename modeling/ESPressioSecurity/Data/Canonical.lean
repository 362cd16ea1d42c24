import ESPressioSecurity.Data.Protect
import ESPressioSecurity.Data.Unprotect
import ESPressioSecurity.Model.TestDoubles

namespace ESPressioSecurity

open Framework

namespace DataProtector

variable {ρ σ : Type}

/-- An envelope that `Unprotect` accepts, with the header and plaintext it gives; its lengths do not
wrap `size_t`. -/
structure Decodes (host : Host ρ) (d : DataProtector) (b : Bytes) (context : Span) (h : Header)
    (p : Bytes) : Prop where
  read : readHeader b=some h
  noWrap : NoWrap host h
  ok : (unprotect host d (.bytes b) context).result.success=true
  plaintext : (unprotect host d (.bytes b) context).plaintext=p

/-- The nonce bytes of an envelope with the given header. -/
def nonceOf (b : Bytes) (h : Header) : Bytes := slice b 18 h.nonceSize.toNat

/-- An accepted envelope is a frame, and one `Open` on the parts of the frame gave its plaintext. -/
theorem Decodes.frame {host : Host ρ} {d : DataProtector} {b : Bytes} {context : Span} {h : Header}
    {p : Bytes} (decodes : Decodes host d b context h p) :
    ∃ (f : Frame) (cipher : IAeadCipher) (key : KeyMaterialView),f.header=h ∧ f.bytes=b ∧
      f.Sized ∧ Admitted host d b context h cipher key ∧
      (cipher.aeadOpen key.data f.nonce (f.header.bytes++context.content) f.ciphertext
        f.tag).ok=true ∧
      (cipher.aeadOpen key.data f.nonce (f.header.bytes++context.content) f.ciphertext
        f.tag).plaintext.val=p := by
  obtain ⟨data,h',cipher,key,same,admitted,opened,plain⟩ := unprotect_success decodes.ok
  obtain rfl := Span.bytes.inj same
  obtain rfl := Option.some.inj (decodes.read.symm.trans admitted.read)
  obtain ⟨f,rfl,bytes,sized⟩ := Frame.of_header decodes.read (admitted.length decodes.noWrap)
  obtain ⟨ok,value⟩ := opening_frame sized context admitted.context_valid cipher key
  rw [bytes] at ok value
  rw [opened] at ok
  rw [decodes.plaintext] at plain
  exact ⟨f,cipher,key,rfl,bytes,sized,admitted,ok.symm,value.symm.trans plain.symm⟩

theorem Decodes.nonce_eq {b : Bytes} {f : Frame} (bytes : f.bytes=b) (sized : f.Sized) :
    nonceOf b f.header=f.nonce := by
  rw [nonceOf,← bytes]
  exact Frame.slice_nonce sized

/-- The header that `Protect` writes for the algorithm and key of an accepted envelope is its header:
the version is checked, and the sizes are those of the cipher and the plaintext. -/
theorem Decodes.header_eq {host : Host ρ} {d : DataProtector} {b : Bytes} {context : Span}
    {f : Frame} {cipher : IAeadCipher} {key : KeyMaterialView} (sized : f.Sized)
    (admitted : Admitted host d b context f.header cipher key) (config : DataProtectionConfig)
    (algorithm : config.algorithm=f.header.algorithm) (keyID : config.keyID=f.header.keyID)
    (plaintext : Span) (size : plaintext.size=f.ciphertext.length) :
    outboundHeader ⟨config⟩ cipher plaintext=f.header := by
  have nonce : UInt16.ofNat cipher.nonceSize=f.header.nonceSize := by
    rw [← admitted.nonce_size]
    exact UInt16.ofNat_toNat
  have tag : UInt16.ofNat cipher.tagSize=f.header.tagSize := by
    rw [← admitted.tag_size]
    exact UInt16.ofNat_toNat
  have plain : UInt32.ofNat plaintext.size=f.header.plaintextSize := by
    rw [size,sized.ciphertext]
    exact UInt32.ofNat_toNat
  exact Header.ext admitted.version.symm algorithm keyID nonce tag plain

/-- Protecting what an envelope gave, under its algorithm, key ID and nonce, makes the envelope again. -/
theorem Decodes.reprotect {host : Host ρ} {d : DataProtector} {b : Bytes} {context : Span}
    {h : Header} {p : Bytes} (decodes : Decodes host d b context h p)
    (inverse : ∀ a cipher,host.ciphers.find a=some cipher → SealsOpened cipher)
    {host' : Host σ} (ciphers : host'.ciphers=host.ciphers) (keys : host'.keys=host.keys)
    {config : DataProtectionConfig} (algorithm : config.algorithm=h.algorithm)
    (keyID : config.keyID=h.keyID)
    (limit : config.maximumPlaintextBytes=d.config.maximumPlaintextBytes) {r : σ}
    (filled : (host'.random.fill r h.nonceSize.toNat).ok=true)
    (nonce : (host'.random.fill r h.nonceSize.toNat).bytes.val=nonceOf b h)
    {plaintext : Span} (valid : plaintext.invalid=false) (content : plaintext.content=p) :
    (protect host' ⟨config⟩ r plaintext context).result=.ok true ∧
    (protect host' ⟨config⟩ r plaintext context).output=b := by
  obtain ⟨f,cipher,key,rfl,bytes,sized,admitted,opened,plain⟩ := decodes.frame
  have tag_length : f.tag.length=cipher.tagSize := sized.tag.trans admitted.tag_size
  obtain ⟨sealed,ciphertext,tag⟩ := inverse _ cipher admitted.cipher_found key.data f.nonce
    (f.header.bytes++context.content) f.ciphertext f.tag tag_length opened
  have length : p.length=f.ciphertext.length := by
    rw [← plain]
    exact (cipher.aeadOpen key.data f.nonce (f.header.bytes++context.content) f.ciphertext
      f.tag).plaintext.property
  have size : plaintext.size=f.ciphertext.length := by
    rw [plaintext.size_eq valid,content,length]
  have header := Decodes.header_eq sized admitted config algorithm keyID plaintext size
  have hk : f.header.keyID≠0 := ((readHeader_iff _ _).mp admitted.read).2.2
  have ready : Ready host' ⟨config⟩ plaintext context cipher key := by
    refine ⟨valid,admitted.context_valid,?_,?_,?_,?_,admitted.key_size⟩
    · exact keyID ▸ hk
    · have bounded := admitted.bounded
      rw [← sized.ciphertext,← size] at bounded
      exact bounded.trans (le_of_eq limit.symm)
    · rw [ciphers,algorithm]
      exact admitted.cipher_found
    · rw [keys,keyID,algorithm]
      exact admitted.key_found
  rw [Decodes.nonce_eq bytes sized,admitted.nonce_size] at nonce
  rw [admitted.nonce_size] at filled
  rw [plain,← content] at sealed ciphertext tag
  have ok : (protect host' ⟨config⟩ r plaintext context).result.success=true := by
    refine (proceeds_iff ready.cipher_found).mpr ⟨key,ready,filled,?_⟩
    rw [nonce,header]
    exact sealed
  obtain ⟨cipher',key',g,emits,output,_⟩ := protect_success ok
  obtain ⟨rfl,rfl⟩ := ready.unique emits.ready
  have same_nonce : g.nonce=f.nonce := emits.nonce.trans nonce
  have same_header : g.header=f.header := emits.header.trans header
  have same_ciphertext := emits.ciphertext
  have same_tag := emits.tag
  rw [same_nonce,same_header] at same_ciphertext same_tag
  refine ⟨protect_ok ok,?_⟩
  rw [output,← bytes,Frame.bytes,Frame.bytes,same_header,same_nonce,same_tag.trans tag,
    same_ciphertext.trans ciphertext]

/-- Accepted envelopes with the same algorithm, key ID, nonce, context and plaintext are the same. -/
theorem Decodes.unique {host : Host ρ}
    (inverse : ∀ a cipher,host.ciphers.find a=some cipher → SealsOpened cipher)
    {d d' : DataProtector} {b b' : Bytes} {context context' : Span} {h h' : Header} {p : Bytes}
    (decodes : Decodes host d b context h p) (decodes' : Decodes host d' b' context' h' p)
    (algorithm : h.algorithm=h'.algorithm) (keyID : h.keyID=h'.keyID)
    (nonce : nonceOf b h=nonceOf b' h') (contexts : context.content=context'.content) : b=b' := by
  obtain ⟨f,cipher,key,rfl,bytes,sized,admitted,opened,plain⟩ := decodes.frame
  obtain ⟨g,cipher',key',rfl,bytes',sized',admitted',opened',plain'⟩ := decodes'.frame
  have found := admitted'.cipher_found
  rw [← algorithm] at found
  obtain rfl := Option.some.inj (found.symm.trans admitted.cipher_found)
  have stored := admitted'.key_found
  rw [← algorithm,← keyID] at stored
  obtain rfl := Option.some.inj (stored.symm.trans admitted.key_found)
  have length : f.ciphertext.length=g.ciphertext.length := by
    have left := (cipher'.aeadOpen key'.data f.nonce (f.header.bytes++context.content) f.ciphertext
      f.tag).plaintext.property
    have right := (cipher'.aeadOpen key'.data g.nonce (g.header.bytes++context'.content)
      g.ciphertext g.tag).plaintext.property
    rw [plain] at left
    rw [plain'] at right
    exact left.symm.trans right
  have sizes : f.header.nonceSize=g.header.nonceSize ∧ f.header.tagSize=g.header.tagSize ∧
      f.header.plaintextSize=g.header.plaintextSize := by
    refine ⟨UInt16.toNat_inj.mp ?_,UInt16.toNat_inj.mp ?_,UInt32.toNat_inj.mp ?_⟩
    · rw [admitted.nonce_size,admitted'.nonce_size]
    · rw [admitted.tag_size,admitted'.tag_size]
    · rw [← sized.ciphertext,← sized'.ciphertext,length]
  have header : f.header=g.header :=
    Header.ext (admitted.version.trans admitted'.version.symm) algorithm keyID sizes.1 sizes.2.1
      sizes.2.2
  rw [nonce_eq bytes sized,nonce_eq bytes' sized'] at nonce
  obtain ⟨_,ciphertext,tag⟩ := inverse _ _ admitted.cipher_found key'.data f.nonce
    (f.header.bytes++context.content) f.ciphertext f.tag
    (sized.tag.trans admitted.tag_size) opened
  obtain ⟨_,ciphertext',tag'⟩ := inverse _ _ admitted'.cipher_found key'.data g.nonce
    (g.header.bytes++context'.content) g.ciphertext g.tag
    (sized'.tag.trans admitted'.tag_size) opened'
  rw [plain] at ciphertext tag
  rw [plain',← header,← nonce,← contexts] at ciphertext' tag'
  rw [← bytes,← bytes',Frame.bytes,Frame.bytes,header,nonce,
    ← ciphertext,← tag,ciphertext',tag']

/-- An accepted envelope says how long it is, so none goes on where another ends. -/
theorem Decodes.prefix_eq {host : Host ρ} {host' : Host σ} {d d' : DataProtector} {b b' : Bytes}
    {context context' : Span} {h h' : Header} {p p' : Bytes}
    (decodes : Decodes host d b context h p) (decodes' : Decodes host' d' b' context' h' p')
    (front : b <+: b') : b=b' := by
  obtain ⟨f,cipher,key,rfl,bytes,sized,admitted,_⟩ := decodes.frame
  obtain ⟨g,cipher',key',rfl,bytes',sized',admitted',_⟩ := decodes'.frame
  have same : f.header=g.header := by
    obtain ⟨hl,ht,_⟩ := (readHeader_iff _ _).mp decodes.read
    obtain ⟨_,ht',_⟩ := (readHeader_iff _ _).mp decodes'.read
    obtain ⟨rest,rfl⟩ := front
    rw [List.take_append_of_le_length hl,ht] at ht'
    exact Header.bytes_injective ht'
  have length := admitted.length decodes.noWrap
  have length' := admitted'.length decodes'.noWrap
  rw [same,length'] at length
  exact front.eq_of_length length.symm

/-- Encoding undoes decoding, byte for byte; what an envelope gives determines it together with its
algorithm, key ID, nonce and context; and no accepted envelope is a proper prefix of another. -/
theorem envelopes_canonical (host : Host ρ)
    (inverse : ∀ a cipher,host.ciphers.find a=some cipher → SealsOpened cipher) :
    (∀ d b context h p,Decodes host d b context h p →
      ∀ (host' : Host σ) (config : DataProtectionConfig) (r : σ) (plaintext : Span),
        host'.ciphers=host.ciphers → host'.keys=host.keys → config.algorithm=h.algorithm →
        config.keyID=h.keyID → config.maximumPlaintextBytes=d.config.maximumPlaintextBytes →
        (host'.random.fill r h.nonceSize.toNat).ok=true →
        (host'.random.fill r h.nonceSize.toNat).bytes.val=nonceOf b h →
        plaintext.invalid=false → plaintext.content=p →
        (protect host' ⟨config⟩ r plaintext context).result=.ok true ∧
        (protect host' ⟨config⟩ r plaintext context).output=b) ∧
    (∀ d d' b b' context context' h h' p,Decodes host d b context h p →
      Decodes host d' b' context' h' p → h.algorithm=h'.algorithm → h.keyID=h'.keyID →
      nonceOf b h=nonceOf b' h' → context.content=context'.content → b=b') ∧
    ∀ d d' b b' context context' h h' p p',Decodes host d b context h p →
      Decodes host d' b' context' h' p' → b <+: b' → b=b' := by
  refine ⟨?_,?_,?_⟩
  · intro d b context h p decodes host' config r plaintext ciphers keys algorithm keyID limit filled
      nonce valid content
    exact decodes.reprotect inverse ciphers keys algorithm keyID limit filled nonce valid content
  · intro d d' b b' context context' h h' p decodes decodes' algorithm keyID nonce contexts
    exact decodes.unique inverse decodes' algorithm keyID nonce contexts
  · intro d d' b b' context context' h h' p p' decodes decodes' front
    exact decodes.prefix_eq decodes' front

theorem envelopes_canonical_byte :
    let host := testHost (TinyCipher .testOnly 2 2 2) 1 [1,2]
    let d : DataProtector := ⟨{algorithm := .testOnly}⟩
    let b : Bytes := [0x45,0x53,0x44,0x50,1,250,1,0,0,0,2,0,2,0,1,0,0,0,7,8,240,240,15]
    (protect host d 7 (.bytes [9]) (.bytes [5])).output=b := by
  intro host d b
  have inverse : ∀ a cipher,host.ciphers.find a=some cipher → SealsOpened cipher := by
    intro a cipher found
    obtain rfl := testHost_find found
    exact TinyCipher.reseals .testOnly 2 2 2
  have decodes : Decodes host d b (.bytes [5]) ⟨1,.testOnly,1,2,2,1⟩ [9] :=
    ⟨by decide,noWrap_of_bits (by decide) _,by decide,by decide⟩
  exact ((envelopes_canonical host inverse).1 d b (.bytes [5]) _ [9] decodes host d.config 7
    (.bytes [9]) rfl rfl rfl rfl rfl rfl (by decide) rfl rfl).2

end DataProtector
end ESPressioSecurity
