import ESPressioSecurity.Data.Envelope

namespace ESPressioSecurity

open Framework

namespace DataProtector

variable {ρ : Type}

/-- All that `Unprotect` checks before it asks for the plaintext buffer. -/
structure Checked (host : Host ρ) (d : DataProtector) (data : Bytes) (context : Span) (h : Header)
    (cipher : IAeadCipher) (key : KeyMaterialView) : Prop where
  context_valid : context.invalid=false
  read : readHeader data=some h
  version : h.version=formatVersion
  bounded : h.plaintextSize.toNat≤d.config.maximumPlaintextBytes
  cipher_found : host.ciphers.find h.algorithm=some cipher
  nonce_size : h.nonceSize.toNat=cipher.nonceSize
  tag_size : h.tagSize.toNat=cipher.tagSize
  size : expectedSize host h=data.length
  key_found : host.keys.getKey h.keyID h.algorithm=some key
  key_size : key.size=cipher.keySize

/-- What gets to `Open`: the checks have passed and the plaintext buffer has been granted. -/
structure Admitted (host : Host ρ) (d : DataProtector) (data : Bytes) (context : Span) (h : Header)
    (cipher : IAeadCipher) (key : KeyMaterialView) : Prop
    extends Checked host d data context h cipher key where
  room : h.plaintextSize.toNat≤SecurityBuffer.maxSize host.sizeBits

/-- The `Open` call on the parts a header delimits. -/
def opening (data : Bytes) (context : Span) (h : Header) (cipher : IAeadCipher)
    (key : KeyMaterialView) :
    OpenOutcome (slice data (18+h.nonceSize.toNat+h.tagSize.toNat) h.plaintextSize.toNat).length :=
  cipher.aeadOpen key.data (slice data 18 h.nonceSize.toNat) (associatedData data context)
    (slice data (18+h.nonceSize.toNat+h.tagSize.toNat) h.plaintextSize.toNat)
    (slice data (18+h.nonceSize.toNat) h.tagSize.toNat)

def openCall (data : Bytes) (context : Span) (h : Header) (cipher : IAeadCipher)
    (key : KeyMaterialView) : OpenCall :=
  ⟨key.data,slice data 18 h.nonceSize.toNat,associatedData data context,
    slice data (18+h.nonceSize.toNat+h.tagSize.toNat) h.plaintextSize.toNat,
    slice data (18+h.nonceSize.toNat) h.tagSize.toNat,
    (opening data context h cipher key).ok,(opening data context h cipher key).plaintext.val⟩

/-- The plaintext buffer is granted and `Open` called on it. -/
def openingEffects (data : Bytes) (context : Span) (h : Header) (cipher : IAeadCipher)
    (key : KeyMaterialView) : List Effect :=
  [.resized ⟨h.plaintextSize.toNat,true⟩,.opened (openCall data context h cipher key)]

/-- What holds where `Unprotect` has got past its check of the total length. -/
structure LengthChecked (host : Host ρ) (d : DataProtector) (data : Bytes) (context : Span)
    (h : Header) (cipher : IAeadCipher) : Prop where
  context_valid : context.invalid=false
  read : readHeader data=some h
  version : h.version=formatVersion
  bounded : h.plaintextSize.toNat≤d.config.maximumPlaintextBytes
  cipher_found : host.ciphers.find h.algorithm=some cipher
  nonce_size : h.nonceSize.toNat=cipher.nonceSize
  tag_size : h.tagSize.toNat=cipher.tagSize
  size : expectedSize host h=data.length

/-- What `Unprotect` does after that check. -/
def unprotectChecked (host : Host ρ) (data : Bytes) (context : Span) (h : Header)
    (cipher : IAeadCipher) : UnprotectOutcome :=
  match host.keys.getKey h.keyID h.algorithm with
  | none => reject [] .missingKey "Protected-data key is unavailable"
  | some key =>
    if key.size≠cipher.keySize then
      reject [] .invalidKeyLength "Protected-data key length is invalid"
    else openEnvelope host data context h cipher key

theorem unprotect_lengthChecked {host : Host ρ} {d : DataProtector} {data : Bytes}
    {context : Span} {h : Header} {cipher : IAeadCipher}
    (checked : LengthChecked host d data context h cipher) :
    unprotect host d (.bytes data) context=unprotectChecked host data context h cipher := by
  have hl := ((readHeader_iff data h).mp checked.read).1
  have ha : ¬(data.length<headerSize ∨ context.invalid=true) := by
    simp only [headerSize,checked.context_valid]
    simp [hl]
  have hn : ¬(h.nonceSize.toNat≠cipher.nonceSize ∨ h.tagSize.toNat≠cipher.tagSize) := by
    simp [checked.nonce_size,checked.tag_size]
  rw [unprotect,if_neg ha,checked.read]
  dsimp only
  rw [if_neg (fun hv => hv checked.version),if_neg (Nat.not_lt.mpr checked.bounded),
    checked.cipher_found]
  dsimp only
  rw [if_neg hn,if_neg (fun hs => hs checked.size)]
  rfl

theorem Checked.lengthChecked {host : Host ρ} {d : DataProtector} {data : Bytes} {context : Span}
    {h : Header} {cipher : IAeadCipher} {key : KeyMaterialView}
    (checked : Checked host d data context h cipher key) :
    LengthChecked host d data context h cipher :=
  ⟨checked.context_valid,checked.read,checked.version,checked.bounded,checked.cipher_found,
    checked.nonce_size,checked.tag_size,checked.size⟩

/-- What passes every check gets to the plaintext buffer. -/
theorem Checked.unprotect {host : Host ρ} {d : DataProtector} {data : Bytes} {context : Span}
    {h : Header} {cipher : IAeadCipher} {key : KeyMaterialView}
    (checked : Checked host d data context h cipher key) :
    unprotect host d (.bytes data) context=openEnvelope host data context h cipher key := by
  rw [unprotect_lengthChecked checked.lengthChecked]
  unfold unprotectChecked
  rw [checked.key_found]
  exact if_neg (fun hk => hk checked.key_size)

theorem Checked.thrown {host : Host ρ} {d : DataProtector} {data : Bytes} {context : Span}
    {h : Header} {cipher : IAeadCipher} {key : KeyMaterialView}
    (checked : Checked host d data context h cipher key)
    (large : SecurityBuffer.maxSize host.sizeBits<h.plaintextSize.toNat) :
    DataProtector.unprotect host d (.bytes data) context=throwLength h.plaintextSize.toNat := by
  rw [checked.unprotect]
  exact if_pos large

theorem Admitted.unprotect {host : Host ρ} {d : DataProtector} {data : Bytes} {context : Span}
    {h : Header} {cipher : IAeadCipher} {key : KeyMaterialView}
    (admitted : Admitted host d data context h cipher key) :
    DataProtector.unprotect host d (.bytes data) context=
      let effects := openingEffects data context h cipher key
      if (opening data context h cipher key).ok=false then
        reject effects .authenticationFailed "Protected data could not be authenticated or decrypted"
      else ⟨.ok true,(opening data context h cipher key).plaintext.val,effects⟩ := by
  rw [admitted.toChecked.unprotect]
  exact if_neg (Nat.not_lt.mpr admitted.room)

/-- Every `Unprotect` is rejected before authentication or gets to the plaintext buffer. -/
theorem unprotect_cases (host : Host ρ) (d : DataProtector) (protectedData context : Span) :
    (∃ error message,unprotect host d protectedData context=reject [] error message) ∨
    ∃ data h cipher key,protectedData=.bytes data ∧ Checked host d data context h cipher key := by
  cases protectedData with
  | null n => exact Or.inl ⟨_,_,rfl⟩
  | bytes data =>
    rw [unprotect]
    by_cases ha : data.length<headerSize ∨ context.invalid=true
    · exact Or.inl ⟨_,_,if_pos ha⟩
    rw [if_neg ha]
    cases hr : readHeader data with
    | none => exact Or.inl ⟨_,_,rfl⟩
    | some h =>
      dsimp only
      by_cases hv : h.version≠formatVersion
      · exact Or.inl ⟨_,_,if_pos hv⟩
      rw [if_neg hv]
      by_cases hb : h.plaintextSize.toNat>d.config.maximumPlaintextBytes
      · exact Or.inl ⟨_,_,if_pos hb⟩
      rw [if_neg hb]
      cases hc : host.ciphers.find h.algorithm with
      | none => exact Or.inl ⟨_,_,rfl⟩
      | some cipher =>
        dsimp only
        by_cases hn : h.nonceSize.toNat≠cipher.nonceSize ∨ h.tagSize.toNat≠cipher.tagSize
        · exact Or.inl ⟨_,_,if_pos hn⟩
        rw [if_neg hn]
        by_cases hs : expectedSize host h≠data.length
        · exact Or.inl ⟨_,_,if_pos hs⟩
        rw [if_neg hs]
        cases hk : host.keys.getKey h.keyID h.algorithm with
        | none => exact Or.inl ⟨_,_,rfl⟩
        | some key =>
          dsimp only
          by_cases hks : key.size≠cipher.keySize
          · exact Or.inl ⟨_,_,if_pos hks⟩
          simp only [not_or,not_not,Bool.not_eq_true] at ha hv hn hs hks
          exact Or.inr ⟨data,h,cipher,key,rfl,ha.2,hr,hv,Nat.not_lt.mp hb,hc,hn.1,hn.2,hs,hk,hks⟩

/-- A success has passed every check and authenticated. -/
theorem unprotect_success {host : Host ρ} {d : DataProtector} {protectedData context : Span}
    (h : (unprotect host d protectedData context).result.success=true) :
    ∃ data header cipher key,protectedData=.bytes data ∧
      Admitted host d data context header cipher key ∧
      (opening data context header cipher key).ok=true ∧
      (unprotect host d protectedData context).plaintext=
        (opening data context header cipher key).plaintext.val := by
  obtain ⟨error,message,he⟩|⟨data,header,cipher,key,rfl,checked⟩ :=
    unprotect_cases host d protectedData context
  · rw [he] at h
    exact absurd h (by simp [reject])
  by_cases large : SecurityBuffer.maxSize host.sizeBits<header.plaintextSize.toNat
  · rw [checked.thrown large] at h
    exact absurd h (by simp [throwLength])
  · have admitted : Admitted host d data context header cipher key := ⟨checked,Nat.not_lt.mp large⟩
    refine ⟨data,header,cipher,key,rfl,admitted,?_⟩
    rw [admitted.unprotect] at h ⊢
    dsimp only at h ⊢
    split_ifs at h ⊢ with ho
    · exact absurd h (by simp [reject])
    · exact ⟨Bool.eq_true_of_not_eq_false ho,rfl⟩

theorem unprotect_opened {host : Host ρ} {d : DataProtector} {data : Bytes} {context : Span}
    {h : Header} {cipher : IAeadCipher} {key : KeyMaterialView}
    (admitted : Admitted host d data context h cipher key)
    (opened : (opening data context h cipher key).ok=true) :
    (unprotect host d (.bytes data) context).result=.ok true ∧
    (unprotect host d (.bytes data) context).plaintext=
      (opening data context h cipher key).plaintext.val := by
  have ho : ¬(opening data context h cipher key).ok=false := by simp [opened]
  rw [admitted.unprotect]
  dsimp only
  rw [if_neg ho]
  exact ⟨rfl,rfl⟩

/-- On a frame the opening is `Open` on its parts, under its header and the context. -/
theorem opening_frame {f : Frame} (sized : f.Sized) (context : Span)
    (valid : context.invalid=false) (cipher : IAeadCipher) (key : KeyMaterialView) :
    (opening f.bytes context f.header cipher key).ok=(cipher.aeadOpen key.data f.nonce
      (f.header.bytes++context.content) f.ciphertext f.tag).ok ∧
    (opening f.bytes context f.header cipher key).plaintext.val=(cipher.aeadOpen key.data f.nonce
      (f.header.bytes++context.content) f.ciphertext f.tag).plaintext.val := by
  rw [opening,associatedData_eq _ _ valid,Frame.slice_nonce sized,Frame.slice_tag sized,
    Frame.slice_ciphertext sized,Frame.slice_header]
  exact ⟨rfl,rfl⟩

/-- A call asks for its plaintext buffer and opens, and does nothing else that can be seen. -/
theorem unprotect_only {host : Host ρ} {d : DataProtector} {protectedData context : Span}
    {e : Effect} (h : e∈(unprotect host d protectedData context).effects) :
    ∃ data header cipher key,protectedData=.bytes data ∧
      Checked host d data context header cipher key ∧
      (e=.resized ⟨header.plaintextSize.toNat,
        decide (header.plaintextSize.toNat≤SecurityBuffer.maxSize host.sizeBits)⟩ ∨
      Admitted host d data context header cipher key ∧
        e=.opened (openCall data context header cipher key)) := by
  obtain ⟨error,message,he⟩|⟨data,header,cipher,key,rfl,checked⟩ :=
    unprotect_cases host d protectedData context
  · rw [he] at h
    exact absurd h (by simp [reject])
  refine ⟨data,header,cipher,key,rfl,checked,?_⟩
  by_cases large : SecurityBuffer.maxSize host.sizeBits<header.plaintextSize.toNat
  · rw [checked.thrown large] at h
    refine Or.inl ?_
    rw [List.mem_singleton.mp h,decide_eq_false (Nat.not_le.mpr large)]
  · have admitted : Admitted host d data context header cipher key := ⟨checked,Nat.not_lt.mp large⟩
    have opens : e∈openingEffects data context header cipher key := by
      rw [admitted.unprotect] at h
      dsimp only at h
      split_ifs at h
      · exact h
      · exact h
    rcases List.mem_cons.mp opens with he|he
    · refine Or.inl ?_
      rw [he,decide_eq_true admitted.room]
    · exact Or.inr ⟨admitted,List.mem_singleton.mp he⟩

theorem unprotect_quiet (host : Host ρ) (d : DataProtector) (protectedData context : Span) :
    Quiet (unprotect host d protectedData context).effects := by
  intro call h
  obtain ⟨_,_,_,_,_,_,he|⟨_,he⟩⟩ := unprotect_only h
  · exact absurd he (by simp)
  · exact absurd he (by simp)

/-- The sizes stated by a header and the header itself add up below the range of `size_t`. -/
def NoWrap (host : Host ρ) (h : Header) : Prop :=
  18+h.nonceSize.toNat+h.tagSize.toNat+h.plaintextSize.toNat<2^host.sizeBits

theorem noWrap_of_bits {host : Host ρ} (bits : 33≤host.sizeBits) (h : Header) : NoWrap host h := by
  have wide : 2^33≤2^host.sizeBits := Nat.pow_le_pow_right (by decide) bits
  have hn := h.nonceSize.toNat_lt
  have ht := h.tagSize.toNat_lt
  have hp := h.plaintextSize.toNat_lt
  rw [NoWrap]
  omega

/-- Sizes whose plaintext buffer is granted do not wrap `size_t`. -/
theorem noWrap_of_room {host : Host ρ} (width : 32≤host.sizeBits) {h : Header}
    (room : h.plaintextSize.toNat≤SecurityBuffer.maxSize host.sizeBits) : NoWrap host h := by
  have half := SecurityBuffer.maxSize_half width
  have hn := h.nonceSize.toNat_lt
  have ht := h.tagSize.toNat_lt
  rw [NoWrap]
  omega

theorem Admitted.length {host : Host ρ} {d : DataProtector} {data : Bytes} {context : Span}
    {h : Header} {cipher : IAeadCipher} {key : KeyMaterialView}
    (admitted : Admitted host d data context h cipher key) (hw : NoWrap host h) :
    18+h.nonceSize.toNat+h.tagSize.toNat+h.plaintextSize.toNat=data.length := by
  have hm : expectedSize host h=18+h.nonceSize.toNat+h.tagSize.toNat+h.plaintextSize.toNat :=
    Nat.mod_eq_of_lt hw
  rw [← hm]
  exact admitted.size

end DataProtector
end ESPressioSecurity
