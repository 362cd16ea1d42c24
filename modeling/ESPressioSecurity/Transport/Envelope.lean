import ESPressioSecurity.Transport.Security

namespace ESPressioSecurity

open Framework

namespace TransportSecurity

variable {ρ : Type}

/-- The envelope as the wire format means it: a header and the three parts whose lengths it states. -/
@[ext] structure Envelope where
  header : Header
  nonce : Bytes
  ciphertext : Bytes
  tag : Bytes
  nonce_length : nonce.length=header.nonceLength.toNat
  ciphertext_length : ciphertext.length=header.ciphertextLength.toNat
  tag_length : tag.length=header.tagLength.toNat

namespace Envelope

def bytes (e : Envelope) : Bytes := e.header.bytes++e.nonce++e.ciphertext++e.tag

theorem bytes_length (e : Envelope) : e.bytes.length=
    44+e.header.nonceLength.toNat+e.header.ciphertextLength.toNat+e.header.tagLength.toNat := by
  simp [bytes,e.nonce_length,e.ciphertext_length,e.tag_length]
  omega

theorem readHeader_bytes (e : Envelope) : readHeader e.bytes=some e.header := by
  simp only [bytes,List.append_assoc]
  exact readHeader_append e.header _

theorem bytes_injective {e f : Envelope} (h : e.bytes=f.bytes) : e=f := by
  have hh : e.header=f.header := by
    have hr := e.readHeader_bytes
    rw [h,f.readHeader_bytes] at hr
    exact (Option.some.inj hr).symm
  have hn : e.nonce.length=f.nonce.length := by rw [e.nonce_length,f.nonce_length,hh]
  have hc : e.ciphertext.length=f.ciphertext.length := by
    rw [e.ciphertext_length,f.ciphertext_length,hh]
  simp only [bytes] at h
  obtain ⟨h1,ht⟩ := List.append_inj h (by simp [hn,hc])
  obtain ⟨h2,hc⟩ := List.append_inj h1 (by simp [hn])
  obtain ⟨_,hn⟩ := List.append_inj h2 (by simp)
  exact Envelope.ext hh hn hc ht

/-- An input whose header states lengths that add up to its size is an envelope, and the slices the
decoder takes are its parts. -/
theorem of_header {i : Bytes} {h : Header} (hr : readHeader i=some h)
    (hl : 44+h.nonceLength.toNat+h.ciphertextLength.toNat+h.tagLength.toNat=i.length) :
    ∃ e : Envelope,e.header=h ∧ e.bytes=i ∧ e.nonce=slice i 44 h.nonceLength.toNat ∧
      e.ciphertext=slice i (44+h.nonceLength.toNat) h.ciphertextLength.toNat ∧
      e.tag=slice i (44+h.nonceLength.toNat+h.ciphertextLength.toNat) h.tagLength.toNat := by
  obtain ⟨_,ht⟩ := (readHeader_iff i h).mp hr
  refine ⟨⟨h,_,_,_,slice_length i _ _ (by omega),slice_length i _ _ (by omega),
    slice_length i _ _ (by omega)⟩,rfl,?_,rfl,rfl,rfl⟩
  show h.bytes++_++_++_=i
  rw [← ht,take_slice,take_slice,take_slice,hl,List.take_length]

end Envelope

end TransportSecurity
end ESPressioSecurity
