import ESPressioSecurity.Data.Protector

namespace ESPressioSecurity

open Framework

namespace DataProtector

variable {ρ σ : Type}

/-- A header followed by nonce, tag and ciphertext; the header may state other sizes than theirs. -/
structure Frame where
  header : Header
  nonce : Bytes
  tag : Bytes
  ciphertext : Bytes

namespace Frame

def bytes (f : Frame) : Bytes := f.header.bytes++f.nonce++f.tag++f.ciphertext

/-- The header states the sizes of the parts. -/
structure Sized (f : Frame) : Prop where
  nonce : f.nonce.length=f.header.nonceSize.toNat
  tag : f.tag.length=f.header.tagSize.toNat
  ciphertext : f.ciphertext.length=f.header.plaintextSize.toNat

theorem readHeader_bytes (f : Frame) (hk : f.header.keyID≠0) :
    readHeader f.bytes=some f.header := by
  simp only [bytes,List.append_assoc]
  exact readHeader_append f.header hk _

theorem bytes_length (f : Frame) :
    f.bytes.length=18+f.nonce.length+f.tag.length+f.ciphertext.length := by
  simp [bytes]
  omega

theorem slice_nonce {f : Frame} (h : f.Sized) :
    slice f.bytes 18 f.header.nonceSize.toNat=f.nonce := by
  rw [bytes,List.append_assoc]
  exact slice_middle _ _ _ _ _ f.header.bytes_length h.nonce

theorem slice_tag {f : Frame} (h : f.Sized) :
    slice f.bytes (18+f.header.nonceSize.toNat) f.header.tagSize.toNat=f.tag :=
  slice_middle _ _ _ _ _ (by simp [h.nonce]) h.tag

theorem slice_ciphertext {f : Frame} (h : f.Sized) :
    slice f.bytes (18+f.header.nonceSize.toNat+f.header.tagSize.toNat)
      f.header.plaintextSize.toNat=f.ciphertext := by
  have last := slice_middle (f.header.bytes++f.nonce++f.tag) f.ciphertext []
    (18+f.header.nonceSize.toNat+f.header.tagSize.toNat) _
    (by simp [h.nonce,h.tag,Nat.add_assoc]) h.ciphertext
  rw [List.append_nil] at last
  exact last

theorem slice_header (f : Frame) : slice f.bytes 0 18=f.header.bytes := by
  rw [bytes,List.append_assoc,List.append_assoc,slice_zero]
  exact List.take_left' f.header.bytes_length

/-- An input whose header states sizes that add up to its length is a frame of its own slices. -/
theorem of_header {data : Bytes} {h : Header} (hr : readHeader data=some h)
    (hl : 18+h.nonceSize.toNat+h.tagSize.toNat+h.plaintextSize.toNat=data.length) :
    ∃ f : Frame,f.header=h ∧ f.bytes=data ∧ f.Sized := by
  obtain ⟨_,ht,_⟩ := (readHeader_iff data h).mp hr
  refine ⟨⟨h,slice data 18 h.nonceSize.toNat,slice data (18+h.nonceSize.toNat) h.tagSize.toNat,
    slice data (18+h.nonceSize.toNat+h.tagSize.toNat) h.plaintextSize.toNat⟩,rfl,?_,
    ⟨slice_length _ _ _ (by omega),slice_length _ _ _ (by omega),slice_length _ _ _ (by omega)⟩⟩
  rw [bytes,← ht,take_slice,take_slice,take_slice,hl,List.take_length]

end Frame

/-- With a valid context both ways of putting the associated data together agree. -/
theorem associatedData_eq (data : Bytes) (context : Span) (valid : context.invalid=false) :
    associatedData data context=slice data 0 18++context.content := by
  have hs := context.size_eq valid
  rw [associatedData]
  split_ifs with h
  · rfl
  · have empty : context.content=[] := List.eq_nil_of_length_eq_zero (by omega)
    rw [empty,List.append_nil]
    rfl

end DataProtector
end ESPressioSecurity
