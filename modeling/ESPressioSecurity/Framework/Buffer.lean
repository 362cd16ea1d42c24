import ESPressioSecurity.Framework.LittleEndian

namespace ESPressioSecurity.Framework

/-- Storage of exactly `n` bytes; a callee handed it cannot write outside. -/
abbrev Block (n : Nat) := {b : Bytes // b.length=n}

/-- The `len` bytes that start at offset `off`, cut off where the storage ends. -/
def slice (b : Bytes) (off len : Nat) : Bytes := (b.drop off).take len

/-- Vector resize: kept bytes stay, new ones are zero. -/
def resize (b : Bytes) (n : Nat) : Bytes := b.take n++List.replicate (n-b.length) 0

/-- Storing `v` in place from offset `off`. -/
def overwrite (b : Bytes) (off : Nat) (v : Bytes) : Bytes :=
  b.take off++v++b.drop (off+v.length)

/-- Vector clear. -/
def clear (_ : Bytes) : Bytes := []

theorem resize_of_le (b : Bytes) (n : Nat) (h : b.length≤n) :
    resize b n=b++List.replicate (n-b.length) 0 := by
  rw [resize,List.take_of_length_le h]

theorem slice_length (b : Bytes) (off len : Nat) (h : off+len≤b.length) :
    (slice b off len).length=len := by
  simp [slice]
  omega

/-- The range right after a prefix of known length. -/
theorem slice_middle (a b c : Bytes) (off len : Nat) (ha : a.length=off) (hb : b.length=len) :
    slice (a++b++c) off len=b := by
  subst ha; subst hb
  simp [slice]

theorem overwrite_middle (a b c v : Bytes) (off : Nat) (ha : a.length=off)
    (hv : v.length=b.length) : overwrite (a++b++c) off v=a++v++c := by
  subst ha
  simp [overwrite,hv]

theorem resize_zeros (b : Bytes) (off n : Nat) (hb : b.length=off) :
    resize b (off+n)=b++List.replicate n 0 := by
  rw [resize_of_le _ _ (by omega),hb,Nat.add_sub_cancel_left]

/-- Storing into the zeroed rest of a buffer, right after what it holds already. -/
theorem overwrite_zeros (b v : Bytes) (off n rest : Nat) (hb : b.length=off) (hv : v.length=n) :
    overwrite (b++List.replicate (n+rest) 0) off v=b++v++List.replicate rest 0 := by
  have split : List.replicate (n+rest) (0 : UInt8)=List.replicate n 0++List.replicate rest 0 :=
    List.replicate_append_replicate.symm
  rw [split,← List.append_assoc]
  exact overwrite_middle _ _ _ _ off hb (by simp [hv])

/-- Two parts stored one after the other fill the zeroed rest of the buffer. -/
theorem stored_parts (front u v : Bytes) (off m n : Nat) (hf : front.length=off)
    (hu : u.length=m) (hv : v.length=n) :
    overwrite (overwrite (front++List.replicate (m+n) 0) off u) (off+m) v=front++u++v := by
  have second := overwrite_zeros (front++u) v (off+m) n 0 (by simp [hf,hu]) hv
  rw [overwrite_zeros front u off m n hf hu]
  simpa using second

/-- Consecutive ranges put together again. -/
theorem take_slice (b : Bytes) (off len : Nat) : b.take off++slice b off len=b.take (off+len) :=
  List.take_add.symm

/-- A prefix is known part by part. -/
theorem take_eq_append (b u v : Bytes) (off len : Nat) (hu : u.length=off) (hv : v.length=len)
    (h : off+len≤b.length) : b.take (off+len)=u++v ↔ b.take off=u ∧ slice b off len=v := by
  rw [← take_slice]
  constructor
  · intro he
    exact List.append_inj he (by simp; omega)
  · intro ⟨h1,h2⟩
    rw [h1,h2]

theorem slice_zero (b : Bytes) (len : Nat) : slice b 0 len=b.take len := rfl

/-- Reading a field of fixed width is knowing its bytes. -/
theorem slice_ofLE (i : Bytes) (o n v : Nat) (h : o+n ≤ i.length) (hv : v<256^n) :
    ofLE (slice i o n)=v ↔ slice i o n=toLE n v := by
  have hs := slice_length i o n h
  constructor
  · intro he
    have hh := toLE_ofLE (slice i o n)
    rw [hs,he] at hh
    exact hh.symm
  · intro he
    rw [he,ofLE_toLE_of_lt n v hv]

theorem slice_ofLE_lt (i : Bytes) (o n : Nat) (h : o+n ≤ i.length) :
    ofLE (slice i o n)<256^n := by
  have hh := ofLE_lt (slice i o n)
  rwa [slice_length i o n h] at hh

theorem slice_one (b : Bytes) (off : Nat) (h : off<b.length) : slice b off 1=[b.getD off 0] := by
  rw [slice,List.drop_eq_getElem_cons h,List.getD_eq_getElem b 0 h]
  rfl

/-- Three parts of stated lengths follow a front part and end where the storage ends: they lie inside
it one after the other and leave nothing out. -/
structure Partition (b : Bytes) (front u v w : Nat) : Prop where
  total : front+u+v+w=b.length
  first : (slice b front u).length=u
  second : (slice b (front+u) v).length=v
  third : (slice b (front+u+v) w).length=w
  cover : b.take front++slice b front u++slice b (front+u) v++slice b (front+u+v) w=b

theorem Partition.of_total {b : Bytes} {front u v w : Nat} (h : front+u+v+w=b.length) :
    Partition b front u v w := by
  refine ⟨h,slice_length b _ _ (by omega),slice_length b _ _ (by omega),
    slice_length b _ _ (by omega),?_⟩
  rw [take_slice,take_slice,take_slice,h,List.take_length]

end ESPressioSecurity.Framework
