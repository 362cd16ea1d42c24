import Mathlib.Data.Nat.Bitwise
import Mathlib.Data.List.TakeDrop
import Mathlib.Tactic.Ring

namespace ESPressioSecurity.Framework

abbrev Bytes := List UInt8

/-- The `n` low bytes of a number, least significant first. -/
def toLE : Nat → Nat → Bytes
  | 0,_ => []
  | n+1,v => UInt8.ofNat v::toLE n (v >>> 8)

/-- Bytes joined by shift and or, least significant first. -/
def ofLE : Bytes → Nat
  | [] => 0
  | b::bs => b.toNat ||| (ofLE bs <<< 8)

@[simp] theorem toLE_length (n v : Nat) : (toLE n v).length=n := by
  induction n generalizing v with
  | zero => rfl
  | succ n ih => simp [toLE,ih]

/-- The joined fields do not overlap, so the or is a sum. -/
theorem ofLE_cons (b : UInt8) (bs : Bytes) : ofLE (b::bs)=b.toNat+256*ofLE bs := by
  have hb : b.toNat<2^8 := b.toNat_lt
  rw [ofLE,Nat.or_comm,← Nat.shiftLeft_add_eq_or_of_lt hb,Nat.shiftLeft_eq]
  ring

theorem ofLE_lt (bs : Bytes) : ofLE bs<256^bs.length := by
  induction bs with
  | nil => simp [ofLE]
  | cons b bs ih =>
    have hb : b.toNat<256 := b.toNat_lt
    rw [ofLE_cons,List.length_cons,pow_succ]
    omega

theorem ofLE_toLE (n v : Nat) : ofLE (toLE n v)=v%256^n := by
  induction n generalizing v with
  | zero => simp [toLE,ofLE,Nat.mod_one]
  | succ n ih =>
    have hb : (UInt8.ofNat v).toNat=v%256 := rfl
    have hs : v >>> 8=v/256 := Nat.shiftRight_eq_div_pow v 8
    rw [toLE,ofLE_cons,ih,hb,hs,pow_succ',Nat.mod_mul]

theorem ofLE_toLE_of_lt (n v : Nat) (hv : v<256^n) : ofLE (toLE n v)=v := by
  rw [ofLE_toLE,Nat.mod_eq_of_lt hv]

/-- Reading then writing restores the bytes, so a field of fixed width is canonical. -/
theorem toLE_ofLE (bs : Bytes) : toLE bs.length (ofLE bs)=bs := by
  induction bs with
  | nil => rfl
  | cons b bs ih =>
    have hb : b.toNat<256 := b.toNat_lt
    have head : UInt8.ofNat (ofLE (b::bs))=b := by
      apply UInt8.toNat_inj.mp
      show ofLE (b::bs)%256=b.toNat
      rw [ofLE_cons]
      omega
    have tail : ofLE (b::bs) >>> 8=ofLE bs := by
      rw [Nat.shiftRight_eq_div_pow,ofLE_cons]
      omega
    rw [List.length_cons,toLE,head,tail,ih]

end ESPressioSecurity.Framework
