import ESPressioSecurity.Model.TestDoubles
import ESPressioSecurity.Transport.Protect
import ESPressioSecurity.Transport.Unprotect

namespace ESPressioSecurity

open Framework

namespace TransportSecurity

variable {ρ σ : Type}

/-- The four bytes of the magic as they stand on the wire. -/
def magicBytes : Bytes := [0x45,0x53,0x50,0x53]

/-- Sniffing is a prefix test. -/
theorem looksProtected_iff_magic (b : Bytes) :
    looksProtected (.bytes b)=true ↔ magicBytes <+: b := by
  have encoded : toLE 4 envelopeMagic.toNat=magicBytes := by decide
  unfold looksProtected
  by_cases hl : b.length<4
  · have hn : ¬magicBytes <+: b := fun h => by
      have := h.length_le
      simp only [magicBytes,List.length_cons,List.length_nil] at this
      omega
    simp [hl,hn]
  · have hs : (slice b 0 4).length=4 := slice_length b 0 4 (by omega)
    have hlt := slice_ofLE_lt b 0 4 (by omega)
    have value : UInt32.ofNat (ofLE (slice b 0 4))=envelopeMagic ↔
        ofLE (slice b 0 4)=envelopeMagic.toNat := by
      rw [← UInt32.toNat_inj,UInt32.toNat_ofNat_of_lt' hlt]
    dsimp only
    rw [if_neg hl,decide_eq_true_iff,value,
      slice_ofLE b 0 4 _ (by omega) envelopeMagic.toNat_lt,encoded,slice_zero,
      List.prefix_iff_eq_take]
    exact eq_comm

/-- Plaintext that a `Protect` passed through arrives on a receiver that admits plaintext exactly
when it does not begin with the magic. -/
theorem plaintext_arrives_iff (host : Host ρ) (s : TransportSecurity) (r : ρ) (protocol : UInt8)
    (plaintext : Span) (receiver : Host σ) (t : TransportSecurity) (expectedProtocol : UInt8)
    (input : Span) (success : (protect host s r protocol plaintext).result.success=true)
    (plain : (protect host s r protocol plaintext).result.isProtected=false)
    (valid : input.invalid=false)
    (received : input.content=(protect host s r protocol plaintext).output)
    (policy : t.config.policy≠.required) :
    ((unprotect receiver t expectedProtocol input).result=.ok false ∧
      (unprotect receiver t expectedProtocol input).payload.data=plaintext.content) ↔
    ¬magicBytes <+: plaintext.content := by
  have content : input.content=plaintext.content := by
    obtain ⟨_,he⟩|⟨cipher,key,e,_,_,_,_,he⟩ := protect_success success
    · rw [received,he]
      rfl
    · rw [he] at plain
      exact absurd plain (by simp)
  have looks : looksProtected input=false ↔ ¬magicBytes <+: plaintext.content := by
    rw [← content]
    cases input with
    | null n => simp [looksProtected,Span.content,magicBytes]
    | bytes b =>
      rw [← Bool.not_eq_true,looksProtected_iff_magic]
      rfl
  rw [← looks]
  constructor
  · intro arrives
    have hr := arrives.1
    have ok : (unprotect receiver t expectedProtocol input).result.success=true := by
      rw [hr]
      rfl
    obtain ⟨_,hl,_,_⟩|⟨header,cipher,key,_,_,_,he⟩ := unprotect_success ok
    · exact hl
    · rw [he] at hr
      have hp := congrArg SecurityResult.isProtected hr
      exact absurd hp (by simp [accept])
  · intro hl
    unfold unprotect
    rw [if_neg (by simp [valid]),if_pos hl,if_neg policy]
    exact ⟨rfl,content⟩

theorem plaintext_arrives_text :
    let host := testHost (TinyCipher .testOnly 2 2 2) 1 [1,2]
    let s := new {policy := .disabled}
    let input : Span := .bytes (protect host s 1 3 (.bytes [0x68,0x69])).output
    (unprotect host s 3 input).payload.data=[0x68,0x69] := by
  intro host s input
  exact ((plaintext_arrives_iff host s 1 3 (.bytes [0x68,0x69]) host s 3 input (by decide)
    (by decide) rfl rfl (by decide)).mpr (by decide)).2

/-- The text `ESPS` leaves a sender without security and is refused by a receiver without security. -/
theorem plaintext_magic_refused :
    let host := testHost (TinyCipher .testOnly 2 2 2) 1 [1,2]
    let s := new {policy := .disabled}
    let out := protect host s 1 3 (.bytes [0x45,0x53,0x50,0x53])
    out.result=.ok false ∧ out.output=[0x45,0x53,0x50,0x53] ∧
    (unprotect host s 3 (.bytes out.output)).result=
      .fail .malformedEnvelope "Transport security envelope is truncated" ∧
    (unprotect host s 3 (.bytes out.output)).payload.data=[] := by
  intro host s out
  exact ⟨by decide,by decide,by decide,by decide⟩

end TransportSecurity
end ESPressioSecurity
