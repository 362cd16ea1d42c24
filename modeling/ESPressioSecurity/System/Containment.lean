import ESPressioSecurity.Framework.History
import ESPressioSecurity.System.SecureChannel

namespace ESPressioSecurity

open Framework

/-- The host with no keys but those of the pairs in `secret`. -/
def Host.keeping {ρ : Type} (host : Host ρ) (secret : UInt32 → AeadAlgorithm → Bool) : Host ρ :=
  {host with keys := ⟨fun keyID algorithm =>
    if secret keyID algorithm then host.keys.getKey keyID algorithm else none⟩}

variable {σ : Type}

/-! ### Calls that need a secret key only -/

namespace TransportSecurity

theorem Admitted.keeping {host : Host σ} {secret : UInt32 → AeadAlgorithm → Bool}
    {s : TransportSecurity} {input : Bytes} {h : Header} {cipher : IAeadCipher}
    {key : KeyMaterialView} (admitted : Admitted host s input h cipher key)
    (kept : secret h.keyID ⟨h.algorithm⟩=true) :
    Admitted (host.keeping secret) s input h cipher key where
  well_formed :=
    let form := admitted.well_formed
    ⟨form.read,form.magic,form.version,form.size,form.session,form.sequence,form.keyID,
      form.nonce_size,form.tag_size⟩
  bounded := admitted.bounded
  cipher_found := admitted.cipher_found
  fresh := admitted.fresh
  key_found := (if_pos kept).trans admitted.key_found
  key_size := admitted.key_size
  room := admitted.room

/-- Without the other keys a payload under a kept key is unprotected all the same. -/
theorem unprotect_keeping {host : Host σ} {secret : UInt32 → AeadAlgorithm → Bool}
    {s : TransportSecurity} {protocol : UInt8} {input : Span}
    (ok : (unprotect host s protocol input).result=.ok true)
    (kept : secret (unprotect host s protocol input).payload.keyID
      (unprotect host s protocol input).payload.algorithm=true) :
    unprotect (host.keeping secret) s protocol input=unprotect host s protocol input := by
  have success : (unprotect host s protocol input).result.success=true := by rw [ok]; rfl
  obtain ⟨_,_,_,he⟩|⟨h,cipher,key,admitted,opened,expected,he⟩ := unprotect_success success
  · rw [he] at ok
    exact absurd ok (by simp [passPlaintext,SecurityResult.ok])
  · rw [he] at kept ⊢
    have valid : input.invalid=false := by
      cases input with
      | bytes b => rfl
      | null n =>
        have read := admitted.well_formed.read
        have empty : readHeader (Span.null n).content=none := rfl
        exact absurd (empty.symm.trans read) (by simp)
    exact unprotect_accept valid (admitted.keeping kept) opened expected

end TransportSecurity

namespace DataProtector

theorem Admitted.keeping {host : Host σ} {secret : UInt32 → AeadAlgorithm → Bool}
    {d : DataProtector} {data : Bytes} {context : Span} {h : Header} {cipher : IAeadCipher}
    {key : KeyMaterialView} (admitted : Admitted host d data context h cipher key)
    (kept : secret h.keyID h.algorithm=true) :
    Admitted (host.keeping secret) d data context h cipher key :=
  {admitted with key_found := (if_pos kept).trans admitted.key_found}

theorem unprotect_keeping {host : Host σ} {secret : UInt32 → AeadAlgorithm → Bool}
    {d : DataProtector} {protectedData context : Span}
    (ok : (unprotect host d protectedData context).result.success=true)
    (kept : ∀ h,readHeader protectedData.content=some h → secret h.keyID h.algorithm=true) :
    unprotect (host.keeping secret) d protectedData context=
      unprotect host d protectedData context := by
  obtain ⟨data,h,cipher,key,rfl,admitted,_,_⟩ := unprotect_success ok
  rw [admitted.unprotect,(admitted.keeping (kept h admitted.read)).unprotect]

end DataProtector

/-! ### Runs in which keys leak -/

namespace Deployment

variable {ι κ ρ : Type} [DecidableEq ι] [DecidableEq κ]

/-- Which pairs of key ID and algorithm are still secret after a history. -/
abbrev Secrets (ι κ ρ : Type) : Type :=
  List (Action ι κ ρ×Response) → UInt32 → AeadAlgorithm → Bool

/-- Neither `SetConfig` nor `ResetReplayProtection` is called on the receiver, and whenever it receives,
`Open` is trusted for the keys alone that are still secret: under the others anything may open. The
lengths that an input states may be any where `size_t` has 32 bits or more. -/
structure Exposed (secret : Secrets ι κ ρ) (rx : ι) (past : List (Action ι κ ρ×Response))
    (_ : Deployment ι κ ρ) (a : Action ι κ ρ) : Prop where
  undisturbed : ∀ op,a.on rx=some op → op.isControl=false
  authentic : ∀ host decorator protocol input,a=.receive rx host decorator protocol input →
    OpensOnly (host.keeping (secret past)) (sealsOf (log past)) ∧ 32≤host.sizeBits

/-- Entry `n` of a history delivers a payload under a key that was still secret. -/
def DeliversSecret (secret : Secrets ι κ ρ) (rx : ι) (t : List (Action ι κ ρ×Response)) (n : Nat) :
    Prop :=
  ∃ x protocol payload,t[n]?=some x ∧ delivery rx x=some (protocol,payload) ∧
    secret (t.take n) payload.keyID payload.algorithm=true

/-- Entry `m` of a history emitted before what entry `n` delivers. -/
def Carries (rx : ι) (t : List (Action ι κ ρ×Response)) (m n : Nat) : Prop :=
  m<n ∧ ∃ x protocol payload y em,t[n]?=some x ∧ delivery rx x=some (protocol,payload) ∧
    t[m]?=some y ∧ emission y=some em ∧ Conveys rx x protocol payload em

section Run

variable {secret : Secrets ι κ ρ} {configs : ι → TransportSecurityConfig}
variable {dataConfigs : κ → DataProtectionConfig} {r : ρ} {rx : ι} {as : List (Action ι κ ρ)}

theorem secret_carried (required : (configs rx).policy=.required)
    (h : (machine ι κ ρ).Along (Exposed secret rx) (new configs dataConfigs r) as) (n : Nat)
    (delivers : DeliversSecret secret rx
      ((machine ι κ ρ).trace (new configs dataConfigs r) as) n) :
    ∃ m,Carries rx ((machine ι κ ρ).trace (new configs dataConfigs r) as) m n := by
  obtain ⟨x,protocol,payload,hx,hd,kept⟩ := delivers
  obtain ⟨watches,permitted,response⟩ := (machine ι κ ρ).invariant_at
    (watches_new configs dataConfigs r rx required)
    (fun _ _ _ hw (ha : Exposed secret rx _ _ _) => watches_undisturbed hw ha.undisturbed) h hx
  have hs : delivery rx (x.1,(step ((machine ι κ ρ).after (new configs dataConfigs r)
      (as.take n)) x.1).2)=some (protocol,payload) := by
    rw [← hd]
    exact congrArg (fun o => delivery rx (x.1,o)) response.symm
  obtain ⟨host,decorator,input,ha,ok,rfl⟩ := delivery_step hs
  obtain ⟨only,width⟩ := permitted.authentic host decorator protocol input ha
  have protected_ok := (TransportSecurity.required_commits (r := r) watches.policy ok).1
  -- the keys that have leaked play no part in this call
  rw [← (machine ι κ ρ).trace_take] at kept
  have same := TransportSecurity.unprotect_keeping protected_ok kept
  obtain ⟨y,hy,e,plain,found,bytes,_,content⟩ := transport_authentic only
    (fun _ _ room => TransportSecurity.noWrap_of_room width room) (same ▸ protected_ok)
  rw [(machine ι κ ρ).trace_take] at hy
  obtain ⟨m,hm⟩ := List.getElem?_of_mem hy
  rw [List.getElem?_take] at hm
  split_ifs at hm with lt
  refine ⟨m,lt,x,protocol,_,y,_,hx,hd,hm,found,rfl,⟨host,decorator,input,ha,rfl⟩,e.header,?_,?_⟩
  · show TransportSecurity.readHeader input.content=some e.header
    rw [← bytes]
    exact e.readHeader_bytes
  · rw [← same]
    exact content

/-- What one entry emitted is delivered at most once. -/
theorem carried_once (required : (configs rx).policy=.required)
    (h : (machine ι κ ρ).Along (Exposed secret rx) (new configs dataConfigs r) as) {m n n' : Nat}
    (before : n<n')
    (carries : Carries rx ((machine ι κ ρ).trace (new configs dataConfigs r) as) m n) :
    ¬Carries rx ((machine ι κ ρ).trace (new configs dataConfigs r) as) m n' := by
  rintro ⟨_,x',protocol',payload',y',em',hx',hd',hy',hem',conveys'⟩
  obtain ⟨_,x,protocol,payload,y,em,hx,hd,hy,hem,conveys⟩ := carries
  rw [hy] at hy'
  obtain rfl := Option.some.inj hy'
  rw [hem] at hem'
  obtain rfl := Option.some.inj hem'
  obtain ⟨header,hr,same⟩ := conveys.content
  obtain ⟨header',hr',same'⟩ := conveys'.content
  rw [hr] at hr'
  obtain rfl := Option.some.inj hr'
  have equal : payload=payload' := same.trans same'.symm
  have undisturbed : ∀a∈as,∀ op,a.on rx=some op → op.isControl=false := by
    intro a ha
    obtain ⟨past,future,split⟩ := List.append_of_mem ha
    exact (h past a future split).undisturbed
  have distinct := deliveries_distinct configs dataConfigs r rx required as undisturbed
  rw [List.pairwise_filterMap,List.pairwise_iff_getElem] at distinct
  obtain ⟨hn,rfl⟩ := List.getElem?_eq_some_iff.mp hx
  obtain ⟨hn',rfl⟩ := List.getElem?_eq_some_iff.mp hx'
  exact distinct n n' hn hn' before _ hd _ hd' (congrArg _ equal) (congrArg _ equal)

end Run

/-- Keys that leak do not endanger those that do not. Against a network that holds any keys, the
deliveries made under a key while it is secret map one to one to earlier emissions of the same
protocol, payload and identifiers, and stored data unprotects under a secret key only as it was
protected. -/
theorem leaks_contained (secret : Secrets ι κ ρ) (configs : ι → TransportSecurityConfig)
    (dataConfigs : κ → DataProtectionConfig) (r : ρ) (rx : ι)
    (required : (configs rx).policy=.required) (as : List (Action ι κ ρ))
    (h : (machine ι κ ρ).Along (Exposed secret rx) (new configs dataConfigs r) as) :
    let t := (machine ι κ ρ).trace (new configs dataConfigs r) as
    (∃ f : Nat → Nat,Set.InjOn f {n | DeliversSecret secret rx t n} ∧
      ∀ n,DeliversSecret secret rx t n → Carries rx t (f n) n) ∧
    ∀ (host : Host ρ) (d : DataProtector) (b context : Span),32≤host.sizeBits →
      OpensOnly (host.keeping (secret t)) (sealsOf (log t)) →
      (∀ header,DataProtector.readHeader b.content=some header →
        secret t header.keyID header.algorithm=true) →
      (d.unprotect host b context).result.success=true →
      ∃x∈t,dataEmission x=
        some ⟨context.content,(d.unprotect host b context).plaintext,b.content⟩ := by
  intro t
  constructor
  · exact matched_injOn (secret_carried required h) (fun _ _ _ => carried_once required h)
  · intro host d b context width only kept ok
    have same := DataProtector.unprotect_keeping ok kept
    obtain ⟨x,hx,found⟩ := data_authentic only
      (fun _ _ room => DataProtector.noWrap_of_room width room) (same ▸ ok)
    rw [same] at found
    exact ⟨x,hx,found⟩

/-! A receiver that holds the keys 1 and 2, of which 2 is known to the network. -/

/-- Under `leaked` all that the cipher opens, else what the ledger lists. -/
def LeakyCipher (cipher : IAeadCipher) (leaked : Bytes) (seals : List SealCall) : IAeadCipher :=
  {LedgerCipher cipher seals with
    aeadOpen := fun key nonce aad ciphertext tag =>
      if key=leaked then cipher.aeadOpen key nonce aad ciphertext tag
      else (LedgerCipher cipher seals).aeadOpen key nonce aad ciphertext tag}

def leakyHost (seals : List SealCall) : Host UInt8 :=
  {testHost (LeakyCipher (TinyCipher .testOnly 2 2 2) [3,4] seals) 1 [1,2] with
    keys := ((StaticKeyProvider.empty.add {} 1 .testOnly (.bytes [1,2])).2.add {} 2 .testOnly
      (.bytes [3,4])).2.toProvider}

theorem leakyHost_keeps (seals : List SealCall) :
    OpensOnly ((leakyHost seals).keeping (fun keyID _ => keyID=1)) seals := by
  intro algorithm cipher hc keyID view hv nonce aad ciphertext tag ok
  have only : cipher=LeakyCipher (TinyCipher .testOnly 2 2 2) [3,4] seals :=
    @testHost_find _ cipher 1 [1,2] algorithm hc
  subst only
  simp only [Host.keeping,decide_eq_true_eq] at hv
  split_ifs at hv with first
  subst first
  have plain : (testHost (LedgerCipher (TinyCipher .testOnly 2 2 2) seals) 1 [1,2]).keys.getKey 1
      algorithm=some view := by
    have ne : ((1 : UInt32),algorithm)≠(2,.testOnly) := by simp
    have same := StaticKeyProvider.findLocked_add_ne
      (StaticKeyProvider.empty.add {} 1 .testOnly (.bytes [1,2])).2 {} 2 1 .testOnly algorithm
      (.bytes [3,4]) ne
    rw [← hv]
    simp only [leakyHost,testHost,StaticKeyProvider.toProvider,StaticKeyProvider.getKey,same]
    rfl
  have registered : algorithm=.testOnly := (KeyedTable.lookup_key _ hc).2.symm
  subst registered
  have key : view=⟨1,[1,2]⟩ := Option.some.inj (plain.symm.trans rfl)
  subst key
  have differ : ([1,2] : Bytes)≠[3,4] := by decide
  simp only [LeakyCipher,if_neg differ] at ok ⊢
  exact testHost_opens_only (TinyCipher .testOnly 2 2 2) seals 1 [1,2] .testOnly _ rfl 1 _ rfl
    nonce aad ciphertext tag ok

/-- The forged payload under key 2 gets through, the genuine one under key 1 is still traced to its
emission. -/
theorem leaks_contained_second_key :
    let config : TransportSecurityConfig := {outboundAlgorithm := .testOnly,sessionID := 7}
    let start : Deployment Bool Unit UInt8 := new (fun _ => config) (fun _ => {}) 1
    let host := testHost (TinyCipher .testOnly 2 2 2) 1 [1,2]
    let carried : Action Bool Unit UInt8 := .send false host (fun _ _ => true) 3 (.bytes [9])
    let receiver := leakyHost (sealsOf (log ((machine Bool Unit UInt8).trace start [carried])))
    let genuine := ((start.transports false).protect host 1 3 (.bytes [9])).output
    let forged := ((TransportSecurity.new {config with outboundKeyID := 2}).protect
      (testHost (TinyCipher .testOnly 2 2 2) 2 [3,4]) 1 3 (.bytes [6])).output
    let t := (machine Bool Unit UInt8).trace start [carried,
      .receive true receiver ⟨true,true⟩ 3 (.bytes forged),
      .receive true receiver ⟨true,true⟩ 3 (.bytes genuine)]
    t.filterMap (delivery true)=
      [(3,⟨3,2,0,7,1,.testOnly,true,[6]⟩),(3,⟨3,1,0,7,1,.testOnly,true,[9]⟩)] ∧
    t.filterMap emission=[⟨3,[9],genuine⟩] ∧ ∃ m,Carries true t m 2 := by
  intro config start host carried receiver genuine forged t
  let secret : Secrets Bool Unit UInt8 := fun _ keyID _ => keyID=1
  have quiet : Exposed secret true [] start carried := by
    refine ⟨?_,?_⟩
    · intro op hop
      exact absurd hop (by simp [carried,Action.on])
    · intro _ _ _ _ ha
      exact absurd ha (by simp [carried])
  have arrival : ∀ past w b,sealsOf (log past)=
      sealsOf (log ((machine Bool Unit UInt8).trace start [carried])) →
      Exposed secret true past w (.receive true receiver ⟨true,true⟩ 3 (.bytes b)) := by
    intro past w b seals
    refine ⟨?_,?_⟩
    · intro op hop
      simp only [Action.on,if_true,Option.some.injEq] at hop
      subst hop
      rfl
    · intro _ _ _ _ ha
      injection ha with _ hh
      subst hh
      rw [seals]
      exact ⟨leakyHost_keeps _,by decide⟩
  have along := Machine.Along.push (machine Bool Unit UInt8)
    (Machine.Along.push (machine Bool Unit UInt8)
      (Machine.Along.push (machine Bool Unit UInt8)
        ((machine Bool Unit UInt8).along_nil (Exposed secret true) start) quiet)
      (arrival _ _ forged rfl))
    (arrival _ _ genuine (by decide +kernel))
  obtain ⟨⟨f,_,matched⟩,_⟩ := leaks_contained secret (fun _ => config) (fun _ => {}) (1 : UInt8) true
    rfl _ along
  refine ⟨by decide +kernel,by decide +kernel,f 2,?_⟩
  apply matched
  exact ⟨_,3,⟨3,1,0,7,1,.testOnly,true,[9]⟩,rfl,by decide +kernel,rfl⟩

end Deployment
end ESPressioSecurity
