import ESPressioSecurity.System.EntropyGate
import ESPressioSecurity.System.SecureLink
import ESPressioSecurity.Transport.Adapters
import ESPressioSecurity.Transport.Progress

namespace ESPressioSecurity

open Framework

namespace MbedTLSAdapter

/-- With a nonce of 12 bytes every mode takes so many bytes; CCM has 3 bytes for the length. -/
def plaintextLimit : Nat := 2^24

/-- Associated data that every mode takes; CCM has 2 bytes for the length, of which the last values
are kept for longer forms. -/
def aadLimit : Nat := 2^16-2^8

/-- The library takes every key of the right length, and encrypts under it what is within the limits. -/
def Encrypts (a : MbedTLSAdapter) : Prop :=
  ∀ key nonce aad plaintext : Bytes,key.length=a.keyBytes → nonce.length=nonceSize →
    aad.length<aadLimit → plaintext.length<plaintextLimit →
    let k := a.mode.setkey a.mode.init (.bytes key)
    k.1=true ∧ (a.mode.encryptAndTag k.2 (.bytes nonce) (.bytes aad) plaintext tagSize).ok=true

theorem seal_succeeds {a : MbedTLSAdapter} (encrypts : a.Encrypts) {key nonce aad plaintext : Bytes}
    (keySize : key.length=a.keyBytes) (nonceOk : nonce.length=nonceSize)
    (aadOk : aad.length<aadLimit) (plaintextOk : plaintext.length<plaintextLimit) :
    (a.cipher.aeadSeal key nonce aad plaintext tagSize).ok=true := by
  obtain ⟨taken,done⟩ := encrypts key nonce aad plaintext keySize nonceOk aadOk plaintextOk
  simp only [cipher,sealInto,keySize,nonceOk,taken,Span.size,List.length_replicate,Span.isNull]
  simp only [ne_eq,not_true_eq_false,lt_irrefl,Bool.false_eq_true,and_false,or_self,
    if_false,if_true]
  exact done

end MbedTLSAdapter

namespace SecureLink

variable {ρ : Type}

/-- No action moves a counter up by more than one. -/
theorem step_counter (s : SecureLink ρ) (a : Action ρ) (j : Side) :
    ((step s a).1.security j).nextSequence.toNat≤(s.security j).nextSequence.toNat+1 := by
  have received : ∀ i host message,((s.receive i host message).1.security j).nextSequence.toNat≤
      (s.security j).nextSequence.toNat+1 := by
    intro i host message
    simp only [receive,SecureTransportDecorator.handleReceive_security]
    by_cases same : j=i.other
    · subst same
      obtain ⟨w,hw⟩ := TransportSecurity.unprotect_keeps host (s.security i.other) message.1
        (.bytes message.2)
      rw [Function.update_self,hw]
      exact Nat.le_succ _
    · rw [Function.update_of_ne same]
      exact Nat.le_succ _
  cases a with
  | send i host accepts protocol data =>
    have after : (step s (.send i host accepts protocol data)).1.security j=
        Function.update s.security i
          ((s.security i).protect host (s.random i) protocol data).security j := by
      rw [step_send]
      split_ifs <;> rfl
    rw [after]
    by_cases same : j=i
    · subst same
      rw [Function.update_self]
      exact TransportSecurity.protect_counter host (s.security j) (s.random j) protocol data
    · rw [Function.update_of_ne same]
      exact Nat.le_succ _
  | deliver i host =>
    rw [step]
    cases s.wire i with
    | nil => exact Nat.le_succ _
    | cons message rest => exact received i host message
  | lose i => exact Nat.le_succ _
  | duplicate i host n =>
    rw [step]
    cases (s.arrived i)[n]? with
    | none => exact Nat.le_succ _
    | some message => exact received i host message

theorem run_counter (configs : Side → TransportSecurityConfig) (random : Side → ρ)
    (as : List (Action ρ)) (i : Side) :
    ((((machine ρ).after (new configs random) as).security i).nextSequence.toNat≤as.length+1) := by
  induction as using List.reverseRecOn with
  | nil =>
    have first : (TransportSecurity.new (configs i)).nextSequence=1 := by
      unfold TransportSecurity.new
      dsimp only
      split_ifs <;> rfl
    show (TransportSecurity.new (configs i)).nextSequence.toNat≤1
    rw [first]
    decide
  | append_singleton as a ih =>
    rw [(machine ρ).after_snoc,List.length_append,List.length_singleton]
    have next := step_counter ((machine ρ).after (new configs random) as) a i
    exact next.trans (Nat.add_le_add_right ih 1)

end SecureLink

/-- Two devices as they are built and provisioned: the configuration, the adapters in the order of their
registration, the entropy provider, and the key that each side sends under. -/
structure Stack (ρ : Type) where
  configs : Side → TransportSecurityConfig
  adapters : Side → List MbedTLSAdapter
  entropy : Side → EntropyProvider ρ
  keys : Side → Bytes

namespace Stack

variable {ρ : Type}

/-- The devices fit together, and their libraries and entropy providers work. -/
structure Sound (t : Stack ρ) : Prop where
  required : ∀ i,(t.configs i).policy=.required
  keyed : ∀ i,(t.configs i).outboundKeyID≠0
  session : ∀ i,(t.configs i).sessionID≠0 ∨
    ∀ r,(TransportSecurity.drawSessionID (RandomSource (t.entropy i)) 4 r).1.isSome=true
  built : ∀ i,∃a∈t.adapters i,a.algorithm=(t.configs i).outboundAlgorithm
  covered : ∀ i,∀a∈t.adapters i,∃b∈t.adapters i.other,b.algorithm=a.algorithm
  inverts : ∀ i,∀a∈t.adapters i,∀b∈t.adapters i.other,b.algorithm=a.algorithm → b.Inverts a
  encrypts : ∀ i,∀a∈t.adapters i,a.algorithm=(t.configs i).outboundAlgorithm →
    (t.keys i).length=a.keyBytes ∧ a.Encrypts
  entropy : ∀ i r n,((RandomSource (t.entropy i)).fill r n).ok=true

/-- The surroundings of a call on side `i`. The key store holds the keys of both directions, and may
otherwise hold what it likes and change as it likes. -/
structure Provisioned (t : Stack ρ) (i : Side) (host : Host ρ) : Prop where
  ciphers : host.ciphers=MbedTLSAdapter.registry (t.adapters i)
  random : host.random=RandomSource (t.entropy i)
  keys : ∃ p : StaticKeyProvider,host.keys=p.toProvider ∧ ∀ j,
    p.getKey (t.configs j).outboundKeyID (t.configs j).outboundAlgorithm=
      some ⟨(t.configs j).outboundKeyID,t.keys j⟩
  memory : ∀ n,host.allocates n=true
  width : 32≤host.sizeBits

/-- A payload within the limits of both sides and of the library, and a carrier that takes it. -/
def Fits (t : Stack ρ) : SecureLink.Action ρ → Prop
  | .send i host accepts _ data => t.Provisioned i host ∧ accepts=true ∧ data.invalid=false ∧
      (∀ j,data.size≤(t.configs j).maximumPlaintextBytes) ∧
      data.size<MbedTLSAdapter.plaintextLimit
  | .deliver i host => t.Provisioned i.other host
  | .duplicate i host _ => t.Provisioned i.other host
  | .lose _ => True

/-- The messages that side `i` is asked to send. -/
def offered (i : Side) : SecureLink.Action ρ → Option (UInt8×Bytes)
  | .send j _ _ protocol data => if j=i then some (protocol,data.content) else none
  | _ => none

variable {t : Stack ρ}

theorem Provisioned.key {i : Side} {host : Host ρ} (h : t.Provisioned i host) (j : Side) :
    host.keys.getKey (t.configs j).outboundKeyID (t.configs j).outboundAlgorithm=
      some ⟨(t.configs j).outboundKeyID,t.keys j⟩ := by
  obtain ⟨p,keys,held⟩ := h.keys
  rw [keys]
  exact held j

/-- What a side sends is carried to the other side. -/
theorem Sound.carried (sound : t.Sound) {i : Side} {host receiver : Host ρ}
    (sender : t.Provisioned i host) (opener : t.Provisioned i.other receiver) {data : Span}
    (bounded : ∀ j,data.size≤(t.configs j).maximumPlaintextBytes)
    (size : data.size<MbedTLSAdapter.plaintextLimit) :
    SecureLink.Carried t.configs i host data receiver := by
  refine ⟨bounded i.other,?_,?_⟩
  · apply MbedTLSAdapter.registries_agree sender.ciphers opener.ciphers (sound.covered i)
      (sound.inverts i)
    intro k hk
    rw [sender.key i] at hk
    obtain rfl := Option.some.inj hk
    exact ⟨_,opener.key i,rfl⟩
  · refine le_trans ?_ (SecurityBuffer.le_maxSize opener.width)
    rw [MbedTLSAdapter.plaintextLimit] at size
    omega

theorem Sound.compatible (sound : t.Sound) {as : List (SecureLink.Action ρ)}
    (fits : ∀a∈as,t.Fits a) : ∀a∈as,∀b∈as,SecureLink.Compatible t.configs a b := by
  intro a ha b hb
  cases a with
  | send i host accepts protocol data =>
    cases b with
    | deliver j receiver =>
      rintro rfl
      obtain ⟨sender,_,_,bounded,size⟩ := fits _ ha
      exact sound.carried sender (fits _ hb) bounded size
    | send j receiver accepts' protocol' data' => exact trivial
    | lose j => exact trivial
    | duplicate j receiver n => exact trivial
  | deliver i host => exact trivial
  | lose i => exact trivial
  | duplicate i host n => exact trivial

/-- In a state on the way `Protect` seals every payload that fits. -/
theorem Sound.protects (sound : t.Sound) {i : Side} {host : Host ρ} (sender : t.Provisioned i host)
    {data : Span} (valid : data.invalid=false)
    (bounded : ∀ j,data.size≤(t.configs j).maximumPlaintextBytes)
    (size : data.size<MbedTLSAdapter.plaintextLimit) {s : TransportSecurity}
    (config : s.config=t.configs i) (consistent : s.Consistent)
    (room : s.nextSequence.toNat<2^64-1) (r : ρ) (protocol : UInt8) :
    (s.protect host r protocol data).result=.ok true := by
  obtain ⟨first,own,taken,algorithm⟩ := MbedTLSAdapter.taken (sound.built i)
  obtain ⟨keySize,encrypts⟩ := sound.encrypts i first own algorithm
  have found : host.ciphers.find s.config.outboundAlgorithm=some first.cipher := by
    rw [config,sender.ciphers,MbedTLSAdapter.find_registry,taken]
    rfl
  have key : host.keys.getKey s.config.outboundKeyID s.config.outboundAlgorithm=
      some ⟨(t.configs i).outboundKeyID,t.keys i⟩ := by
    rw [config]
    exact sender.key i
  have ready : TransportSecurity.Ready host s data first.cipher
      ⟨(t.configs i).outboundKeyID,t.keys i⟩ := by
    refine ⟨valid,?_,?_,found,key,keySize⟩
    · rw [config]
      exact bounded i
    · rw [config,sound.required i]
      decide
  have works : TransportSecurity.Works host first.cipher
      ⟨(t.configs i).outboundKeyID,t.keys i⟩ data.size := by
    refine ⟨sender.memory,?_,?_⟩
    · rw [sender.random]
      exact sound.entropy i
    · intro nonce aad plaintext nonceOk header whole
      apply MbedTLSAdapter.seal_succeeds encrypts keySize nonceOk
      · rw [header]
        decide
      · rw [whole]
        exact size
  have session : (TransportSecurity.ensureSessionID host s r).ok=true := by
    apply TransportSecurity.ensureSessionID_succeeds
    rw [config,sender.random]
    exact sound.session i
  have last : s.nextSequence≠TransportSecurity.maxSequence := by
    intro same
    rw [same] at room
    exact absurd room (by decide)
  have length : data.size≤0xFFFFFFFF := size.le.trans (by decide)
  exact TransportSecurity.protect_succeeds ready works r protocol session
    ⟨consistent.counter,last⟩ (show 12≤0xFF by decide) (show 16≤0xFF by decide) length

/-- Every message that fits is sent. -/
theorem Sound.sends (sound : t.Sound) (random : Side → ρ) (as : List (SecureLink.Action ρ))
    (fits : ∀a∈as,t.Fits a) (short : as.length<2^64-1) (i : Side) :
    ((SecureLink.machine ρ).trace (SecureLink.new t.configs random) as).filterMap
      (SecureLink.sentBy i)=as.filterMap (offered i) := by
  induction as using List.reverseRecOn with
  | nil => rfl
  | append_singleton as a ih =>
    rw [List.length_append,List.length_singleton] at short
    have before : ∀b∈as,t.Fits b := fun b hb => fits b (List.mem_append_left _ hb)
    obtain ⟨follows,_⟩ := SecureLink.run_refines t.configs random as sound.required sound.keyed
      (sound.compatible before)
    have counter := SecureLink.run_counter t.configs random as
    have last := fits a (by simp)
    rw [(SecureLink.machine ρ).trace_snoc,List.filterMap_append,List.filterMap_append,
      ih before (by omega)]
    generalize (SecureLink.machine ρ).after (SecureLink.new t.configs random) as=s at follows counter
    congr 1
    cases a with
    | send j host accepts protocol data =>
      obtain ⟨sender,rfl,valid,bounded,size⟩ := last
      have room := counter j
      have sealed := sound.protects sender valid bounded size (follows.config j)
        (follows.consistent j) (by omega) (s.random j) protocol
      have answer : (SecureLink.step s (.send j host true protocol data)).2=.sent true := by
        rw [SecureLink.step_send]
        simp [sealed]
      have shown : ((SecureLink.machine ρ).step s (.send j host true protocol data)).2=.sent true :=
        answer
      rw [shown]
      rfl
    | deliver j host => rfl
    | lose j => rfl
    | duplicate j host n => rfl

/-- Two devices built from the repository's own parts, over a carrier that keeps the order: every
payload that fits is sent, and what the carrier does not lose arrives at the other side, once, in
order and as it was. -/
theorem delivers (t : Stack ρ) (sound : t.Sound) (random : Side → ρ)
    (as : List (SecureLink.Action ρ)) (fits : ∀a∈as,t.Fits a) (short : as.length<2^64-1) (i : Side) :
    let run := (SecureLink.machine ρ).trace (SecureLink.new t.configs random) as
    ∃ way : List SecureLink.Item,
      ((SecureLink.machine ρ).after (SecureLink.new t.configs random) as).wire i=
        way.map SecureLink.Item.message ∧
      (∀x∈way,x.Genuine as i (t.configs i)) ∧
      (run.filterMap (SecureLink.receivedFrom i)++way.map SecureLink.Item.content).Sublist
        (as.filterMap (offered i)) ∧
      ((∀a∈as,¬a.loses i) →
        run.filterMap (SecureLink.receivedFrom i)++way.map SecureLink.Item.content=
          as.filterMap (offered i)) := by
  intro run
  obtain ⟨follows,same⟩ := SecureLink.run_refines t.configs random as sound.required sound.keyed
    (sound.compatible fits)
  obtain ⟨past,way,d⟩ := follows.directions i
  obtain ⟨ordered,whole⟩ := SecureLink.run_queued same i
  rw [d.queue,sound.sends random as fits short i] at ordered whole
  exact ⟨way,d.wire,fun x hx => d.genuine x (List.mem_append_right past hx),ordered,whole⟩

def testEntropy : EntropyProvider UInt8 := ⟨fun _ => true,DeterministicRandom.fill⟩

theorem stub_encrypts (filler : UInt8) (algorithm : AeadAlgorithm) (keyBytes : Nat) :
    MbedTLSAdapter.Encrypts ⟨MbedTLSAdapter.stubMode filler,algorithm,keyBytes⟩ :=
  fun _ _ _ _ _ _ _ _ => ⟨rfl,rfl⟩

/-- CCM in one direction, GCM in the other, and a message handed over twice. -/
theorem delivers_both_ways :
    let adapters := MbedTLSAdapter.all (MbedTLSAdapter.stubMode 0xA5) (MbedTLSAdapter.stubMode 0x5A)
      (MbedTLSAdapter.stubMode 0x3C)
    let keys : Side → Bytes
      | .near => List.replicate 32 1
      | .far => List.replicate 16 2
    let configs : Side → TransportSecurityConfig
      | .near => {outboundAlgorithm := .aes256CCM,sessionID := 7}
      | .far => {outboundAlgorithm := .aes128GCM,outboundKeyID := 2,sessionID := 8}
    let t : Stack UInt8 := ⟨configs,fun _ => adapters,fun _ => testEntropy,keys⟩
    let host : Host UInt8 := {
      ciphers := MbedTLSAdapter.registry adapters
      keys := ((StaticKeyProvider.empty.add {} 1 .aes256CCM (.bytes (keys .near))).2.add {} 2
        .aes128GCM (.bytes (keys .far))).2.toProvider
      random := RandomSource testEntropy
      allocates := fun _ => true
      sizeBits := 64 }
    let as : List (SecureLink.Action UInt8) := [.send .near host true 3 (.bytes [9]),
      .send .far host true 4 (.bytes [8]),.deliver .near host,.duplicate .near host 0,
      .deliver .far host]
    let run := (SecureLink.machine UInt8).trace (SecureLink.new t.configs (fun _ => 1)) as
    run.filterMap (SecureLink.receivedFrom .near)=[(3,[9])] ∧
    run.filterMap (SecureLink.receivedFrom .far)=[(4,[8])] := by
  intro adapters keys configs t host as run
  have listed : ∀a∈adapters,∃ filler algorithm keyBytes,
      a=⟨MbedTLSAdapter.stubMode filler,algorithm,keyBytes⟩ ∧
      (algorithm=.aes256CCM → keyBytes=32) ∧ (algorithm=.aes128GCM → keyBytes=16) := by
    intro a ha
    simp only [adapters,MbedTLSAdapter.all,List.mem_cons,List.not_mem_nil,or_false] at ha
    rcases ha with rfl|rfl|rfl|rfl|rfl <;> exact ⟨_,_,_,rfl,by decide,by decide⟩
  have inverts : ∀a∈adapters,∀b∈adapters,b.algorithm=a.algorithm → b.Inverts a := by
    intro a ha b hb same
    simp only [adapters,MbedTLSAdapter.all,List.mem_cons,List.not_mem_nil,or_false] at ha hb
    rcases ha with rfl|rfl|rfl|rfl|rfl <;> rcases hb with rfl|rfl|rfl|rfl|rfl <;>
      first
      | exact absurd same (by decide)
      | exact MbedTLSAdapter.stub_inverts _ _ _ _
  have sound : t.Sound := by
    refine ⟨?_,?_,?_,?_,?_,fun _ => inverts,?_,fun _ _ _ => rfl⟩
    · intro i
      cases i <;> rfl
    · intro i
      cases i <;> decide
    · intro i
      cases i <;> exact Or.inl (by decide)
    · intro i
      cases i with
      | near => exact ⟨AES256CCMCipher (MbedTLSAdapter.stubMode 0x5A),by simp [t,adapters,
          MbedTLSAdapter.all],rfl⟩
      | far => exact ⟨AES128GCMCipher (MbedTLSAdapter.stubMode 0xA5),by simp [t,adapters,
          MbedTLSAdapter.all],rfl⟩
    · exact fun i a ha => ⟨a,ha,rfl⟩
    · intro i a ha named
      obtain ⟨filler,algorithm,keyBytes,rfl,ccm,gcm⟩ := listed a ha
      refine ⟨?_,stub_encrypts filler algorithm keyBytes⟩
      cases i with
      | near => exact (ccm named).symm
      | far => exact (gcm named).symm
  have provisioned : ∀ i,t.Provisioned i host := by
    intro i
    refine ⟨rfl,rfl,⟨_,rfl,?_⟩,fun _ => rfl,by decide⟩
    intro j
    cases j <;> rfl
  have fits : ∀a∈as,t.Fits a := by
    intro a ha
    simp only [as,List.mem_cons,List.not_mem_nil,or_false] at ha
    have within : ∀ j,1≤(t.configs j).maximumPlaintextBytes := by
      intro j
      cases j <;> decide
    rcases ha with rfl|rfl|rfl|rfl|rfl
    · exact ⟨provisioned .near,rfl,rfl,within,by decide⟩
    · exact ⟨provisioned .far,rfl,rfl,within,by decide⟩
    · exact provisioned .far
    · exact provisioned .far
    · exact provisioned .near
  have lossless : ∀ i,∀a∈as,¬a.loses i := by
    intro i a ha
    simp only [as,List.mem_cons,List.not_mem_nil,or_false] at ha
    rcases ha with rfl|rfl|rfl|rfl|rfl <;> exact id
  have empty : ∀ i,((SecureLink.machine UInt8).after (SecureLink.new t.configs (fun _ => 1))
      as).wire i=[] := by
    intro i
    cases i <;> decide +kernel
  have arrives : ∀ i,run.filterMap (SecureLink.receivedFrom i)=as.filterMap (offered i) := by
    intro i
    obtain ⟨way,wire,_,_,whole⟩ := delivers t sound (fun _ => 1) as fits (by decide) i
    rw [List.map_eq_nil_iff.mp (wire.symm.trans (empty i)),List.map_nil,List.append_nil] at whole
    exact whole (lossless i)
  exact ⟨(arrives .near).trans rfl,(arrives .far).trans rfl⟩

end Stack
end ESPressioSecurity
