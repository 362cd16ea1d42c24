import ESPressioSecurity.Framework.History
import ESPressioSecurity.System.Site

namespace ESPressioSecurity

open Framework

/-! ### One change of a store -/

namespace StaticKeyProvider

/-- A change that was answered put `b` under the pair. -/
def Stores (keyID : UInt32) (algorithm : AeadAlgorithm) : Change×Bool → Bytes → Prop
  | (.add _ k a (.bytes v),true),b => (k,a)=(keyID,algorithm) ∧ v=b
  | _,_ => False

/-- A change that leaves nothing under the pair of what was there: a successful `Add` replaces it. -/
def Ends (keyID : UInt32) (algorithm : AeadAlgorithm) : Change×Bool → Prop
  | (.add _ k a _,done) => (k,a)=(keyID,algorithm) ∧ done=true
  | (.remove k a,_) => (k,a)=(keyID,algorithm)
  | (.clear,_) => True

theorem getKey_empty (keyID : UInt32) (algorithm : AeadAlgorithm) :
    empty.getKey keyID algorithm=none := rfl

theorem getKey_some {p : StaticKeyProvider} {e : Entry} (h : p.findLocked e.keyID e.algorithm=some e)
    (he : e.storage≠[]) : p.getKey e.keyID e.algorithm=some ⟨e.keyID,e.storage⟩ := by
  rw [getKey,h]
  exact if_neg he

/-- A successful `Add`, new or replacing, has the pair resolve to its bytes. -/
theorem getKey_add_self {p : StaticKeyProvider} {memory : AddAllocation} {keyID : UInt32}
    {algorithm : AeadAlgorithm} {key : Span} (h : (p.add memory keyID algorithm key).1=true) :
    ∃ b,key=.bytes b ∧
      (p.add memory keyID algorithm key).2.getKey keyID algorithm=some ⟨keyID,b⟩ := by
  cases key with
  | null n => exact absurd h (by simp [add])
  | bytes b =>
    refine ⟨b,rfl,?_⟩
    rw [add] at h ⊢
    split_ifs at h ⊢ with hb hs hf he
    · have stored : b≠[] := fun hn => hb (Or.inr (by rw [hn]; rfl))
      refine getKey_some (e := ⟨keyID,algorithm,b⟩) ?_ stored
      rw [findLocked_pushEntry,hf]
      simp [Entry.pair]
    · have stored : b≠[] := fun hn => hb (Or.inr (by rw [hn]; rfl))
      obtain ⟨e,found⟩ := Option.ne_none_iff_exists'.mp hf
      have pair : (e.keyID,e.algorithm)=(keyID,algorithm) := (KeyedTable.lookup_key _ found).2
      obtain ⟨rfl,rfl⟩ := Prod.mk.inj pair
      refine getKey_some (e := {e with storage := b}) ?_ stored
      rw [findLocked_replaceStorage,if_pos rfl,found]
      rfl

/-- A failing `Add` changes nothing. -/
theorem add_failed {p : StaticKeyProvider} {memory : AddAllocation} {keyID : UInt32}
    {algorithm : AeadAlgorithm} {key : Span} (h : (p.add memory keyID algorithm key).1=false) :
    (p.add memory keyID algorithm key).2=p := by
  cases key with
  | null n => rfl
  | bytes b =>
    rw [add] at h ⊢
    split_ifs at h ⊢ <;> rfl

/-- After `Remove` no entry has the pair, whatever it answered. -/
theorem findLocked_remove_self (p : StaticKeyProvider) (keyID : UInt32)
    (algorithm : AeadAlgorithm) : (p.remove keyID algorithm).2.findLocked keyID algorithm=none := by
  unfold remove
  split
  · rename_i h
    exact h
  · exact KeyedTable.lookup_erase_self _ p.distinct

theorem remove_gone (p : StaticKeyProvider) (keyID : UInt32) (algorithm : AeadAlgorithm) :
    ∀e∈(p.remove keyID algorithm).2.entries,e.pair≠(keyID,algorithm) := by
  have gone := findLocked_remove_self p keyID algorithm
  rw [findLocked,KeyedTable.lookup_none_iff] at gone
  intro e he pair
  exact gone (pair ▸ List.mem_map_of_mem he)

theorem getKey_remove_self (p : StaticKeyProvider) (keyID : UInt32) (algorithm : AeadAlgorithm) :
    (p.remove keyID algorithm).2.getKey keyID algorithm=none := by
  rw [getKey,findLocked_remove_self]

theorem getKey_keyID {p : StaticKeyProvider} {keyID : UInt32} {algorithm : AeadAlgorithm}
    {view : KeyMaterialView} (h : p.getKey keyID algorithm=some view) : view.keyID=keyID := by
  rw [getKey] at h
  split at h
  · exact absurd h (by simp)
  · rename_i e found
    have pair : (e.keyID,e.algorithm)=(keyID,algorithm) := (KeyedTable.lookup_key _ found).2
    split_ifs at h
    rw [← Option.some.inj h]
    exact (Prod.mk.inj pair).1

/-- What a pair resolves to after a change: what the change stored, or what was there before if the
change did not end it. -/
theorem getKey_apply (p : StaticKeyProvider) (c : Change) (keyID : UInt32)
    (algorithm : AeadAlgorithm) (b : Bytes) :
    (p.apply c).2.getKey keyID algorithm=some ⟨keyID,b⟩ ↔
      Stores keyID algorithm (c,(p.apply c).1) b ∨
      p.getKey keyID algorithm=some ⟨keyID,b⟩ ∧ ¬Ends keyID algorithm (c,(p.apply c).1) := by
  cases c with
  | add memory k a key =>
    by_cases pair : (keyID,algorithm)=(k,a)
    · obtain ⟨rfl,rfl⟩ := Prod.mk.inj pair
      cases done : (p.add memory keyID algorithm key).1 with
      | false =>
        have same : (p.apply (.add memory keyID algorithm key)).2=p := add_failed done
        have answer : (p.apply (.add memory keyID algorithm key)).1=false := done
        cases key <;> simp [same,answer,Stores,Ends]
      | true =>
        obtain ⟨v,rfl,resolved⟩ := getKey_add_self done
        have answer : (p.apply (.add memory keyID algorithm (.bytes v))).1=true := done
        have now : (p.apply (.add memory keyID algorithm (.bytes v))).2.getKey keyID algorithm=
          some ⟨keyID,v⟩ := resolved
        simp [now,answer,Stores,Ends]
    · have kept : (p.apply (.add memory k a key)).2.getKey keyID algorithm=
          p.getKey keyID algorithm := getKey_add_ne p memory k keyID a algorithm key pair
      have other : (k,a)≠(keyID,algorithm) := Ne.symm pair
      rw [kept]
      cases key <;> cases (p.apply (.add memory k a _)).1 <;> simp [Stores,Ends,other]
  | remove k a =>
    by_cases pair : (keyID,algorithm)=(k,a)
    · obtain ⟨rfl,rfl⟩ := Prod.mk.inj pair
      have gone : (p.apply (.remove keyID algorithm)).2.getKey keyID algorithm=none :=
        getKey_remove_self p keyID algorithm
      simp [gone,Stores,Ends]
    · have kept : (p.apply (.remove k a)).2.getKey keyID algorithm=p.getKey keyID algorithm :=
        getKey_remove_ne p k keyID a algorithm pair
      have other : (k,a)≠(keyID,algorithm) := Ne.symm pair
      simp [kept,Stores,Ends,other]
  | clear =>
    have gone : (p.apply .clear).2.getKey keyID algorithm=none := rfl
    simp [gone,Stores,Ends]

end StaticKeyProvider

/-! ### One `Open` call -/

/-- `Open` was called on the cipher that `find` gives for an algorithm, under the bytes that
`getKey` gives for the pair. -/
def OpensUnder {ρ : Type} (host : Host ρ) (keyID : UInt32) (algorithm : AeadAlgorithm)
    (o : OpenCall) : Prop :=
  ∃ cipher,host.ciphers.find algorithm=some cipher ∧
    host.keys.getKey keyID algorithm=some ⟨keyID,o.key⟩ ∧
    o.ok=(cipher.aeadOpen o.key o.nonce o.aad o.ciphertext o.tag).ok ∧
    o.plaintext=(cipher.aeadOpen o.key o.nonce o.aad o.ciphertext o.tag).plaintext.val

/-- Views carry the identifier they were asked for. -/
def Identified (provider : IKeyProvider) : Prop :=
  ∀ keyID algorithm view,provider.getKey keyID algorithm=some view → view.keyID=keyID

variable {ρ : Type}

theorem TransportSecurity.unprotect_opens {host : Host ρ} (identified : Identified host.keys)
    {s : TransportSecurity} {expectedProtocol : UInt8} {input : Span} {o : OpenCall}
    (h : Effect.opened o∈(unprotect host s expectedProtocol input).effects) :
    ∃ header,readHeader input.content=some header ∧
      OpensUnder host header.keyID ⟨header.algorithm⟩ o := by
  obtain ⟨_,_,_,_,he⟩|⟨header,cipher,key,admitted,he⟩|⟨n,he⟩ := unprotect_only h
  · exact absurd he (by simp)
  · obtain rfl := Effect.opened.inj he
    have keyID := identified _ _ _ admitted.key_found
    refine ⟨header,admitted.well_formed.read,cipher,admitted.cipher_found,?_,rfl,rfl⟩
    rw [admitted.key_found,← keyID]
    rfl
  · exact absurd he (by simp)

theorem DataProtector.unprotect_opens {host : Host ρ} (identified : Identified host.keys)
    {d : DataProtector} {protectedData context : Span} {o : OpenCall}
    (h : Effect.opened o∈(unprotect host d protectedData context).effects) :
    ∃ header,readHeader protectedData.content=some header ∧
      OpensUnder host header.keyID header.algorithm o := by
  obtain ⟨data,header,cipher,key,rfl,_,he|⟨admitted,he⟩⟩ := unprotect_only h
  · exact absurd he (by simp)
  · obtain rfl := Effect.opened.inj he
    have keyID := identified _ _ _ admitted.key_found
    refine ⟨header,admitted.read,cipher,admitted.cipher_found,?_,rfl,rfl⟩
    rw [admitted.key_found,← keyID]
    rfl

/-! ### Runs -/

namespace Site

variable {ι κ : Type}

/-- The change of the key store that a command made, with its answer. -/
def keyChange : Command ι κ StaticKeyProvider.Change×Response →
    Option (StaticKeyProvider.Change×Bool)
  | (.changeKeys c,.changed done) => some (c,done)
  | _ => none

def Stores (keyID : UInt32) (algorithm : AeadAlgorithm)
    (x : Command ι κ StaticKeyProvider.Change×Response) (b : Bytes) : Prop :=
  ∃c∈keyChange x,StaticKeyProvider.Stores keyID algorithm c b

def Ends (keyID : UInt32) (algorithm : AeadAlgorithm)
    (x : Command ι κ StaticKeyProvider.Change×Response) : Prop :=
  ∃c∈keyChange x,StaticKeyProvider.Ends keyID algorithm c

/-- The history stored `b` under the pair by a successful `Add`, and then neither replaced it nor
removed the pair nor cleared the store. -/
def Stored (keyID : UInt32) (algorithm : AeadAlgorithm)
    (past : List (Command ι κ StaticKeyProvider.Change×Response)) (b : Bytes) : Prop :=
  Standing (Stores keyID algorithm) (Ends keyID algorithm) past b

def Registers {μ : Type} (algorithm : AeadAlgorithm) (x : Command ι κ μ×Response)
    (cipher : IAeadCipher) : Prop :=
  x=(.registerCipher cipher,.changed true) ∧ cipher.algorithm=algorithm

def Unregisters {μ : Type} (algorithm : AeadAlgorithm) (x : Command ι κ μ×Response) : Prop :=
  x.1=.unregisterCipher algorithm

/-- The history registered the cipher for the algorithm and did not unregister the algorithm
afterwards. -/
def Registered {μ : Type} (algorithm : AeadAlgorithm) (past : List (Command ι κ μ×Response))
    (cipher : IAeadCipher) : Prop :=
  Standing (Registers algorithm) (Unregisters algorithm) past cipher

theorem identified_now (s : Site ι κ StaticKeyProvider ρ) (platform : Platform ρ)
    (allocates : Nat → Bool) :
    Identified (s.host StaticKeyProvider.store platform allocates).keys :=
  fun _ _ _ h => StaticKeyProvider.getKey_keyID h

variable [DecidableEq ι] [DecidableEq κ]

theorem getKey_step (platform : Platform ρ) (s : Site ι κ StaticKeyProvider ρ)
    (c : Command ι κ StaticKeyProvider.Change) (keyID : UInt32) (algorithm : AeadAlgorithm)
    (b : Bytes) :
    let o := step StaticKeyProvider.store platform s c
    o.1.keys.getKey keyID algorithm=some ⟨keyID,b⟩ ↔
      Stores keyID algorithm (c,o.2) b ∨
      s.keys.getKey keyID algorithm=some ⟨keyID,b⟩ ∧ ¬Ends keyID algorithm (c,o.2) := by
  intro o
  cases c with
  | registerCipher cipher => simp [o,step,Stores,Ends,keyChange]
  | unregisterCipher other => simp [o,step,Stores,Ends,keyChange]
  | changeKeys change =>
    have applied := StaticKeyProvider.getKey_apply s.keys change keyID algorithm b
    have found : keyChange (ι := ι) (κ := κ) (.changeKeys change,o.2)=
      some (change,(s.keys.apply change).1) := rfl
    simp only [Stores,Ends,found,Option.mem_some_iff,exists_eq_left']
    exact applied
  | call allocates call => simp [o,step,Stores,Ends,keyChange]

theorem find_step {χ μ : Type} (store : KeyStore χ μ) (platform : Platform ρ) (s : Site ι κ χ ρ)
    (c : Command ι κ μ) (algorithm : AeadAlgorithm) (cipher : IAeadCipher) :
    let o := step store platform s c
    o.1.ciphers.find algorithm=some cipher ↔
      Registers algorithm (c,o.2) cipher ∨
      s.ciphers.find algorithm=some cipher ∧ ¬Unregisters algorithm (c,o.2) := by
  intro o
  unfold Registers Unregisters
  cases c with
  | registerCipher added =>
    have found : o.1.ciphers.find algorithm=_ := s.ciphers.find_register added algorithm
    have answer : o.2=.changed (s.ciphers.register added).1 := rfl
    have done := s.ciphers.register_iff added
    rw [found,answer]
    cases held : s.ciphers.find algorithm with
    | none =>
      by_cases same : added.algorithm=algorithm
      · have accepted := done.mpr (by rw [same]; exact held)
        have agree : added=cipher → cipher.algorithm=algorithm := fun he => he ▸ same
        simpa [same,accepted] using agree
      · have other : added=cipher → ¬cipher.algorithm=algorithm := fun he => he ▸ same
        simpa [same] using fun he _ => other he
    | some current =>
      by_cases same : added.algorithm=algorithm
      · have refused : (s.ciphers.register added).1≠true := by
          intro accepted
          rw [done,same,held] at accepted
          exact absurd accepted (by simp)
        simp [refused]
      · have other : added=cipher → ¬cipher.algorithm=algorithm := fun he => he ▸ same
        simpa using fun he _ ha => absurd ha (other he)
  | unregisterCipher other =>
    have found : o.1.ciphers.find algorithm=_ := s.ciphers.find_unregister other algorithm
    rw [found]
    by_cases same : algorithm=other
    · subst same
      simp
    · have differs : ¬other=algorithm := Ne.symm same
      simp [same,differs]
  | changeKeys change => simp [o,step]
  | call allocates call => simp [o,step]

/-- The provider's table after any run is what its history stored. -/
theorem getKey_history (platform : Platform ρ) (services : Deployment ι κ ρ)
    (cs : List (Command ι κ StaticKeyProvider.Change)) (keyID : UInt32) (algorithm : AeadAlgorithm)
    (b : Bytes) :
    let start : Site ι κ StaticKeyProvider ρ :=
      ⟨AeadCipherRegistry.empty,StaticKeyProvider.empty,services⟩
    let m := machine ι κ StaticKeyProvider.store platform
    (m.after start cs).keys.getKey keyID algorithm=some ⟨keyID,b⟩ ↔
      Stored keyID algorithm (m.trace start cs) b := by
  intro start m
  have none_yet : ∀ b,¬start.keys.getKey keyID algorithm=some ⟨keyID,b⟩ := by
    intro b
    exact fun h => absurd h (by simp [start,StaticKeyProvider.getKey_empty])
  exact m.standing_of_step (Stores keyID algorithm) (Ends keyID algorithm)
    (fun s b => s.keys.getKey keyID algorithm=some ⟨keyID,b⟩) none_yet
    (fun s c b => getKey_step platform s c keyID algorithm b) cs b

/-- The registry after any run is what its history registered. -/
theorem find_history {χ μ : Type} (store : KeyStore χ μ) (platform : Platform ρ) (keys : χ)
    (services : Deployment ι κ ρ) (cs : List (Command ι κ μ)) (algorithm : AeadAlgorithm)
    (cipher : IAeadCipher) :
    let start : Site ι κ χ ρ := ⟨AeadCipherRegistry.empty,keys,services⟩
    let m := machine ι κ store platform
    (m.after start cs).ciphers.find algorithm=some cipher ↔
      Registered algorithm (m.trace start cs) cipher := by
  intro start m
  have none_yet : ∀ cipher,¬start.ciphers.find algorithm=some cipher := by
    intro cipher
    exact fun h => absurd h (by simp [start,AeadCipherRegistry.find,AeadCipherRegistry.empty,
      KeyedTable.lookup])
  exact m.standing_of_step (Registers algorithm) (Unregisters algorithm)
    (fun s cipher => s.ciphers.find algorithm=some cipher) none_yet
    (fun s c cipher => find_step store platform s c algorithm cipher) cs cipher

/-- `Open` was called on the cipher the history registered for an algorithm, under the bytes it
stored for the pair. -/
def OpensCurrent (keyID : UInt32) (algorithm : AeadAlgorithm)
    (past : List (Command ι κ StaticKeyProvider.Change×Response)) (o : OpenCall) : Prop :=
  ∃ cipher,Registered algorithm past cipher ∧ Stored keyID algorithm past o.key ∧
    o.ok=(cipher.aeadOpen o.key o.nonce o.aad o.ciphertext o.tag).ok ∧
    o.plaintext=(cipher.aeadOpen o.key o.nonce o.aad o.ciphertext o.tag).plaintext.val

/-- A view that `GetKey` gives names the pair and shows what the history stored for it. -/
theorem view_history (platform : Platform ρ) (services : Deployment ι κ ρ)
    (cs : List (Command ι κ StaticKeyProvider.Change)) (keyID : UInt32) (algorithm : AeadAlgorithm)
    (view : KeyMaterialView) :
    let start : Site ι κ StaticKeyProvider ρ :=
      ⟨AeadCipherRegistry.empty,StaticKeyProvider.empty,services⟩
    let m := machine ι κ StaticKeyProvider.store platform
    (m.after start cs).keys.getKey keyID algorithm=some view ↔
      view.keyID=keyID ∧ Stored keyID algorithm (m.trace start cs) view.data := by
  intro start m
  have keyed : (m.after start cs).keys.getKey keyID algorithm=some ⟨keyID,view.data⟩ ↔
      Stored keyID algorithm (m.trace start cs) view.data :=
    getKey_history platform services cs keyID algorithm view.data
  rw [← keyed]
  constructor
  · intro h
    have same := StaticKeyProvider.getKey_keyID h
    subst same
    exact ⟨rfl,h⟩
  · intro h
    obtain ⟨rfl,h⟩ := h
    exact h

theorem opens_current (platform : Platform ρ) (services : Deployment ι κ ρ)
    (cs : List (Command ι κ StaticKeyProvider.Change)) (allocates : Nat → Bool) {keyID : UInt32}
    {algorithm : AeadAlgorithm} {o : OpenCall} :
    let start : Site ι κ StaticKeyProvider ρ :=
      ⟨AeadCipherRegistry.empty,StaticKeyProvider.empty,services⟩
    let m := machine ι κ StaticKeyProvider.store platform
    OpensUnder ((m.after start cs).host StaticKeyProvider.store platform allocates) keyID algorithm o →
      OpensCurrent keyID algorithm (m.trace start cs) o := by
  intro start m h
  obtain ⟨cipher,found,resolved,result⟩ := h
  have registered := (find_history StaticKeyProvider.store platform StaticKeyProvider.empty services
    cs algorithm cipher).mp found
  have stored := (getKey_history platform services cs keyID algorithm o.key).mp resolved
  exact ⟨cipher,registered,stored,result⟩

/-- After any run from empty stores `GetKey` and `Find` give what the history stored and registered,
a `Remove` or `Unregister` that answers true leaves nothing to find, and both `Unprotect` call
`Open` on the current cipher and under the current key of the pair that the header names. -/
theorem lookups_current (platform : Platform ρ) (services : Deployment ι κ ρ)
    (cs : List (Command ι κ StaticKeyProvider.Change)) :
    let start : Site ι κ StaticKeyProvider ρ :=
      ⟨AeadCipherRegistry.empty,StaticKeyProvider.empty,services⟩
    let m := machine ι κ StaticKeyProvider.store platform
    let now := m.after start cs
    let past := m.trace start cs
    let host := now.host StaticKeyProvider.store platform
    (∀ keyID algorithm,
      (∀ view,now.keys.getKey keyID algorithm=some view ↔
        view.keyID=keyID ∧ Stored keyID algorithm past view.data) ∧
      (now.keys.getKey keyID algorithm=none ↔ ∀ b,¬Stored keyID algorithm past b) ∧
      ((now.keys.remove keyID algorithm).1=true →
        (∀e∈(now.keys.remove keyID algorithm).2.entries,e.pair≠(keyID,algorithm)) ∧
        (now.keys.remove keyID algorithm).2.getKey keyID algorithm=none)) ∧
    (∀ algorithm,
      (∀ cipher,now.ciphers.find algorithm=some cipher ↔ Registered algorithm past cipher) ∧
      (now.ciphers.find algorithm=none ↔ ∀ cipher,¬Registered algorithm past cipher) ∧
      ((now.ciphers.unregister algorithm).1=true →
        (∀c∈(now.ciphers.unregister algorithm).2.ciphers,c.algorithm≠algorithm) ∧
        (now.ciphers.unregister algorithm).2.find algorithm=none)) ∧
    (∀ allocates (s : TransportSecurity) expectedProtocol input o,
      Effect.opened o∈(s.unprotect (host allocates) expectedProtocol input).effects →
      ∃ h,TransportSecurity.readHeader input.content=some h ∧
        OpensCurrent h.keyID ⟨h.algorithm⟩ past o) ∧
    ∀ allocates (d : DataProtector) protectedData context o,
      Effect.opened o∈(d.unprotect (host allocates) protectedData context).effects →
      ∃ h,DataProtector.readHeader protectedData.content=some h ∧
        OpensCurrent h.keyID h.algorithm past o := by
  intro start m now past host
  have views : ∀ keyID algorithm view,now.keys.getKey keyID algorithm=some view ↔
      view.keyID=keyID ∧ Stored keyID algorithm past view.data :=
    view_history platform services cs
  have found : ∀ algorithm cipher,now.ciphers.find algorithm=some cipher ↔
      Registered algorithm past cipher :=
    find_history StaticKeyProvider.store platform StaticKeyProvider.empty services cs
  refine ⟨?_,?_,?_,?_⟩
  · intro keyID algorithm
    refine ⟨views keyID algorithm,?_,?_⟩
    · rw [Option.eq_none_iff_forall_ne_some]
      constructor
      · intro h b stored
        exact h ⟨keyID,b⟩ ((views keyID algorithm ⟨keyID,b⟩).mpr ⟨rfl,stored⟩)
      · intro h view resolved
        exact h view.data ((views keyID algorithm view).mp resolved).2
    · intro _
      exact ⟨StaticKeyProvider.remove_gone now.keys keyID algorithm,
        StaticKeyProvider.getKey_remove_self now.keys keyID algorithm⟩
  · intro algorithm
    refine ⟨found algorithm,?_,?_⟩
    · rw [Option.eq_none_iff_forall_ne_some]
      exact forall_congr' (fun cipher => not_congr (found algorithm cipher))
    · intro _
      refine ⟨AeadCipherRegistry.unregister_gone now.ciphers algorithm,?_⟩
      rw [AeadCipherRegistry.find_unregister,if_pos rfl]
  · intro allocates s expectedProtocol input o h
    obtain ⟨header,read,under⟩ :=
      TransportSecurity.unprotect_opens (identified_now now platform allocates) h
    exact ⟨header,read,opens_current platform services cs allocates under⟩
  · intro allocates d protectedData context o h
    obtain ⟨header,read,under⟩ :=
      DataProtector.unprotect_opens (identified_now now platform allocates) h
    exact ⟨header,read,opens_current platform services cs allocates under⟩

end Site
end ESPressioSecurity
