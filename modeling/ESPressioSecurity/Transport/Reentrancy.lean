import ESPressioSecurity.Transport.Callbacks
import ESPressioSecurity.Transport.Identities
import ESPressioSecurity.Transport.Windows

namespace ESPressioSecurity

open Framework

namespace TransportSecurity

variable {ρ : Type}

/-! ### Plain runs between two `SetConfig` -/

/-- The envelopes of an epoch share a session and count up. -/
theorem epoch_increasing {x : TransportSecurity×ρ} (consistent : x.1.Consistent)
    (ops : List (Operation ρ)) (plain : ∀op∈ops,op.isSetConfig=false) :
    (((machine ρ).trace x ops).filterMap outboundID).Pairwise
      (fun i j => i.1=j.1 ∧ i.1≠0 ∧ i.2<j.2) := by
  induction ops generalizing x with
  | nil => exact List.Pairwise.nil
  | cons a ops ih =>
    have rest := ih (step_consistent x a consistent) (fun op hop => plain op (by simp [hop]))
    cases ha : outboundID (a,((machine ρ).step x a).2) with
    | none =>
      rw [Machine.trace,List.filterMap_cons_none ha]
      exact rest
    | some i =>
      rw [Machine.trace,List.filterMap_cons_some ha]
      refine List.pairwise_cons.mpr ⟨?_,rest⟩
      intro j hj
      obtain ⟨y,hy,hb⟩ := List.mem_filterMap.mp hj
      obtain ⟨mid,future,split,answer⟩ := (machine ρ).mem_trace hy
      obtain ⟨b,response⟩ := y
      dsimp only at split answer
      subst answer
      have same := @epoch_order ρ x a b mid i j consistent
        (fun op hop => plain op (by rw [split]; simp [hop])) ha hb
      exact ⟨same.1,same.2.1,UInt64.lt_iff_toNat_lt.mpr same.2.2.2⟩

theorem committed_fresh {y : TransportSecurity×ρ} {op : Operation ρ} {d : ReplayDomain}
    {q : UInt64} (h : committed (step y op).2=some (d,q)) : y.1.replay.wouldAccept d q=true := by
  cases op with
  | unprotect host protocol input =>
    have hc := unprotect_case host y.1 protocol input
    change committed (unprotect host y.1 protocol input).response=some (d,q) at h
    generalize unprotect host y.1 protocol input=out at hc h
    cases hc with
    | rejected error message => exact absurd h (by simp [reject,committed,UnprotectOutcome.response])
    | passed valid plain policy =>
      exact absurd h (by simp [passPlaintext,committed,UnprotectOutcome.response])
    | thrown header cipher key checked large =>
      exact absurd h (by simp [throwLength,committed,UnprotectOutcome.response])
    | unopened header cipher key admitted reason error message =>
      exact absurd h (by simp [reject,committed,UnprotectOutcome.response])
    | accepted header cipher key admitted opened expected =>
      obtain ⟨rfl,rfl⟩ := Prod.mk.inj (Option.some.inj h)
      exact admitted.fresh
  | protect host protocol plaintext => exact absurd h (by simp [step,committed])
  | setConfig config => exact absurd h (by simp [step,committed])
  | resetReplayProtection => exact absurd h (by simp [step,committed])
  | registerObserver => exact absurd h (by simp [step,committed])

/-- What was accepted since the replay window was last emptied, and what the window makes of it. -/
structure Distinct (past : List (Operation ρ×Response)) (x : TransportSecurity×ρ) : Prop where
  window : ∀ d,x.1.replay.Committed d (acceptedIn d (sinceReset past))
  nodup : ((sinceReset past).filterMap (fun y => committed y.2)).Nodup

theorem distinct_step {past : List (Operation ρ×Response)} {x : TransportSecurity×ρ}
    (h : Distinct past x) (op : Operation ρ) :
    Distinct (past++[(op,(step x op).2)]) (step x op).1 := by
  refine ⟨fun d => step_sinceReset op (h.window d),?_⟩
  rw [sinceReset_snoc]
  split_ifs with control
  · exact List.nodup_nil
  · rw [List.filterMap_append]
    cases hk : committed (step x op).2 with
    | none => simpa [hk] using h.nodup
    | some dq =>
      obtain ⟨d,q⟩ := dq
      simp only [List.filterMap_cons,hk,List.filterMap_nil]
      apply List.Nodup.append h.nodup (by simp)
      intro e he hq
      obtain rfl := List.mem_singleton.mp hq
      obtain ⟨y,hy,hc⟩ := List.mem_filterMap.mp he
      have admits := ((ReplayWindow.wouldAccept_iff _ _ _ _ (h.window d)).mp (committed_fresh hk)).2.2
      exact admits.1 ⟨y,hy,q,hc,rfl⟩

theorem run_distinct (config : TransportSecurityConfig) (r : ρ) (ops : List (Operation ρ)) :
    Distinct (history config r ops) (reached config r ops) := by
  have start : Distinct [] ((new config : TransportSecurity),r) := by
    refine ⟨?_,List.nodup_nil⟩
    intro d
    have empty : (new config).replay=ReplayWindow.new config.replayWindowSize := by
      unfold new
      dsimp only
      split_ifs <;> rfl
    change (new config).replay.Committed d (acceptedIn d [])
    rw [acceptedIn_nil,empty]
    exact ReplayWindow.committed_new _ d
  apply (machine ρ).invariant (P := fun _ _ _ => True) start (fun _ _ op h _ => distinct_step h op)
  intro past op future _
  trivial

theorem sinceReset_append (past later : List (Operation ρ×Response))
    (plain : ∀y∈later,y.1.isControl=false) : sinceReset (past++later)=sinceReset past++later := by
  induction later using List.reverseRecOn with
  | nil => simp
  | append_singleton later y ih =>
    rw [← List.append_assoc,sinceReset_snoc,ih (fun z hz => plain z (by simp [hz])),
      if_neg (by simp [plain y (by simp)]),List.append_assoc]

end TransportSecurity

namespace Reentrant

open TransportSecurity

variable {ρ : Type}

/-! ### Plain calls for a run with callbacks -/

/-- The surroundings that still give the cipher and key a suspended call has looked up. -/
def pinning (host : Host ρ) (cipher : IAeadCipher) (key : KeyMaterialView) : Host ρ :=
  {host with ciphers := (AeadCipherRegistry.empty.register cipher).2,keys := ⟨fun _ _ => some key⟩}

/-- A cipher whose nonce no envelope has room for. -/
def widened (cipher : IAeadCipher) : IAeadCipher := {cipher with nonceSize := 256}

/-- The plain calls that a move amounts to. A `Protect` that announces a session counts twice: with a
cipher under which it only establishes the session, and when it goes on. -/
def plainCalls (x : Service ρ) : Move ρ → List (Operation ρ)
  | .enter (.protect host protocol plaintext) =>
    match announcing host x.security x.random plaintext with
    | some (cipher,key) => [.protect (pinning host (widened cipher) key) protocol plaintext]
    | none => [.protect host protocol plaintext]
  | .enter op => [op]
  | .leave =>
    match x.calls with
    | .establishing host protocol plaintext cipher key::_ =>
      [.protect (pinning host cipher key) protocol plaintext]
    | _ => []

def Outcome.success : Outcome → Bool
  | sent _ _ result _ => result.success
  | received _ _ result _ => result.success

/-- The success that a move brought. -/
def succeeded (x : Move ρ×Report) : Option Outcome := x.2.outcome.filter Outcome.success

/-- The success of a plain call. -/
def plainSuccess : Operation ρ×Response → Option Outcome
  | (.protect _ protocol plaintext,.outbound result output _) =>
    (some (.sent protocol plaintext result output)).filter Outcome.success
  | (.unprotect _ protocol input,.inbound result payload _) =>
    (some (.received protocol input result payload)).filter Outcome.success
  | _ => none

theorem pinning_find (host : Host ρ) (cipher : IAeadCipher) (key : KeyMaterialView) :
    (pinning host cipher key).ciphers.find cipher.algorithm=some cipher := by
  simp [pinning,AeadCipherRegistry.register,AeadCipherRegistry.find,AeadCipherRegistry.empty,
    KeyedTable.lookup]

/-- Cipher and key alone decide that a payload is ready to be sealed. -/
theorem Ready.pinned {host : Host ρ} {s : TransportSecurity} {plaintext : Span}
    {cipher cipher' : IAeadCipher} {key : KeyMaterialView} (h : Ready host s plaintext cipher key)
    (algorithm : cipher'.algorithm=cipher.algorithm) (size : cipher'.keySize=cipher.keySize) :
    Ready (pinning host cipher' key) s plaintext cipher' key where
  valid := h.valid
  bounded := h.bounded
  enabled := h.enabled
  cipher_found := by
    rw [← AeadCipherRegistry.find_algorithm h.cipher_found,← algorithm]
    exact pinning_find host cipher' key
  key_found := rfl
  key_size := h.key_size.trans size.symm

theorem Ready.of_config {host : Host ρ} {s t : TransportSecurity} {plaintext : Span}
    {cipher : IAeadCipher} {key : KeyMaterialView} (h : Ready host s plaintext cipher key)
    (same : t.config=s.config) : Ready host t plaintext cipher key := by
  refine ⟨h.valid,?_,?_,?_,?_,h.key_size⟩
  · rw [same]
    exact h.bounded
  · rw [same]
    exact h.enabled
  · rw [same]
    exact h.cipher_found
  · rw [same]
    exact h.key_found

/-- Without room for the nonce the session is all that `Protect` leaves. -/
theorem protect_widened {host : Host ρ} {s : TransportSecurity} {r : ρ} {plaintext : Span}
    {cipher : IAeadCipher} {key : KeyMaterialView} (h : Ready host s plaintext cipher key)
    (ok : (ensureSessionID host s r).ok=true) (protocol : UInt8) :
    let o := protect (pinning host (widened cipher) key) s r protocol plaintext
    o.security=(ensureSessionID host s r).security ∧ o.random=(ensureSessionID host s r).random ∧
      o.result.success=false := by
  intro o
  have same : ensureSessionID (pinning host (widened cipher) key) s r=ensureSessionID host s r := rfl
  have ready : Ready (pinning host (widened cipher) key) s plaintext (widened cipher) key :=
    Ready.pinned h rfl rfl
  have he : o=_ := protect_established ready (same ▸ ok) protocol
  rw [he,same]
  unfold protectEstablished
  split_ifs with exhausted wide
  · exact ⟨rfl,rfl,rfl⟩
  · exact ⟨rfl,rfl,rfl⟩
  · exact absurd (Or.inl (by decide : (256 : Nat)>0xFF)) wide

/-- In a ready session a suspended `Protect` goes on as a plain one would. -/
theorem protect_pinned {host : Host ρ} {s : TransportSecurity} {plaintext : Span}
    {cipher : IAeadCipher} {key : KeyMaterialView}
    (h : Ready (pinning host cipher key) s plaintext cipher key) (ready : s.sessionReady=true)
    (r : ρ) (protocol : UInt8) :
    protect (pinning host cipher key) s r protocol plaintext=
      protectEstablished host s r [] cipher key protocol plaintext := by
  have kept : ensureSessionID (pinning host cipher key) s r=⟨true,s,r,[]⟩ := if_pos ready
  rw [protect_established h (by rw [kept]),kept]
  rfl

/-- Every `Protect` that waits for an observer would find its cipher and key usable and its session
ready. -/
def Waiting (x : Service ρ) : Prop :=
  ∀ host protocol plaintext cipher key,
    Frame.establishing host protocol plaintext cipher key∈x.calls →
      Ready (pinning host cipher key) x.security plaintext cipher key ∧ x.security.sessionReady=true

def Move.isSetConfig : Move ρ → Bool
  | enter op => op.isSetConfig
  | leave => false

def Move.isControl : Move ρ → Bool
  | enter op => op.isControl
  | leave => false

/-- No observer calls `SetConfig` while a `Protect` waits for the session it announced. -/
def Calm (x : Service ρ) (m : Move ρ) : Prop :=
  m.isSetConfig=true → ∀ host protocol plaintext cipher key,
    Frame.establishing host protocol plaintext cipher key∉x.calls

theorem announceSession_state (x : Service ρ) (calls : List (Frame ρ)) (previous : UInt64) :
    (announceSession x calls previous).1.security=x.security ∧
    (announceSession x calls previous).1.random=x.random ∧
    (announceSession x calls previous).2.outcome=none ∧
    ∀ host protocol plaintext cipher key,
      Frame.establishing host protocol plaintext cipher key∈(announceSession x calls previous).1.calls →
      Frame.establishing host protocol plaintext cipher key∈calls := by
  unfold announceSession
  split_ifs
  · exact ⟨rfl,rfl,rfl,by simp⟩
  · exact ⟨rfl,rfl,rfl,by simp⟩

/-- One plain call for a move that ends as it does. -/
theorem matched_one {x : TransportSecurity×ρ} {op : Operation ρ} {y : TransportSecurity×ρ}
    {m : Move ρ} {report : Report} (state : (TransportSecurity.step x op).1=y)
    (same : plainSuccess (op,(TransportSecurity.step x op).2)=succeeded (m,report)) :
    (TransportSecurity.machine ρ).after x [op]=y ∧
    ((TransportSecurity.machine ρ).trace x [op]).filterMap plainSuccess=
      (succeeded (m,report)).toList := by
  refine ⟨state,?_⟩
  rw [← same]
  show List.filterMap plainSuccess [(op,(TransportSecurity.step x op).2)]=_
  cases hp : plainSuccess (op,(TransportSecurity.step x op).2) <;> simp [hp]

theorem protect_silent {x : TransportSecurity×ρ} {host : Host ρ} {protocol : UInt8}
    {plaintext : Span} (h : (protect host x.1 x.2 protocol plaintext).result.success=false) :
    plainSuccess (.protect host protocol plaintext,
      (TransportSecurity.step x (.protect host protocol plaintext)).2)=none := by
  simp [plainSuccess,TransportSecurity.step,Outcome.success,h]

/-- A move does what its plain calls do, and brings the success that they bring. -/
theorem step_matched {x : Service ρ} (waiting : Waiting x) (m : Move ρ) :
    (TransportSecurity.machine ρ).after (x.security,x.random) (plainCalls x m)=
      ((step x m).1.security,(step x m).1.random) ∧
    ((TransportSecurity.machine ρ).trace (x.security,x.random) (plainCalls x m)).filterMap
      plainSuccess=(succeeded (m,(step x m).2)).toList := by
  cases m with
  | enter op =>
    cases op with
    | protect host protocol plaintext =>
      cases ha : announcing host x.security x.random plaintext with
      | none =>
        simp only [plainCalls,step,enter,ha]
        exact matched_one rfl rfl
      | some ck =>
        obtain ⟨cipher,key⟩ := ck
        obtain ⟨ready,_,_,ok⟩ := announcing_some ha
        obtain ⟨security,random,failed⟩ := protect_widened ready ok protocol
        simp only [plainCalls,step,enter,ha]
        exact matched_one (Prod.ext security random)
          (protect_silent (x := (x.security,x.random)) failed)
    | unprotect host protocol input => exact matched_one rfl rfl
    | setConfig config => exact matched_one rfl rfl
    | resetReplayProtection => exact matched_one rfl rfl
    | registerObserver => exact matched_one rfl rfl
  | leave =>
    have idle : ∀ y : Service ρ×Report,y.1.security=x.security → y.1.random=x.random →
        y.2.outcome=none →
        (TransportSecurity.machine ρ).after (x.security,x.random) []=(y.1.security,y.1.random) ∧
        ((TransportSecurity.machine ρ).trace (x.security,x.random) []).filterMap plainSuccess=
          (succeeded ((Move.leave : Move ρ),y.2)).toList := by
      intro y security random outcome
      rw [security,random,succeeded,outcome]
      exact ⟨rfl,rfl⟩
    obtain ⟨security,random,calls⟩ := x
    cases calls with
    | nil => exact idle _ rfl rfl rfl
    | cons frame calls =>
      cases frame with
      | returning => exact idle _ rfl rfl rfl
      | sessionReset previous =>
        obtain ⟨hs,hr,ho,_⟩ := announceSession_state
          ⟨security,random,.sessionReset previous::calls⟩ calls previous
        exact idle _ hs hr ho
      | configurationChanged previous =>
        by_cases reset : previous≠0 ∧ previous≠security.sessionID
        · simp only [step,leave,if_pos reset]
          exact idle (⟨security,random,.sessionReset previous::calls⟩,_) rfl rfl rfl
        · obtain ⟨hs,hr,ho,_⟩ := announceSession_state
            ⟨security,random,.configurationChanged previous::calls⟩ calls previous
          simp only [step,leave,if_neg reset]
          exact idle _ hs hr ho
      | establishing host protocol plaintext cipher key =>
        obtain ⟨ready,session⟩ := waiting host protocol plaintext cipher key (by simp)
        have same := protect_pinned ready session random protocol
        simp only [plainCalls,step,leave]
        refine matched_one ?_ ?_
        · simp only [TransportSecurity.step,same]
          rfl
        · simp only [TransportSecurity.step,same]
          rfl

/-- Which calls wait for an announced session after a move. -/
theorem establishing_step {x : Service ρ} {m : Move ρ} {host : Host ρ} {protocol : UInt8}
    {plaintext : Span} {cipher : IAeadCipher} {key : KeyMaterialView}
    (h : Frame.establishing host protocol plaintext cipher key∈(step x m).1.calls) :
    Frame.establishing host protocol plaintext cipher key∈x.calls ∨
    m=.enter (.protect host protocol plaintext) ∧
      announcing host x.security x.random plaintext=some (cipher,key) := by
  have finished : ∀ (calls : List (Frame ρ)) s r result,
      Frame.establishing host protocol plaintext cipher key∈(Service.finish calls s r result).calls →
      Frame.establishing host protocol plaintext cipher key∈calls := by
    intro calls s r result hf
    unfold Service.finish at hf
    split_ifs at hf
    · simpa using hf
    · exact hf
  cases m with
  | enter op =>
    cases op with
    | protect host' protocol' plaintext' =>
      cases ha : announcing host' x.security x.random plaintext' with
      | none =>
        simp only [step,enter,ha] at h
        exact Or.inl (finished _ _ _ _ h)
      | some ck =>
        simp only [step,enter,ha,List.mem_cons] at h
        rcases h with he|h
        · injection he with h1 h2 h3 h4 h5
          subst h1 h2 h3 h4 h5
          exact Or.inr ⟨rfl,ha⟩
        · exact Or.inl h
    | unprotect host' protocol' input => exact Or.inl (finished _ _ _ _ h)
    | setConfig config =>
      simp only [step,enter] at h
      split_ifs at h
      · exact Or.inl (by simpa using h)
      · exact Or.inl h
    | resetReplayProtection =>
      simp only [step,enter] at h
      split_ifs at h
      · exact Or.inl (by simpa using h)
      · exact Or.inl h
    | registerObserver => exact Or.inl h
  | leave =>
    obtain ⟨security,random,calls⟩ := x
    cases calls with
    | nil => exact Or.inl h
    | cons frame calls =>
      refine Or.inl (List.mem_cons_of_mem _ ?_)
      cases frame with
      | returning => exact h
      | sessionReset previous => exact (announceSession_state _ calls previous).2.2.2 _ _ _ _ _ h
      | configurationChanged previous =>
        simp only [step,leave] at h
        split_ifs at h
        · simpa using h
        · exact (announceSession_state _ calls previous).2.2.2 _ _ _ _ _ h
      | establishing host' protocol' plaintext' cipher' key' => exact finished _ _ _ _ h

/-- A move amounts to calls of `Protect` or to the call that it makes. -/
theorem mem_plainCalls {x : Service ρ} {m : Move ρ} {op : Operation ρ} (h : op∈plainCalls x m) :
    m=.enter op ∨ ∃ host protocol plaintext,op=.protect host protocol plaintext := by
  cases m with
  | enter entered =>
    cases entered with
    | protect host protocol plaintext =>
      simp only [plainCalls] at h
      split at h <;> exact Or.inr ⟨_,_,_,List.mem_singleton.mp h⟩
    | unprotect host protocol input => exact Or.inl (by rw [List.mem_singleton.mp h])
    | setConfig config => exact Or.inl (by rw [List.mem_singleton.mp h])
    | resetReplayProtection => exact Or.inl (by rw [List.mem_singleton.mp h])
    | registerObserver => exact Or.inl (by rw [List.mem_singleton.mp h])
  | leave =>
    simp only [plainCalls] at h
    split at h
    · exact Or.inr ⟨_,_,_,List.mem_singleton.mp h⟩
    · exact absurd h (by simp)

theorem plainCalls_setConfig {x : Service ρ} {m : Move ρ} (h : m.isSetConfig=false) :
    ∀op∈plainCalls x m,op.isSetConfig=false := by
  intro op hop
  obtain rfl|⟨_,_,_,rfl⟩ := mem_plainCalls hop
  · exact h
  · rfl

theorem plainCalls_control {x : Service ρ} {m : Move ρ} (h : m.isControl=false) :
    ∀op∈plainCalls x m,op.isControl=false := by
  intro op hop
  obtain rfl|⟨_,_,_,rfl⟩ := mem_plainCalls hop
  · exact h
  · rfl

theorem waiting_step {x : Service ρ} {m : Move ρ} (waiting : Waiting x) (calm : Calm x m) :
    Waiting (step x m).1 := by
  intro host protocol plaintext cipher key h
  cases hm : m.isSetConfig with
  | true =>
    obtain old|⟨rfl,_⟩ := establishing_step h
    · exact absurd old (calm hm host protocol plaintext cipher key)
    · exact absurd hm (by simp [Move.isSetConfig,Operation.isSetConfig])
  | false =>
    have plain := plainCalls_setConfig (x := x) hm
    have follows := run_follows (x.security,x.random) (plainCalls x m) plain
    rw [(step_matched waiting m).1] at follows
    obtain old|⟨rfl,ha⟩ := establishing_step h
    · obtain ⟨ready,session⟩ := waiting host protocol plaintext cipher key old
      exact ⟨Ready.of_config ready follows.config,(follows.session session).1⟩
    · obtain ⟨ready,_,_,ok⟩ := announcing_some ha
      refine ⟨Ready.of_config (Ready.pinned ready rfl rfl) follows.config,?_⟩
      simp only [step,enter,ha]
      exact ensureSessionID_ready ok

/-! ### Runs -/

/-- Session and sequence of the envelope that an outcome put out. -/
def Outcome.outbound : Outcome → Option (UInt64×UInt64)
  | sent _ _ result output =>
    if result.success ∧ result.isProtected then identity output else none
  | received _ _ _ _ => none

/-- Domain and sequence of the protected payload that an outcome handed over. -/
def Outcome.inbound : Outcome → Option (ReplayDomain×UInt64)
  | sent _ _ _ _ => none
  | received _ _ result payload =>
    if result.success ∧ result.isProtected then some (payload.domain,payload.sequence) else none

theorem plainSuccess_outbound (x : TransportSecurity×ρ) (op : Operation ρ) :
    (plainSuccess (op,(TransportSecurity.step x op).2)).bind Outcome.outbound=
      outboundID (op,(TransportSecurity.step x op).2) := by
  cases op with
  | protect host protocol plaintext =>
    simp only [plainSuccess,TransportSecurity.step,outboundID,emitted,Option.filter_some]
    cases hs : (protect host x.1 x.2 protocol plaintext).result.success <;>
      cases hp : (protect host x.1 x.2 protocol plaintext).result.isProtected <;>
        simp [Outcome.success,Outcome.outbound,hs,hp]
  | unprotect host protocol input =>
    simp only [plainSuccess,TransportSecurity.step,outboundID,emitted,Option.filter_some]
    split_ifs <;> rfl
  | setConfig config => rfl
  | resetReplayProtection => rfl
  | registerObserver => rfl

theorem plainSuccess_inbound (x : TransportSecurity×ρ) (op : Operation ρ) :
    (plainSuccess (op,(TransportSecurity.step x op).2)).bind Outcome.inbound=
      committed (TransportSecurity.step x op).2 := by
  cases op with
  | protect host protocol plaintext =>
    simp only [plainSuccess,TransportSecurity.step,committed,Option.filter_some]
    split_ifs <;> rfl
  | unprotect host protocol input =>
    simp only [plainSuccess,TransportSecurity.step,committed,Option.filter_some]
    cases hs : (unprotect host x.1 protocol input).result.success <;>
      cases hp : (unprotect host x.1 protocol input).result.isProtected <;>
        simp [Outcome.success,Outcome.inbound,UnprotectedPayload.domain,hs,hp]
  | setConfig config => rfl
  | resetReplayProtection => rfl
  | registerObserver => rfl

theorem filterMap_plainSuccess {β : Type} (project : Outcome → Option β)
    (view : Operation ρ×Response → Option β)
    (same : ∀ x op,(plainSuccess (op,(TransportSecurity.step x op).2)).bind project=
      view (op,(TransportSecurity.step x op).2))
    (x : TransportSecurity×ρ) (ops : List (Operation ρ)) :
    (((TransportSecurity.machine ρ).trace x ops).filterMap plainSuccess).filterMap project=
      ((TransportSecurity.machine ρ).trace x ops).filterMap view := by
  rw [List.filterMap_filterMap]
  apply List.filterMap_congr
  intro y hy
  obtain ⟨past,_,_,answer⟩ := (TransportSecurity.machine ρ).mem_trace hy
  have entry : y=(y.1,(TransportSecurity.step ((TransportSecurity.machine ρ).after x past) y.1).2) :=
    Prod.ext rfl answer
  rw [entry]
  exact same _ _

/-- Whatever the observers do in their callbacks, to any depth, short of calling `SetConfig` while a
`Protect` announces its session: the run is one of plain calls, which reach the same state with the same
successes in the same order. So until the next `SetConfig` all envelopes share a session and count up,
and until the next emptying of the replay window no two accepted payloads share domain and sequence. -/
theorem callbacks_flatten (config : TransportSecurityConfig) (r : ρ) (ms : List (Move ρ))
    (calm : (machine ρ).Along (fun _ => Calm) (Service.new config r) ms) :
    let start := Service.new config r
    let ops := (machine ρ).expanded plainCalls start ms
    reached config r ops=
      (((machine ρ).after start ms).security,((machine ρ).after start ms).random) ∧
    (history config r ops).filterMap plainSuccess=((machine ρ).trace start ms).filterMap succeeded ∧
    ∀ past epoch,ms=past++epoch →
      let successes := ((machine ρ).trace ((machine ρ).after start past) epoch).filterMap succeeded
      ((∀m∈epoch,m.isSetConfig=false) → (successes.filterMap Outcome.outbound).Pairwise
        (fun i j => i.1=j.1 ∧ i.1≠0 ∧ i.2<j.2)) ∧
      ((∀m∈epoch,m.isControl=false) → (successes.filterMap Outcome.inbound).Nodup) := by
  intro start ops
  have begins : Waiting start := by
    intro host protocol plaintext cipher key h
    exact absurd h (by simp [start,Service.new])
  have flat := fun (x : Service ρ) (waiting : Waiting x) (as : List (Move ρ)) =>
    (machine ρ).expansion (TransportSecurity.machine ρ) (fun y => (y.security,y.random)) plainCalls
      succeeded plainSuccess (I := Waiting) (P := Calm) (fun _ _ hw hc => waiting_step hw hc)
      (fun _ a hw _ => step_matched hw a) waiting as
  obtain ⟨state,successes⟩ := flat start begins ms calm
  refine ⟨state,successes,?_⟩
  intro past epoch split now
  subst split
  have before : (machine ρ).Along (fun _ => Calm) start past := Machine.Along.left _ calm
  have waiting : Waiting ((machine ρ).after start past) :=
    (machine ρ).invariant (I := fun _ x => Waiting x) (P := fun _ => Calm) begins
      (fun _ _ _ hw hc => waiting_step hw hc) past before
  have after : (machine ρ).Along (fun _ => Calm) ((machine ρ).after start past) epoch := by
    intro done m rest he
    have step := calm (past++done) m rest (by rw [he,List.append_assoc])
    rwa [(machine ρ).after_append] at step
  obtain ⟨reaches,_⟩ := flat start begins past before
  obtain ⟨_,same⟩ := flat _ waiting epoch after
  rw [← reaches] at same
  have known : now=_ := same.symm
  constructor
  · intro plain
    rw [known,filterMap_plainSuccess Outcome.outbound outboundID plainSuccess_outbound]
    apply epoch_increasing (run_consistent _ _ (new_consistent config))
    intro op hop
    obtain ⟨u,m,hm,ho⟩ := (machine ρ).mem_expanded hop
    exact plainCalls_setConfig (plain m hm) op ho
  · intro plain
    rw [known,filterMap_plainSuccess Outcome.inbound (fun y => committed y.2) plainSuccess_inbound]
    have distinct := (run_distinct config r ops).nodup
    simp only [history,ops] at distinct
    rw [(machine ρ).expanded_append,(TransportSecurity.machine ρ).trace_append,
      sinceReset_append,List.filterMap_append] at distinct
    · exact (List.nodup_append.mp distinct).2.1
    · intro y hy
      obtain ⟨left,right,split,_⟩ := (TransportSecurity.machine ρ).mem_trace hy
      have taken : y.1∈(machine ρ).expanded plainCalls ((machine ρ).after start past) epoch := by
        rw [split]
        simp
      obtain ⟨u,m,hm,ho⟩ := (machine ρ).mem_expanded taken
      exact plainCalls_control (plain m hm) y.1 ho

/-- An observer that sends from the announcement of the session: its envelope goes first. -/
theorem callbacks_flatten_nested :
    let config : TransportSecurityConfig := {outboundAlgorithm := .testOnly}
    let host := testHost (TinyCipher .testOnly 2 2 2) 1 [1,2]
    let ms : List (Move UInt8) := [.enter .registerObserver,.enter (.protect host 3 (.bytes [9])),
      .enter (.protect host 3 (.bytes [8])),.leave]
    let successes := ((machine UInt8).trace (Service.new config 1) ms).filterMap succeeded
    successes.map (fun | .sent _ plaintext _ _ => plaintext.content | _ => [])=[[8],[9]] ∧
    (successes.filterMap Outcome.outbound).map Prod.snd=[1,2] ∧
    (successes.filterMap Outcome.outbound).Pairwise (fun i j => i.1=j.1 ∧ i.1≠0 ∧ i.2<j.2) := by
  intro config host ms successes
  have plain : ∀m∈ms,m.isSetConfig=false := by
    intro m hm
    simp only [ms,List.mem_cons,List.not_mem_nil,or_false] at hm
    rcases hm with rfl|rfl|rfl|rfl <;> rfl
  have calm : (machine UInt8).Along (fun _ => Calm) (Service.new config 1) ms := by
    intro past m future split control
    have quiet := plain m (by rw [split]; simp)
    exact absurd control (by simp [quiet])
  refine ⟨by decide +kernel,by decide +kernel,?_⟩
  exact ((callbacks_flatten config 1 ms calm).2.2 [] ms rfl).1 plain

/-- Without `Calm` the envelope may come out under session 0, which no receiver takes. -/
example :
    let config : TransportSecurityConfig := {outboundAlgorithm := .testOnly}
    let host := testHost (TinyCipher .testOnly 2 2 2) 1 [1,2]
    let ms : List (Move UInt8) := [.enter .registerObserver,.enter (.protect host 3 (.bytes [9])),
      .enter (.setConfig config),.leave,.leave,.leave]
    (((machine UInt8).trace (Service.new config 1) ms).filterMap succeeded).filterMap
      Outcome.outbound=[(0,1)] := by
  decide +kernel

end Reentrant
end ESPressioSecurity
