import ESPressioSecurity.Model.ReplayHistory
import ESPressioSecurity.System.SecureChannel

namespace ESPressioSecurity

open Framework

namespace TransportSecurity

variable {ρ : Type}

/-- A call adds to the replay window at most what its response says was committed. -/
theorem step_remembers {y : TransportSecurity×ρ} (op : Operation ρ) {d : ReplayDomain} {C : Set Nat}
    (h : y.1.replay.Committed d C) :
    ∃ D,(step y op).1.1.replay.Committed d D ∧
      ∀q∈D,q∈C ∨ ∃ s,committed (step y op).2=some (d,s) ∧ s.toNat=q := by
  cases other : op.isControl with
  | true =>
    refine ⟨∅,?_,fun _ hq => hq.elim⟩
    cases op with
    | setConfig config => rfl
    | resetReplayProtection => rfl
    | protect host protocol plaintext => exact absurd other (by simp [Operation.isControl])
    | unprotect host expectedProtocol input => exact absurd other (by simp [Operation.isControl])
    | registerObserver => exact absurd other (by simp [Operation.isControl])
  | false =>
    rw [(step_replay y op other).2]
    cases hk : committed (step y op).2 with
    | none => exact ⟨C,h,fun _ hq => Or.inl hq⟩
    | some dq =>
      obtain ⟨e,q⟩ := dq
      by_cases he : e=d
      · subst he
        refine ⟨insert q.toNat C,ReplayWindow.committed_commit _ e q C h,?_⟩
        rintro p (rfl|hp)
        · exact Or.inr ⟨q,rfl,rfl⟩
        · exact Or.inl hp
      · exact ⟨C,ReplayWindow.committed_commit_ne _ e d q C (Ne.symm he) h,fun _ hp => Or.inl hp⟩

theorem committed_ok {host : Host ρ} {s : TransportSecurity} {protocol : UInt8} {input : Span}
    {x : ReplayDomain×UInt64} (h : committed (unprotect host s protocol input).response=some x) :
    (unprotect host s protocol input).result=.ok true := by
  have ok : (unprotect host s protocol input).result.success=true := by
    simp only [committed,UnprotectOutcome.response] at h
    split_ifs at h with hs
    exact hs.1
  obtain ⟨_,_,_,he⟩|⟨header,cipher,key,_,_,_,he⟩ := unprotect_success ok
  · rw [he] at h
    exact absurd h (by simp [passPlaintext,committed,UnprotectOutcome.response])
  · rw [he]
    rfl

/-- Only `Unprotect` commits. -/
theorem committed_some {y : TransportSecurity×ρ} {op : Operation ρ} {x : ReplayDomain×UInt64}
    (h : committed (step y op).2=some x) :
    ∃ host protocol input,op=.unprotect host protocol input ∧
      committed (unprotect host y.1 protocol input).response=some x := by
  cases op with
  | unprotect host protocol input => exact ⟨host,protocol,input,rfl,h⟩
  | protect host protocol plaintext => exact absurd h (by simp [step,committed])
  | setConfig config => exact absurd h (by simp [step,committed])
  | resetReplayProtection => exact absurd h (by simp [step,committed])
  | registerObserver => exact absurd h (by simp [step,committed])

end TransportSecurity

namespace Deployment

variable {ι κ ρ : Type} [DecidableEq ι] [DecidableEq κ]

/-- Domain and sequence in the header of an emission. -/
def Emission.identity (em : Emission) : Option (ReplayDomain×Nat) :=
  (TransportSecurity.readHeader em.bytes).map (fun h => (h.domain,h.sequence.toNat))

/-- The identities of all that a history emitted. -/
def emittedIdentities (past : List (Action ι κ ρ×Response)) : List (ReplayDomain×Nat) :=
  (past.filterMap emission).filterMap Emission.identity

omit [DecidableEq ι] [DecidableEq κ] in
theorem emittedIdentities_append (past later : List (Action ι κ ρ×Response)) :
    emittedIdentities (past++later)=emittedIdentities past++emittedIdentities later := by
  simp [emittedIdentities]

omit [DecidableEq ι] [DecidableEq κ] in
theorem mem_emittedIdentities {past : List (Action ι κ ρ×Response)}
    {x : Action ι κ ρ×Response} (hx : x∈past) {em : Emission} (he : emission x=some em)
    {h : TransportSecurity.Header} (read : TransportSecurity.readHeader em.bytes=some h) :
    (h.domain,h.sequence.toNat)∈emittedIdentities past := by
  refine List.mem_filterMap.mpr ⟨em,List.mem_filterMap.mpr ⟨x,hx,he⟩,?_⟩
  rw [Emission.identity,read]
  rfl

/-- Whenever an input reaches instance `rx`, `Open` succeeds only on what the calls so far have sealed;
`size_t` has 32 bits or more, and the lengths that the input states may be any. -/
def Genuine (rx : ι) (past : List (Action ι κ ρ×Response)) (_ : Deployment ι κ ρ) (a : Action ι κ ρ) :
    Prop :=
  ∀ host protocol input,a.on rx=some (.unprotect host protocol input) →
    OpensOnly host (sealsOf (log past)) ∧ 32≤host.sizeBits

/-- All that the replay window holds as seen was emitted. -/
def Remembers (rx : ι) (past : List (Action ι κ ρ×Response)) (w : Deployment ι κ ρ) : Prop :=
  ∀ d,∃ C,(w.transports rx).replay.Committed d C ∧ ∀q∈C,(d,q)∈emittedIdentities past

/-- What a genuine arrival commits was emitted. -/
theorem committed_emitted {w : Deployment ι κ ρ} {as : List (Action ι κ ρ)} {host : Host ρ}
    (only : OpensOnly host (sealsOf (log ((machine ι κ ρ).trace w as)))) {s : TransportSecurity}
    {protocol : UInt8} {input : Span} (width : 32≤host.sizeBits) {d : ReplayDomain} {q : UInt64}
    (h : TransportSecurity.committed (s.unprotect host protocol input).response=some (d,q)) :
    (d,q.toNat)∈emittedIdentities ((machine ι κ ρ).trace w as) := by
  obtain ⟨x,hx,_,payload,found,_,_,_⟩ := transport_authentic only
    (fun _ _ room => TransportSecurity.noWrap_of_room width room) (TransportSecurity.committed_ok h)
  obtain ⟨header,⟨_,_,form⟩,pair⟩ := TransportSecurity.committed_header h
  obtain ⟨rfl,rfl⟩ := Prod.mk.inj pair
  exact mem_emittedIdentities hx found form.read

theorem remembers_step {w : Deployment ι κ ρ} {rx : ι} {as : List (Action ι κ ρ)} {a : Action ι κ ρ}
    (h : Remembers rx ((machine ι κ ρ).trace w as) ((machine ι κ ρ).after w as))
    (ha : Genuine rx ((machine ι κ ρ).trace w as) ((machine ι κ ρ).after w as) a) :
    Remembers rx ((machine ι κ ρ).trace w (as++[a])) ((machine ι κ ρ).after w (as++[a])) := by
  intro d
  obtain ⟨C,hC,known⟩ := h d
  rw [(machine ι κ ρ).trace_snoc,(machine ι κ ρ).after_snoc,emittedIdentities_append]
  have next := step_on ((machine ι κ ρ).after w as) a rx
  change ∃ D,((step ((machine ι κ ρ).after w as) a).1.transports rx).replay.Committed d D ∧ _
  rw [next]
  cases hop : a.on rx with
  | none => exact ⟨C,hC,fun q hq => List.mem_append_left _ (known q hq)⟩
  | some op =>
    obtain ⟨D,hD,added⟩ := TransportSecurity.step_remembers
      (y := (((machine ι κ ρ).after w as).transports rx,((machine ι κ ρ).after w as).random)) op hC
    refine ⟨D,hD,?_⟩
    intro q hq
    apply List.mem_append_left
    obtain old|⟨s,hs,rfl⟩ := added q hq
    · exact known q old
    · obtain ⟨host,protocol,input,rfl,hc⟩ := TransportSecurity.committed_some hs
      obtain ⟨only,width⟩ := ha host protocol input hop
      exact committed_emitted only width hc

theorem remembers_run (configs : ι → TransportSecurityConfig)
    (dataConfigs : κ → DataProtectionConfig) (r : ρ) (rx : ι) (as : List (Action ι κ ρ))
    (h : (machine ι κ ρ).Along (Genuine rx) (new configs dataConfigs r) as) :
    Remembers rx ((machine ι κ ρ).trace (new configs dataConfigs r) as)
      ((machine ι κ ρ).after (new configs dataConfigs r) as) := by
  induction as using List.reverseRecOn with
  | nil =>
    intro d
    refine ⟨∅,?_,fun _ hq => hq.elim⟩
    have replay : (TransportSecurity.new (configs rx)).replay=
        ReplayWindow.new (configs rx).replayWindowSize := by
      rw [TransportSecurity.new]
      split_ifs <;> rfl
    show (TransportSecurity.new (configs rx)).replay.Committed d ∅
    rw [replay]
    exact ReplayWindow.committed_new _ d
  | append_singleton as a ih =>
    obtain ⟨hp,ha⟩ := Machine.Along.snoc _ h
    exact remembers_step (ih hp) ha

/-- Against any network, and whatever is reconfigured or reset, the replay window holds nothing that was
not emitted: the highest sequence of an entry and every bit set in it belong to emissions of its domain,
and there are no more entries than domains that something was emitted in. -/
theorem replay_memory_genuine (configs : ι → TransportSecurityConfig)
    (dataConfigs : κ → DataProtectionConfig) (r : ρ) (rx : ι) (as : List (Action ι κ ρ))
    (h : (machine ι κ ρ).Along (Genuine rx) (new configs dataConfigs r) as) :
    let t := (machine ι κ ρ).trace (new configs dataConfigs r) as
    let window := (((machine ι κ ρ).after (new configs dataConfigs r) as).transports rx).replay
    (∀s∈window.states,(s.domain,s.highest.toNat)∈emittedIdentities t ∧
      ∀ k,k<64 → s.bitmap.toBitVec.getLsbD k=true →
        k ≤ s.highest.toNat ∧ (s.domain,s.highest.toNat-k)∈emittedIdentities t) ∧
    window.states.length≤((emittedIdentities t).map Prod.fst).dedup.length := by
  intro t window
  choose C committed known using remembers_run configs dataConfigs r rx as h
  have entries : ∀s∈window.states,(s.domain,s.highest.toNat)∈emittedIdentities t ∧
      ∀ k,k<64 → s.bitmap.toBitVec.getLsbD k=true →
        k ≤ s.highest.toNat ∧ (s.domain,s.highest.toNat-k)∈emittedIdentities t := by
    intro s hs
    have tracks := ReplayWindow.Committed.entry committed hs
    refine ⟨known s.domain _ tracks.top_mem,?_⟩
    intro k hk set
    obtain ⟨within,seen⟩ := (tracks.bit k hk).mp set
    exact ⟨within,known s.domain _ seen⟩
  refine ⟨entries,?_⟩
  have subset : window.states.map ReplayWindow.State.domain ⊆
      ((emittedIdentities t).map Prod.fst).dedup := by
    intro d hd
    obtain ⟨s,hs,rfl⟩ := List.mem_map.mp hd
    exact List.mem_dedup.mpr (List.mem_map.mpr ⟨_,(entries s hs).1,rfl⟩)
  have shorter := (List.subperm_of_subset window.distinct subset).length_le
  rwa [List.length_map] at shorter

/-- A delivery, a reset, a forgery with the next sequence and the same delivery again leave the one
entry of what was sent. -/
theorem replay_memory_genuine_forged :
    let config : TransportSecurityConfig := {outboundAlgorithm := .testOnly,sessionID := 7}
    let start : Deployment Bool Unit UInt8 := new (fun _ => config) (fun _ => {}) 1
    let host := testHost (TinyCipher .testOnly 2 2 2) 1 [1,2]
    let carried : Action Bool Unit UInt8 := .send false host (fun _ _ => true) 3 (.bytes [9])
    let seals := sealsOf (log ((machine Bool Unit UInt8).trace start [carried]))
    let receiver := testHost (LedgerCipher (TinyCipher .testOnly 2 2 2) seals) 1 [1,2]
    let b := ((start.transports false).protect host 1 3 (.bytes [9])).output
    let arrive (b : Bytes) : Action Bool Unit UInt8 := .receive true receiver ⟨true,true⟩ 3 (.bytes b)
    let as := [carried,arrive b,.transport true .resetReplayProtection,arrive (b.set 28 2),arrive b]
    let t := (machine Bool Unit UInt8).trace start as
    let window := (((machine Bool Unit UInt8).after start as).transports true).replay
    window.states=[⟨⟨0,1,7⟩,1,1⟩] ∧
    (∀s∈window.states,(s.domain,s.highest.toNat)∈emittedIdentities t) ∧
    window.states.length≤((emittedIdentities t).map Prod.fst).dedup.length := by
  intro config start host carried seals receiver b arrive as t window
  have other : ∀ past w (a : Action Bool Unit UInt8),(∀ host protocol input,
      a.on true≠some (.unprotect host protocol input)) → Genuine true past w a := by
    intro past w a idle host protocol input hop
    exact absurd hop (idle host protocol input)
  have arrival : ∀ past w b,sealsOf (log past)=seals → Genuine true past w (arrive b) := by
    intro past w b same host' protocol input hop
    simp only [arrive,Action.on,if_true,Option.some.injEq] at hop
    injection hop with hh
    subst hh
    rw [same]
    exact ⟨testHost_opens_only _ _ 1 [1,2],by decide⟩
  have along := Machine.Along.push (machine Bool Unit UInt8)
    (Machine.Along.push (machine Bool Unit UInt8)
      (Machine.Along.push (machine Bool Unit UInt8)
        (Machine.Along.push (machine Bool Unit UInt8)
          (Machine.Along.push (machine Bool Unit UInt8)
            ((machine Bool Unit UInt8).along_nil (Genuine true) start)
            (other _ _ carried (by simp [carried,Action.on])))
          (arrival _ _ b rfl))
        (other _ _ (.transport true .resetReplayProtection) (by simp [Action.on])))
      (arrival _ _ (b.set 28 2) (by decide +kernel)))
    (arrival _ _ b (by decide +kernel))
  obtain ⟨entries,bound⟩ := replay_memory_genuine (fun _ => config) (fun _ => {}) (1 : UInt8) true as
    along
  refine ⟨by decide +kernel,?_,?_⟩
  · intro s hs
    simp only [window,start] at hs
    simp only [t,start]
    exact (entries s hs).1
  · simp only [window,t,start]
    exact bound

end Deployment
end ESPressioSecurity
