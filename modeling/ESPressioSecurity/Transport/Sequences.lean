import ESPressioSecurity.Transport.Resets

namespace ESPressioSecurity

open Framework

namespace TransportSecurity

variable {ρ : Type}

/-- Whether a result tells of a sequence number that was taken, and whether an envelope has it. -/
def spending (result : SecurityResult) : Option Bool :=
  if result=.ok true then some true
  else if result=.fail .bufferLimitExceeded "Protected output allocation failed" ∨
      result=.fail .randomFailure "Cryptographic nonce generation failed" ∨
      result=.fail .encryptionFailed "AEAD encryption failed" then some false
  else none

/-- What a call did with sequence numbers. -/
def spent : Response → Option Bool
  | .outbound result _ _ => spending result
  | _ => none

/-- The counter moves by one exactly when the result tells of a number. -/
def Accounts (s : TransportSecurity) (out : ProtectOutcome ρ) : Prop :=
  out.security.nextSequence=
    if (spending out.result).isSome then s.nextSequence+1 else s.nextSequence

theorem refuse_accounts {s t : TransportSecurity} (same : t.nextSequence=s.nextSequence) (r : ρ)
    (effects : List Effect) (error : SecurityError) (message : String)
    (free : spending (.fail error message)=none) :
    Accounts s (refuse t r effects error message) := by
  have result : (refuse t r effects error message).result=.fail error message := rfl
  rw [Accounts,result,free]
  exact same

theorem sealed_accounts {host : Host ρ} {s : TransportSecurity} {r : ρ} {effects : List Effect}
    {cipher : IAeadCipher} {key : KeyMaterialView} {protocol : UInt8} {plaintext : Span}
    {out : ProtectOutcome ρ} (h : SealCase host s r effects cipher key protocol plaintext out) :
    Accounts s out := by
  have taken : (spending out.result).isSome=true := by
    cases h with
    | unallocated => rfl
    | unfilled failed => rfl
    | unsealed call failed filled nonce => rfl
    | sealed e seals => rfl
  rw [Accounts,if_pos taken,h.security]
  rfl

theorem protectReady_accounts {host : Host ρ} {s : TransportSecurity} {plaintext : Span}
    {cipher : IAeadCipher} {key : KeyMaterialView} (ready : Ready host s plaintext cipher key) (r : ρ)
    (protocol : UInt8) : Accounts s (protectReady host s r protocol plaintext cipher key) := by
  have session := ensureSessionID_counter host s r
  unfold protectReady
  dsimp only
  split_ifs with hs hq hw
  · exact refuse_accounts session _ _ _ _ (by decide)
  · exact refuse_accounts session _ _ _ _ (by decide)
  · exact refuse_accounts session _ _ _ _ (by decide)
  · simp only [not_or,not_lt,gt_iff_lt] at hw
    have sealing := sealed_accounts (sealEnvelope_cases host (ensureSessionID host s r).security
      (ensureSessionID host s r).random (ensureSessionID host s r).effects cipher key protocol plaintext
      ready.valid hw.1 hw.2.1 hw.2.2)
    rw [Accounts,session] at sealing
    exact sealing

theorem protect_accounts (host : Host ρ) (s : TransportSecurity) (r : ρ) (protocol : UInt8)
    (plaintext : Span) : Accounts s (protect host s r protocol plaintext) := by
  have free : Accounts s (passThrough s r plaintext) := rfl
  unfold protect
  by_cases hv : plaintext.invalid=true ∨ plaintext.size>s.config.maximumPlaintextBytes
  · rw [if_pos hv]
    exact refuse_accounts rfl _ _ _ _ (by decide)
  rw [if_neg hv]
  by_cases hd : s.config.policy=.disabled
  · rw [if_pos hd]
    exact free
  rw [if_neg hd]
  split
  · rename_i cipher key hc hk
    by_cases hs : key.size≠cipher.keySize
    · rw [if_pos hs]
      exact refuse_accounts rfl _ _ _ _ (by decide)
    · rw [if_neg hs]
      rw [not_or,Bool.not_eq_true,not_lt] at hv
      exact protectReady_accounts ⟨hv.1,hv.2,hd,hc,hk,not_not.mp hs⟩ r protocol
  · split_ifs
    · exact free
    · exact refuse_accounts rfl _ _ _ _ (by decide)
  · split_ifs
    · exact free
    · exact refuse_accounts rfl _ _ _ _ (by decide)

/-- The envelopes put out since the last `SetConfig` and the numbers lost since then, in order. -/
def spentSince (past : List (Operation ρ×Response)) : List Bool :=
  (sinceConfig past).filterMap (fun x => spent x.2)

/-- The numbers that went into envelopes. -/
def carried (spent : List Bool) : List Nat :=
  (spent.zipIdx 1).filterMap (fun x => if x.1 then some x.2 else none)

theorem carried_snoc (spent : List Bool) (b : Bool) :
    carried (spent++[b])=carried spent++if b then [spent.length+1] else [] := by
  rw [carried,List.zipIdx_append,List.filterMap_append]
  cases b with
  | true => simp [carried,Nat.add_comm]
  | false => simp [carried]

theorem spentSince_snoc (past : List (Operation ρ×Response)) (x : Operation ρ×Response) :
    spentSince (past++[x])=if x.1.isSetConfig then [] else spentSince past++(spent x.2).toList := by
  rw [spentSince,sinceConfig,List.foldl_append]
  simp only [List.foldl_cons,List.foldl_nil]
  split_ifs with h
  · rfl
  · rw [List.filterMap_append]
    cases hs : spent x.2 <;> simp [hs,spentSince,sinceConfig]

/-- The counter stands one above the numbers spent, and the envelopes carry those that were not lost. -/
structure Accounted (past : List (Operation ρ×Response)) (x : TransportSecurity×ρ) : Prop where
  consistent : x.1.Consistent
  counter : x.1.nextSequence.toNat=(spentSince past).length+1
  sequences : (emittedSince past).map (fun id => id.2.toNat)=carried (spentSince past)

/-- A call that puts out an envelope spends the number the envelope carries. -/
theorem spent_emitted {x : TransportSecurity×ρ} {op : Operation ρ} {b : Bytes}
    (h : emitted (step x op).2=some b) :
    spent (step x op).2=some true ∧
    ∃ sessionID,outboundID (op,(step x op).2)=some (sessionID,x.1.nextSequence) := by
  obtain ⟨host,protocol,plaintext,cipher,key,e,rfl,emits,rfl⟩ := emitted_some h
  have identified : outboundID (.protect host protocol plaintext,
      (step x (.protect host protocol plaintext)).2)=some (e.header.sessionID,e.header.sequence) := by
    simp [outboundID,h,identity,e.readHeader_bytes]
  refine ⟨?_,e.header.sessionID,?_⟩
  · have succeeded : (protect host x.1 x.2 protocol plaintext).result=.ok true := by
      simp only [step,emitted] at h
      split_ifs at h with hs
      obtain ⟨_,he⟩|⟨_,_,_,_,_,_,_,he⟩ := protect_success hs.1
      · rw [he] at hs
        exact absurd hs.2 (by simp [passThrough])
      · rw [he]
    simp only [step,spent,succeeded]
    rfl
  · rw [identified,← (outboundID_some identified).2.1]

theorem spent_silent {x : TransportSecurity×ρ} {op : Operation ρ} (h : emitted (step x op).2=none) :
    spent (step x op).2≠some true := by
  cases op with
  | protect host protocol plaintext =>
    intro hs
    simp only [step,spent,spending] at hs
    split_ifs at hs with ok
    · simp only [step,emitted,ok] at h
      exact absurd h (by simp)
    · exact absurd hs (by simp)
  | unprotect host expectedProtocol input => exact fun hs => absurd hs (by simp [step,spent])
  | setConfig config => exact fun hs => absurd hs (by simp [step,spent])
  | resetReplayProtection => exact fun hs => absurd hs (by simp [step,spent])
  | registerObserver => exact fun hs => absurd hs (by simp [step,spent])

/-- The counter of every call but `SetConfig` moves as its response says. -/
theorem step_counter (x : TransportSecurity×ρ) {op : Operation ρ} (h : op.isSetConfig=false) :
    (step x op).1.1.nextSequence=
      if (spent (step x op).2).isSome then x.1.nextSequence+1 else x.1.nextSequence := by
  cases op with
  | protect host protocol plaintext => exact protect_accounts host x.1 x.2 protocol plaintext
  | unprotect host expectedProtocol input =>
    obtain ⟨w,hw⟩ := unprotect_keeps host x.1 expectedProtocol input
    simp only [step,hw,spent]
    rfl
  | setConfig config => exact absurd h (by simp [Operation.isSetConfig])
  | resetReplayProtection => rfl
  | registerObserver => rfl

theorem accounted_step {past : List (Operation ρ×Response)} {x : TransportSecurity×ρ}
    (h : Accounted past x) (op : Operation ρ) :
    Accounted (past++[(op,(step x op).2)]) (step x op).1 := by
  have consistent := step_consistent x op h.consistent
  cases other : op.isSetConfig with
  | true =>
    refine ⟨consistent,?_,?_⟩
    · rw [spentSince_snoc,if_pos other]
      cases op with
      | setConfig config => rfl
      | protect host protocol plaintext => exact absurd other (by simp [Operation.isSetConfig])
      | unprotect host expectedProtocol input => exact absurd other (by simp [Operation.isSetConfig])
      | resetReplayProtection => exact absurd other (by simp [Operation.isSetConfig])
      | registerObserver => exact absurd other (by simp [Operation.isSetConfig])
    · rw [spentSince_snoc,emittedSince_snoc,if_pos other,if_pos other]
      rfl
  | false =>
    have moved := step_counter x other
    have more : spentSince (past++[(op,(step x op).2)])=
        spentSince past++(spent (step x op).2).toList := by
      simp [spentSince_snoc,other]
    have put : emittedSince (past++[(op,(step x op).2)])=
        emittedSince past++(outboundID (op,(step x op).2)).toList := by
      simp [emittedSince_snoc,other]
    refine ⟨consistent,?_,?_⟩
    · rw [moved,more]
      cases hs : spent (step x op).2 with
      | none => simpa using h.counter
      | some b =>
        rw [hs] at moved
        have room : x.1.nextSequence≠maxSequence := by
          intro last
          apply consistent.counter
          rw [moved,last]
          rfl
        simp only [Option.isSome_some,if_true,Option.toList_some,List.length_append,
          List.length_singleton]
        rw [succ_toNat room,h.counter]
    · rw [put,more,List.map_append,h.sequences]
      cases he : emitted (step x op).2 with
      | none =>
        have silent := spent_silent he
        have unnamed : outboundID (op,(step x op).2)=none := by
          rw [outboundID,he]
          rfl
        rw [unnamed]
        cases hs : spent (step x op).2 with
        | none => simp
        | some b =>
          cases b with
          | true => exact absurd hs silent
          | false => simp [carried_snoc]
      | some b =>
        obtain ⟨hs,sessionID,named⟩ := spent_emitted he
        rw [hs,named]
        simp [carried_snoc,h.counter]

/-- In every run the numbers spent since the last `SetConfig` are 1, 2, 3 and so on, one for each call
that took one; the envelopes carry, in order, those of the calls that succeeded, and the calls that
lost theirs say so in their results. -/
theorem sequences_account (config : TransportSecurityConfig) (r : ρ) (ops : List (Operation ρ)) :
    (reached config r ops).1.nextSequence.toNat=(spentSince (history config r ops)).length+1 ∧
    (emittedSince (history config r ops)).map (fun id => id.2.toNat)=
      carried (spentSince (history config r ops)) := by
  have start : Accounted ([] : List (Operation ρ×Response)) (new config,r) := by
    refine ⟨new_consistent config,?_,rfl⟩
    unfold new
    dsimp only
    split_ifs <;> rfl
  have run : Accounted (history config r ops) (reached config r ops) :=
    (machine ρ).invariant (P := fun _ _ _ => True) start (fun _ _ op h _ => accounted_step h op) ops
      (fun _ _ _ _ => trivial)
  exact ⟨run.counter,run.sequences⟩

end TransportSecurity
end ESPressioSecurity
