import ESPressioSecurity.Transport.Identities

namespace ESPressioSecurity

open Framework

namespace TransportSecurity

variable {ρ : Type}

/-- The part of a history after its last `SetConfig`. -/
def sinceConfig (past : List (Operation ρ×Response)) : List (Operation ρ×Response) :=
  past.foldl (fun since y => if y.1.isSetConfig then [] else since++[y]) []

/-- The identities of the envelopes emitted since the sequence last started from 1. -/
def emittedSince (past : List (Operation ρ×Response)) : List (UInt64×UInt64) :=
  (sinceConfig past).filterMap outboundID

/-- Inbound history of some domain is gone. -/
def Discards (s t : TransportSecurity) : Prop :=
  ∃ d,s.replay.find d≠none ∧ t.replay.find d=none

/-- What an observer is promised about a call: lost replay history and a sequence that starts over
after envelopes were emitted are announced. -/
structure Announces (past : List (Operation ρ×Response)) (x : TransportSecurity×ρ)
    (op : Operation ρ) : Prop where
  replay : Discards x.1 (step x op).1.1 →
    Effect.notified .replayProtectionReset∈(step x op).2.effects
  sequence : ∀ id∈emittedSince past,(step x op).1.1.nextSequence=1 →
    Effect.notified (.sessionReset id.1)∈(step x op).2.effects

/-- A `SetConfig` that finds no replay history and does not go on with the session of envelopes that
were emitted. -/
def Harmless (past : List (Operation ρ×Response)) (x : TransportSecurity×ρ) :
    Operation ρ → Prop
  | .setConfig config =>
    x.1.replay.states=[] ∧ (emittedSince past=[] ∨ config.sessionID≠x.1.sessionID)
  | _ => True

theorem emittedSince_snoc (past : List (Operation ρ×Response)) (y : Operation ρ×Response) :
    emittedSince (past++[y])=
      if y.1.isSetConfig then [] else emittedSince past++(outboundID y).toList := by
  rw [emittedSince,sinceConfig,List.foldl_append]
  simp only [List.foldl_cons,List.foldl_nil]
  split_ifs with h
  · rfl
  · rw [List.filterMap_append]
    cases ho : outboundID y <;> simp [ho,emittedSince,sinceConfig]

/-- Envelopes emitted since the last `SetConfig` belong to the present session, and its counter has
moved on. -/
structure Emitting (past : List (Operation ρ×Response)) (x : TransportSecurity×ρ) : Prop where
  consistent : x.1.Consistent
  session : ∀ id∈emittedSince past,id.1=x.1.sessionID ∧ x.1.sessionReady=true
  counter : ∀ id∈emittedSince past,1<x.1.nextSequence.toNat

theorem emitting_step {past : List (Operation ρ×Response)} {x : TransportSecurity×ρ}
    (h : Emitting past x) (op : Operation ρ) :
    Emitting (past++[(op,(step x op).2)]) (step x op).1 := by
  have consistent := step_consistent x op h.consistent
  cases hc : op.isSetConfig with
  | true =>
    have none : emittedSince (past++[(op,(step x op).2)])=[] := by
      rw [emittedSince_snoc,if_pos hc]
    refine ⟨consistent,?_,?_⟩
    · rw [none]
      exact fun id hid => absurd hid (by simp)
    · rw [none]
      exact fun id hid => absurd hid (by simp)
  | false =>
    have follows := step_follows x op hc
    have more : emittedSince (past++[(op,(step x op).2)])=
        emittedSince past++(outboundID (op,(step x op).2)).toList := by
      rw [emittedSince_snoc,if_neg (by simp [hc])]
    have old : ∀ id∈emittedSince past,(id.1=(step x op).1.1.sessionID ∧
        (step x op).1.1.sessionReady=true) ∧ 1<(step x op).1.1.nextSequence.toNat := by
      intro id hid
      obtain ⟨same,ready⟩ := h.session id hid
      obtain ⟨still,kept⟩ := follows.session ready
      exact ⟨⟨same.trans kept.symm,still⟩,lt_of_lt_of_le (h.counter id hid) follows.counter⟩
    have new : ∀ id∈(outboundID (op,(step x op).2)).toList,(id.1=(step x op).1.1.sessionID ∧
        (step x op).1.1.sessionReady=true) ∧ 1<(step x op).1.1.nextSequence.toNat := by
      intro id hid
      obtain ⟨_,hq,hz,ready,same,next⟩ := outboundID_some (Option.mem_toList.mp hid)
      have positive : id.2.toNat≠0 := by
        intro hn
        exact hz (hq ▸ UInt64.toNat_inj.mp hn)
      exact ⟨⟨same,ready⟩,by omega⟩
    have all : ∀ id∈emittedSince (past++[(op,(step x op).2)]),
        (id.1=(step x op).1.1.sessionID ∧ (step x op).1.1.sessionReady=true) ∧
        1<(step x op).1.1.nextSequence.toNat := by
      rw [more]
      intro id hid
      exact (List.mem_append.mp hid).elim (old id) (new id)
    exact ⟨consistent,fun id hid => (all id hid).1,fun id hid => (all id hid).2⟩

theorem run_emitting (config : TransportSecurityConfig) (r : ρ) (ops : List (Operation ρ)) :
    Emitting ((machine ρ).trace (new config,r) ops) ((machine ρ).after (new config,r) ops) := by
  have start : Emitting (ρ := ρ) [] (new config,r) :=
    ⟨new_consistent config,fun id hid => absurd hid (by simp [emittedSince,sinceConfig]),
      fun id hid => absurd hid (by simp [emittedSince,sinceConfig])⟩
  exact (machine ρ).invariant (P := fun _ _ _ => True) start
    (fun _ _ op h _ => emitting_step h op) ops (fun _ _ _ _ => trivial)

/-- Outside `SetConfig` the sequence does not start over. -/
theorem not_restarted {past : List (Operation ρ×Response)} {x : TransportSecurity×ρ}
    (h : Emitting past x) {op : Operation ρ} (other : op.isSetConfig=false) {id : UInt64×UInt64}
    (hid : id∈emittedSince past) : (step x op).1.1.nextSequence≠1 := by
  have moved := lt_of_lt_of_le (h.counter id hid) (step_follows x op other).counter
  intro one
  rw [one] at moved
  exact absurd moved (by decide)

/-- `Protect` and `Unprotect` lose no replay history. -/
theorem not_discarded {x : TransportSecurity×ρ} {op : Operation ρ} (other : op.isControl=false) :
    ¬Discards x.1 (step x op).1.1 := by
  rintro ⟨d,before,gone⟩
  have after := (step_replay x op other).2
  rw [after] at gone
  cases hc : committed (step x op).2 with
  | none =>
    rw [hc] at gone
    exact before gone
  | some dq =>
    rw [hc,ReplayWindow.record,ReplayWindow.find_commit] at gone
    split_ifs at gone
    exact before gone

theorem states_nil_iff (w : ReplayWindow) : w.states=[] ↔ ∀ d,w.find d=none := by
  constructor
  · intro h d
    rw [ReplayWindow.find,h]
    rfl
  · intro h
    cases hs : w.states with
    | nil => rfl
    | cons s rest =>
      have first := h s.domain
      rw [ReplayWindow.find,hs,KeyedTable.lookup_cons,if_pos rfl] at first
      exact absurd first (by simp)

theorem setConfig_announces_iff {past : List (Operation ρ×Response)} {x : TransportSecurity×ρ}
    (h : Emitting past x) (watched : x.1.observable=true) (config : TransportSecurityConfig) :
    Announces past x (.setConfig config) ↔ Harmless past x (.setConfig config) := by
  have effects : ∀ n,Effect.notified n∈(x.1.setConfig config).2 ↔
      n=.configurationChanged x.1.config config ∨
      (x.1.sessionID≠0 ∧ x.1.sessionID≠config.sessionID) ∧ n=.sessionReset x.1.sessionID ∨
      (config.sessionID≠0 ∧ config.sessionID≠x.1.sessionID) ∧
        n=.sessionEstablished config.sessionID := by
    intro n
    have part : ∀ (p : Prop) [Decidable p] (m : Notification),
        Effect.notified n∈(if p then x.1.notify m else []) ↔ p ∧ n=m := by
      intro p _ m
      split_ifs with hp <;> simp [hp,notify,watched]
    have first : Effect.notified n∈x.1.notify (.configurationChanged x.1.config config) ↔
        n=.configurationChanged x.1.config config := by
      simp [notify,watched]
    unfold setConfig
    simp only [List.mem_append,part,first,decide_eq_true_eq,or_assoc]
  have fresh : ∀ d,(x.1.setConfig config).1.replay.find d=none := fun d => rfl
  constructor
  · intro announces
    constructor
    · rw [states_nil_iff]
      intro d
      by_contra lost
      have told := (effects _).mp (announces.replay ⟨d,lost,fresh d⟩)
      exact absurd told (by simp)
    · by_contra hn
      obtain ⟨some,same⟩ := not_or.mp hn
      obtain ⟨id,hid⟩ := List.exists_mem_of_ne_nil _ some
      have told := (effects _).mp (announces.sequence id hid rfl)
      simp [not_not.mp same] at told
  · rintro ⟨empty,other⟩
    constructor
    · rintro ⟨d,before,_⟩
      exact absurd ((states_nil_iff _).mp empty d) before
    · intro id hid _
      obtain ⟨same,ready⟩ := h.session id hid
      have old : x.1.sessionID≠0 := h.consistent.ready_iff.mp ready
      obtain none|changed := other
      · rw [none] at hid
        exact absurd hid (by simp)
      · apply (effects _).mpr
        rw [same]
        exact Or.inr (Or.inl ⟨⟨old,Ne.symm changed⟩,rfl⟩)

theorem announces_iff {past : List (Operation ρ×Response)} {x : TransportSecurity×ρ}
    (h : Emitting past x) (watched : x.1.observable=true) (op : Operation ρ) :
    Announces past x op ↔ Harmless past x op := by
  have quiet : op.isControl=false → op.isSetConfig=false → Announces past x op := by
    intro control other
    exact ⟨fun lost => absurd lost (not_discarded control),
      fun id hid one => absurd one (not_restarted h other hid)⟩
  cases op with
  | protect host protocol plaintext => exact iff_of_true (quiet rfl rfl) trivial
  | unprotect host expectedProtocol input => exact iff_of_true (quiet rfl rfl) trivial
  | setConfig config => exact setConfig_announces_iff h watched config
  | resetReplayProtection =>
    have told : Effect.notified .replayProtectionReset∈x.1.notify .replayProtectionReset := by
      rw [notify,if_pos watched]
      exact List.mem_singleton_self _
    exact iff_of_true ⟨fun _ => told,fun id hid one => absurd one (not_restarted h rfl hid)⟩ trivial
  | registerObserver => exact iff_of_true (quiet rfl rfl) trivial

/-- An observer hears of every reset in a run exactly when each `SetConfig` it sees finds no replay
history and leaves the session of envelopes that were emitted. -/
theorem resets_announced_iff (config : TransportSecurityConfig) (r : ρ)
    (ops : List (Operation ρ)) :
    (machine ρ).Along (fun past x op => x.1.observable=true → Announces past x op)
        (new config,r) ops ↔
      (machine ρ).Along (fun past x op => x.1.observable=true → Harmless past x op)
        (new config,r) ops := by
  constructor
  · intro announced past op future he watched
    exact (announces_iff (run_emitting config r past) watched op).mp
      (announced past op future he watched)
  · intro harmless past op future he watched
    exact (announces_iff (run_emitting config r past) watched op).mpr
      (harmless past op future he watched)

/-- The same explicit session configured again, after one envelope went out and came back. -/
theorem reset_unannounced :
    let host := testHost (TinyCipher .testOnly 2 2 2) 1 [1,2]
    let config : TransportSecurityConfig := {outboundAlgorithm := .testOnly,sessionID := 5}
    let start : TransportSecurity×UInt8 := ((new config).registerObserver,1)
    let sent := step start (.protect host 0 (.bytes [9]))
    let envelope := (protect host start.1 start.2 0 (.bytes [9])).output
    let received := step sent.1 (.unprotect host 0 (.bytes envelope))
    let again := step received.1 (.setConfig config)
    (emitted sent.2).isSome=true ∧ received.1.1.replay.states.length=1 ∧
    received.1.1.nextSequence=2 ∧ again.1.1.replay.states=[] ∧ again.1.1.nextSequence=1 ∧
    again.2.effects=[.notified (.configurationChanged config config)] := by
  decide

end TransportSecurity
end ESPressioSecurity
