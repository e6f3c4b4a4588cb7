import Perihelion.Escrow.Instructions

/-! # The intent behind an instruction

Whatever the escrow sends, it sends for the intent of one lock: the lock on record is
the one that the hash of the intent names, and it has the intent's user, asset and
minimum.
-/

namespace Perihelion.Escrow

open BigEndian Fallible Transition

/-- A `lock` of the past has taken the intent, and found it valid with its signature. -/
def Validated (d : Deployment) (w : World) (intent : Intent) : Prop :=
  ∃ tx signature v v', (system d).Reachable v ∧ tx.call = .lock intent signature ∧
    validateIntent (tx.context d) intent signature (v.enter tx) = .ok (hashIntent d intent) ∧
    next d v (.tx tx) = some v' ∧ (system d).Later v' w

theorem Validated.later {d : Deployment} {w w' : World} {intent : Intent}
    (validated : Validated d w intent) (later : (system d).Later w w') : Validated d w' intent := by
  obtain ⟨tx, signature, v, v', reach, call, valid, stepped, earlier⟩ := validated
  exact ⟨tx, signature, v, v', reach, call, valid, stepped, earlier.trans later⟩

/-- The message was sent when `intent` was locked. -/
structure Commissions (d : Deployment) (w : World) (params : MessagingParams) (intent : Intent) :
    Prop where
  message : params.message =
    encodeFillInstruction d (hashIntent d intent) intent (w.locks (hashIntent d intent)).solver
  validated : Validated d w intent
  owned : intent.user ≠ 0
  user : (w.locks (hashIntent d intent)).user = intent.user
  asset : (w.locks (hashIntent d intent)).asset = intent.sourceAsset
  minDestAmount : (w.locks (hashIntent d intent)).minDestAmount = intent.minDestAmount
  destination : intent.destination.length ≤ maxDestinationLen
  destAsset : intent.destAsset.length ≤ maxDestAssetLen

theorem Commissions.later {d : Deployment} {w w' : World} {params intent}
    (commissions : Commissions d w params intent) (reach : (system d).Reachable w)
    (later : (system d).Later w w') : Commissions d w' params intent := by
  have follows := follows_of_later reach later (hashIntent d intent)
  have recorded : (w.funds.locks (hashIntent d intent)).user ≠ 0 := by
    rw [show (w.funds.locks (hashIntent d intent)).user = intent.user from commissions.user]
    exact commissions.owned
  have same : SameTerms (w.locks (hashIntent d intent)) (w'.locks (hashIntent d intent)) :=
    follows.terms recorded
  refine ⟨?_, commissions.validated.later later, commissions.owned, ?_, ?_, ?_,
    commissions.destination, commissions.destAsset⟩
  · rw [same.solver]
    exact commissions.message
  · rw [same.user]
    exact commissions.user
  · rw [same.asset]
    exact commissions.asset
  · rw [same.minDestAmount]
    exact commissions.minDestAmount

theorem next_commissions {d : Deployment} {tx : Tx} {w w' : World} (reach : (system d).Reachable w)
    (stepped : next d w (.tx tx) = some w') :
    w'.sent = w.sent ∨ ∃ params intent,
      w'.sent = w.sent ++ [params] ∧ Commissions d w' params intent := by
  rcases exec_sends (next_tx.mp stepped).2 with
    same | ⟨intent, signature, received, call, valid, sent, written⟩
  · exact Or.inl same
  · obtain ⟨-, -, owned, -, -, minimum⟩ := validateIntent_ok valid
    have checks := (validateIntent_iff.mp valid).1
    refine Or.inr ⟨_, intent, sent, ?_⟩
    have validated : Validated d w' intent :=
      ⟨tx, signature, w, w', reach, call, valid, stepped, System.Later.refl w'⟩
    refine ⟨?_, validated, owned, ?_, ?_, ?_, checks.destination.2, checks.destAsset.2⟩
    · rw [written]
      rfl
    · rw [written]
      rfl
    · rw [written]
      rfl
    · rw [written]
      exact Nat.mod_eq_of_lt minimum

theorem commissions_of_reachable {d : Deployment} {w : World} (reach : (system d).Reachable w) :
    ∀ params ∈ w.sent, ∃ intent, Commissions d w params intent := by
  refine reach.invariant
    (P := fun w => ∀ params ∈ w.sent, ∃ intent, Commissions d w params intent) ?_ ?_
  · intro w given params sent
    obtain ⟨creation, made⟩ := given
    rw [(construct_ok made).2.1] at sent
    cases sent
  · intro w input w' reached holds stepped params sent
    have kept (earlier : params ∈ w.sent) : ∃ intent, Commissions d w' params intent := by
      obtain ⟨intent, commissions⟩ := holds params earlier
      exact ⟨intent, commissions.later reached (System.Later.of_step stepped)⟩
    cases input with
    | tx tx =>
        rcases next_commissions reached stepped with same | ⟨fresh, intent, appended, commissions⟩
        · exact kept (same ▸ sent)
        · rw [appended, List.mem_append, List.mem_singleton] at sent
          rcases sent with earlier | rfl
          · exact kept earlier
          · exact ⟨intent, commissions⟩
    | tokenArrives token amount | nativeArrives amount =>
        cases stepped
        exact kept sent

end Perihelion.Escrow
