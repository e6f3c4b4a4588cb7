import Perihelion.Escrow.Lifecycle

/-! # What the escrow has sent

The escrow sends nothing but FillInstructions, one for each lock.  A lock keeps its
terms, so in every later state the instruction still states them.
-/

namespace Perihelion.Escrow

open BigEndian Fallible Transition

/-- The message instructs the filling of a lock that is on record with its terms. -/
structure Instructs (d : Deployment) (w : World) (params : MessagingParams) (intentHash : Bytes32)
    (intent : Intent) : Prop where
  message : params.message =
    encodeFillInstruction d intentHash intent (w.locks intentHash).solver
  recorded : (w.locks intentHash).user ≠ 0
  minDestAmount : (w.locks intentHash).minDestAmount = intent.minDestAmount
  deadline : (w.locks intentHash).deadline = intent.deadline
  fits : intent.minDestAmount < uint128 ∧ intent.deadline < uint64

theorem Instructs.follows {d : Deployment} {w w' : World} {params intentHash intent}
    (instructs : Instructs d w params intentHash intent)
    (follows : Follows intentHash w.funds w'.funds) : Instructs d w' params intentHash intent := by
  have same : SameTerms (w.locks intentHash) (w'.locks intentHash) :=
    follows.terms instructs.recorded
  refine ⟨?_, ?_, ?_, ?_, instructs.fits⟩
  · rw [same.solver]
    exact instructs.message
  · rw [same.user]
    exact instructs.recorded
  · rw [same.minDestAmount]
    exact instructs.minDestAmount
  · rw [same.deadline]
    exact instructs.deadline

/-- A transaction sends nothing, or locks an intent and sends its FillInstruction. -/
theorem exec_sends {d : Deployment} {tx : Tx} {w w' : World} (ran : exec d tx w = .ok w') :
    w'.sent = w.sent ∨ ∃ intent signature received, tx.call = .lock intent signature ∧
      validateIntent (tx.context d) intent signature (w.enter tx) = .ok (hashIntent d intent) ∧
        w'.sent = w.sent ++
          [fillInstructionParams (tx.context d) (hashIntent d intent) intent (w.enter tx)] ∧
        w'.locks (hashIntent d intent) = newLock (tx.context d) intent received := by
  obtain ⟨-, ran⟩ := exec_ok.mp ran
  cases call : tx.call with
  | lock intent signature =>
      rw [call] at ran
      obtain ⟨-, intentHash, received, valid, -, -, funds, -, sent⟩ := lock_ok ran
      obtain ⟨rfl, -⟩ := validateIntent_ok valid
      refine Or.inr ⟨intent, signature, received, rfl, valid, sent, ?_⟩
      have locks := congrFun (congrArg Funds.locks funds) (hashIntent d intent)
      simpa [World.funds, Funds.record, Tx.context] using locks
  | lzReceive origin message =>
      rw [call] at ran
      obtain ⟨-, -, -, -, v, handled, rfl⟩ := lzReceive_ok.mp ran
      exact Or.inl (handleMessage_core handled).2
  | cancelExpired intentHash =>
      rw [call] at ran
      obtain ⟨-, -, -, -, rfl⟩ := cancelExpired_ok.mp ran
      left
      exact (World.emit_sent _ _).trans (World.settled_sent _ _ _ _ _ _)
  | skim token receiver amount =>
      rw [call] at ran
      obtain ⟨-, -, -, sent⟩ := skim_ok ran
      exact Or.inl sent
  | _ =>
      have frame := Call.run_admin (by rw [call]; rfl) ran
      exact Or.inl frame.sent

/-- A transaction sends nothing or the FillInstruction of the lock it writes. -/
theorem exec_sent {d : Deployment} {tx : Tx} {w w' : World} (ran : exec d tx w = .ok w') :
    w'.sent = w.sent ∨ ∃ params intentHash intent,
      w'.sent = w.sent ++ [params] ∧ Instructs d w' params intentHash intent := by
  rcases exec_sends ran with same | ⟨intent, signature, received, -, valid, sent, written⟩
  · exact Or.inl same
  · obtain ⟨-, -, owned, -, deadline, minimum⟩ := validateIntent_ok valid
    refine Or.inr ⟨_, hashIntent d intent, intent, sent, ?_⟩
    refine ⟨?_, ?_, ?_, ?_, minimum, deadline⟩
    · rw [written]
      rfl
    · rw [written]
      exact owned
    · rw [written]
      exact Nat.mod_eq_of_lt minimum
    · rw [written]
      exact Nat.mod_eq_of_lt deadline

theorem next_sent {d : Deployment} {input : Input} {w w' : World}
    (stepped : next d w input = some w') :
    w'.sent = w.sent ∨ ∃ params intentHash intent,
      w'.sent = w.sent ++ [params] ∧ Instructs d w' params intentHash intent := by
  cases input with
  | tx tx => exact exec_sent (next_tx.mp stepped).2
  | tokenArrives token amount | nativeArrives amount =>
      cases stepped
      exact Or.inl rfl

theorem instructs_of_reachable {d : Deployment} {w : World} (reach : (system d).Reachable w) :
    ∀ params ∈ w.sent, ∃ intentHash intent, Instructs d w params intentHash intent := by
  refine reach.invariant
    (P := fun w => ∀ params ∈ w.sent, ∃ intentHash intent, Instructs d w params intentHash intent)
    ?_ ?_
  · intro w given params sent
    obtain ⟨creation, made⟩ := given
    rw [(construct_ok made).2.1] at sent
    cases sent
  · intro w input w' reached holds stepped params sent
    have follows := follows_of_later reached (System.Later.of_step stepped)
    rcases next_sent stepped with same | ⟨fresh, intentHash, intent, appended, instructs⟩
    · rw [same] at sent
      obtain ⟨intentHash, intent, instructs⟩ := holds params sent
      exact ⟨intentHash, intent, instructs.follows (follows intentHash)⟩
    · rw [appended, List.mem_append, List.mem_singleton] at sent
      rcases sent with earlier | rfl
      · obtain ⟨intentHash, intent, instructs⟩ := holds params earlier
        exact ⟨intentHash, intent, instructs.follows (follows intentHash)⟩
      · exact ⟨intentHash, intent, instructs⟩

end Perihelion.Escrow
