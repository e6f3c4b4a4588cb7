import Perihelion.Settlement.Combined
import Perihelion.Settlement.WindowCap

/-! # The reputation of a solver

Every confirmed fill counts, and its latency goes into a moving average.  The first sample is
told by an average of 0 and not by the count, so an average that is 0, or comes down to it, is
started again.
-/

namespace Perihelion.Settlement

open BigEndian Fallible Transition

/-! ## The average of a sequence -/

/-- The moving average, started at the first latency. -/
def smoothed : List Nat → Nat
  | [] => 0
  | first :: rest => rest.foldl smooth first

/-- What the contract stores after the samples. -/
def storedAverage (latencies : List Nat) : Nat := latencies.foldl smoothOrStart 0

theorem smoothed_snoc {latencies : List Nat} (some : latencies ≠ []) (latency : Nat) :
    smoothed (latencies ++ [latency]) = smooth (smoothed latencies) latency := by
  cases latencies with
  | nil => exact absurd rfl some
  | cons first rest => simp [smoothed]

theorem storedAverage_snoc (latencies : List Nat) (latency : Nat) :
    storedAverage (latencies ++ [latency]) = smoothOrStart (storedAverage latencies) latency := by
  simp [storedAverage]

/-- One more sample: the two go apart exactly where a zero average gets a positive one. -/
theorem smooth_eq_iff (old latency : Nat) :
    smoothOrStart old latency = smooth old latency ↔ (old = 0 → latency = 0) := by
  unfold smoothOrStart smooth
  by_cases none : old = 0
  · simp only [none, if_true, forall_const]
    omega
  · simp [none]

/-! ## The record -/

/-- The solver whose fill a transaction confirms, and how many ledgers ago it filled. -/
def Tx.confirms (tx : Tx) (w : World) : Option (Address × Nat) :=
  match tx.call with
  | .dispatchConfirmation _ intentHash _ =>
      (w.intent intentHash).bind fun record =>
        record.solver.map fun solver => (solver, tx.sequence - record.fillLedger)
  | .fillIntent solver .. => some (solver, 0)
  | _ => none

/-- The record after one more confirmed fill. -/
def SolverReputationRecord.confirm (rep : SolverReputationRecord) (latency : Nat) :
    SolverReputationRecord where
  fillCount := addSaturating uint64 rep.fillCount 1
  successCount := addSaturating uint64 rep.successCount 1
  ewmaLatency := BitVec.ofNat 128 (smoothOrStart rep.ewmaLatency.toNat latency)

theorem updateSolverReputation_confirm {solver : Address} {latency : Nat} {w w' : World}
    (average : Average ((w.solverReputation solver).getD ⟨0, 0, 0⟩).ewmaLatency)
    (small : latency < 2 ^ 32) (ran : updateSolverReputation solver latency w = .ok w') :
    w'.solverReputation = Function.update w.solverReputation solver
      (some (((w.solverReputation solver).getD ⟨0, 0, 0⟩).confirm latency)) := by
  obtain ⟨new, averaged, rfl⟩ := updateSolverReputation_iff.mp ran
  have value := ewma_ofNat average small
  rw [BitVec.ofNat_toNat, BitVec.setWidth_eq, averaged] at value
  rw [Except.ok.inj value]
  rfl

/-- A transaction changes the record of the solver whose fill it confirms, and no other. -/
theorem exec_reputation {d : Deployment} {tx : Tx} {w w' : World} (connected : Connected w)
    (small : tx.sequence < 2 ^ 32) (ran : exec d tx w = .ok w') (solver : Address) :
    w'.solverReputation solver =
      match tx.confirms w with
      | some (confirmed, latency) =>
          if confirmed = solver then
            some (((w.solverReputation solver).getD ⟨0, 0, 0⟩).confirm latency)
          else w.solverReputation solver
      | none => w.solverReputation solver := by
  have still (unchanged : w'.core = (w.enter tx).core) :
      w'.solverReputation solver = w.solverReputation solver :=
    congrFun (congrArg Core.solverReputation unchanged) solver
  have updated (confirmed : Address) (latency : Nat) {v v' : World} (recent : latency < 2 ^ 32)
      (marking : updateSolverReputation confirmed latency v = .ok v')
      (before : v.solverReputation = w.solverReputation)
      (after : w'.solverReputation = v'.solverReputation) :
      w'.solverReputation solver =
        if confirmed = solver then
          some (((w.solverReputation solver).getD ⟨0, 0, 0⟩).confirm latency)
        else w.solverReputation solver := by
    have average := average_getD connected confirmed
    rw [← before] at average
    rw [after, updateSolverReputation_confirm average recent marking, before]
    by_cases same : confirmed = solver
    · simp [same]
    · rw [Function.update_of_ne (Ne.symm same), if_neg same]
  unfold exec at ran
  unfold Tx.confirms
  cases call : tx.call with
  | dispatchConfirmation caller intentHash lzFee =>
      rw [call] at ran
      simp only [Call.run, Settlement.dispatchConfirmation, requireAuth, bind_ok, require_ok,
        exists_const, expect_ok, sendFillConfirmed, pure_ok] at ran
      obtain ⟨-, -, record, found, -, -, confirmed, given, solverEvm, -, sent, sending, marked, marking,
        rewarded, rewarding, rfl⟩ := ran
      obtain ⟨endpoint, receiver, -, rfl⟩ := dispatch_sends sending
      have paid := payKeeperReward_silent (fun h => by simp) rewarding
      have known : w.intent intentHash = some record := found
      simp only [known, given, Option.bind_some, Option.map_some]
      exact updated confirmed (tx.sequence - record.fillLedger) (by omega) marking rfl
        (congrArg Core.solverReputation paid.core)
  | fillIntent filler solverEvm intentHash fillAmount lzFee =>
      rw [call] at ran
      simp only [Call.run, Settlement.fillIntent, requireAuth, requireNotPaused, bind_ok, require_ok,
        exists_const, transfer_ok, sendFillConfirmed, pure_ok] at ran
      obtain ⟨-, -, record, -, _, ⟨-, rfl⟩, sent, sending, marked, marking, rfl⟩ := ran
      obtain ⟨endpoint, receiver, -, rfl⟩ := dispatch_sends sending
      have confirmed := updated filler (tx.sequence - tx.sequence) (by omega) marking rfl rfl
      rwa [Nat.sub_self] at confirmed
  | lzReceiveBytes origin message =>
      rw [call] at ran
      simp only [Call.run, Settlement.lzReceiveBytes, bind_ok] at ran
      obtain ⟨_, -, parsed, -, applied⟩ := ran
      exact still (applyInbound_frame applied)
  | lzReceive origin message =>
      rw [call] at ran
      simp only [Call.run, Settlement.lzReceive, bind_ok] at ran
      obtain ⟨_, -, applied⟩ := ran
      exact still (applyInbound_frame applied)
  | deliverIntent filler solverEvm intentHash fillAmount =>
      rw [call] at ran
      obtain ⟨record, -, -, -, rfl⟩ := deliverIntent_ok ran
      exact still rfl
  | cancelExpiredIntent caller intentHash lzFee =>
      rw [call] at ran
      simp only [Call.run, Settlement.cancelExpiredIntent, requireAuth, bind_ok, require_ok,
        exists_const, expect_ok, sendCancel, pure_ok] at ran
      obtain ⟨-, -, -, record, -, -, -, sent, sending, rewarded, rewarding, rfl⟩ := ran
      obtain ⟨endpoint, receiver, -, rfl⟩ := dispatch_sends sending
      exact still (payKeeperReward_silent (fun h => by simp) rewarding).core
  | _ =>
      rw [call] at ran
      exact congrFun (Call.run_admin rfl ran).solverReputation solver

/-! ## Runs -/

/-- The latencies of the confirmed fills of a solver, in the order of a run. -/
def latencies (solver : Address) (moves : List (World × Tx)) : List Nat :=
  moves.filterMap fun m => (m.2.confirms m.1).bind fun confirmed =>
    if confirmed.1 = solver then some confirmed.2 else none

/-- The record after fills with these latencies, for a way to average them. -/
def recordOf (average : List Nat → Nat) (samples : List Nat) : Option SolverReputationRecord :=
  if samples = [] then none
  else
    some
      { fillCount := min samples.length (uint64 - 1)
        successCount := min samples.length (uint64 - 1)
        ewmaLatency := BitVec.ofNat 128 (average samples) }

theorem latencies_snoc (solver : Address) (moves : List (World × Tx)) (w : World) (tx : Tx) :
    latencies solver (moves ++ [(w, tx)]) =
      latencies solver moves ++ ((tx.confirms w).bind fun confirmed =>
        if confirmed.1 = solver then some confirmed.2 else none).toList := by
  unfold latencies
  rw [List.filterMap_append, List.filterMap_cons, List.filterMap_nil]
  split <;> simp_all

theorem storedAverage_lt {samples : List Nat} {bound : Nat} (positive : 0 < bound)
    (small : ∀ latency ∈ samples, latency < bound) : storedAverage samples < bound := by
  induction samples using List.reverseRecOn with
  | nil => exact positive
  | append_singleton samples latency ih =>
      rw [storedAverage_snoc]
      exact smoothOrStart_lt (ih fun l member => small l (List.mem_append_left _ member))
        (small latency (by simp))

theorem smoothed_lt {samples : List Nat} {bound : Nat} (positive : 0 < bound)
    (small : ∀ latency ∈ samples, latency < bound) : smoothed samples < bound := by
  induction samples using List.reverseRecOn with
  | nil => exact positive
  | append_singleton samples latency ih =>
      have last := small latency (by simp)
      by_cases first : samples = []
      · rw [first]
        exact last
      · have earlier := ih fun l member => small l (List.mem_append_left _ member)
        rw [smoothed_snoc first, smooth]
        omega

/-- The contract's record after one more sample. -/
theorem recordOf_confirm {samples : List Nat} (small : storedAverage samples < 2 ^ 32) (latency : Nat) :
    some (((recordOf storedAverage samples).getD ⟨0, 0, 0⟩).confirm latency) =
      recordOf storedAverage (samples ++ [latency]) := by
  have wide : (1 : Nat) ≤ uint64 - 1 := by decide
  have more : samples ++ [latency] ≠ [] := by simp
  rw [recordOf, recordOf, if_neg more, storedAverage_snoc, List.length_append, List.length_singleton]
  by_cases none : samples = []
  · subst none
    simp [SolverReputationRecord.confirm, addSaturating, storedAverage]
  · rw [if_neg none, Option.getD_some, SolverReputationRecord.confirm, BitVec.toNat_ofNat,
      Nat.mod_eq_of_lt (by omega)]
    have count : addSaturating uint64 (min samples.length (uint64 - 1)) 1 =
        min (samples.length + 1) (uint64 - 1) := by
      unfold addSaturating
      omega
    rw [count]

theorem Tx.confirms_lt {tx : Tx} {w : World} (small : tx.sequence < 2 ^ 32) {confirmed : Address × Nat}
    (confirms : tx.confirms w = some confirmed) : confirmed.2 < 2 ^ 32 := by
  unfold Tx.confirms at confirms
  split at confirms
  · obtain ⟨record, -, given⟩ := Option.bind_eq_some_iff.mp confirms
    obtain ⟨solver, -, rfl⟩ := Option.map_eq_some_iff.mp given
    exact Nat.lt_of_le_of_lt (Nat.sub_le _ _) small
  · cases confirms
    exact Nat.two_pow_pos 32
  · cases confirms

theorem latencies_lt {d : Deployment} {w w' : World} {moves : List (World × Tx)}
    (run : (system d).Run w moves w') (solver : Address) :
    ∀ latency ∈ latencies solver moves, latency < 2 ^ 32 := by
  induction run with
  | nil => exact fun latency member => absurd member List.not_mem_nil
  | @snoc moves v tx v' before last ih =>
      intro latency member
      rw [latencies_snoc] at member
      rcases List.mem_append.mp member with earlier | here
      · exact ih latency earlier
      · obtain ⟨confirmed, confirms, given⟩ := Option.bind_eq_some_iff.mp (Option.mem_toList.mp here)
        split at given
        · rw [← Option.some.inj given]
          exact Tx.confirms_lt (next_ok.mp last).1.2.2.2 confirms
        · cases given

/-- In every run the record of a solver is that of the contract's own average. -/
theorem reputation_run {d : Deployment} {w w' : World} {moves : List (World × Tx)}
    (created : (system d).init w) (run : (system d).Run w moves w') (solver : Address) :
    w'.solverReputation solver = recordOf storedAverage (latencies solver moves) := by
  induction run with
  | nil =>
      obtain ⟨creation, made⟩ := created
      obtain ⟨-, -, reputation, -⟩ := construct_ok made
      rw [reputation]
      rfl
  | @snoc moves v tx v' before last ih =>
      obtain ⟨⟨-, -, -, small⟩, ran⟩ := next_ok.mp last
      have connected := connected_of_reachable (before.reachable (.init created))
      rw [exec_reputation connected small ran solver, latencies_snoc]
      cases confirms : tx.confirms v with
      | none => simpa using ih
      | some confirmed =>
          obtain ⟨filler, latency⟩ := confirmed
          by_cases same : filler = solver
          · have bounded := storedAverage_lt (by decide) (latencies_lt before solver)
            simp only [same, if_true, Option.bind_some, Option.toList_some]
            rw [ih]
            exact recordOf_confirm bounded latency
          · simpa [same] using ih

/-- What has been recorded of a solver is the moving average of its latencies and their number. -/
def World.Reputed (w : World) (solver : Address) (samples : List Nat) : Prop :=
  w.solverReputation solver = recordOf smoothed samples

/-- A confirmed fill with a positive latency, for a solver whose average is 0 already. -/
def Tx.restarts (tx : Tx) (w : World) (solver : Address) : Prop :=
  ∃ rep latency, w.solverReputation solver = some rep ∧ rep.ewmaLatency = 0 ∧
    tx.confirms w = some (solver, latency) ∧ 0 < latency

theorem ofNat_inj {a b : Nat} (small : a < 2 ^ 32) (small' : b < 2 ^ 32)
    (same : BitVec.ofNat 128 a = BitVec.ofNat 128 b) : a = b := by
  have values := congrArg BitVec.toNat same
  rw [BitVec.toNat_ofNat, BitVec.toNat_ofNat, Nat.mod_eq_of_lt (by omega),
    Nat.mod_eq_of_lt (by omega)] at values
  exact values

theorem recordOf_eq_iff {samples : List Nat} (small : ∀ latency ∈ samples, latency < 2 ^ 32) :
    recordOf storedAverage samples = recordOf smoothed samples ↔
      storedAverage samples = smoothed samples := by
  by_cases none : samples = []
  · subst none
    exact iff_of_true rfl rfl
  · rw [recordOf, recordOf, if_neg none, if_neg none]
    constructor
    · intro same
      have averages := congrArg SolverReputationRecord.ewmaLatency (Option.some.inj same)
      exact ofNat_inj (storedAverage_lt (by decide) small) (smoothed_lt (by decide) small) averages
    · intro same
      rw [same]

/-- The record that says 0 belongs to a solver with samples and an average of 0. -/
theorem zero_recordOf {samples : List Nat} (small : ∀ latency ∈ samples, latency < 2 ^ 32) :
    (∃ rep, recordOf storedAverage samples = some rep ∧ rep.ewmaLatency = 0) ↔
      samples ≠ [] ∧ storedAverage samples = 0 := by
  unfold recordOf
  by_cases none : samples = []
  · simp [none]
  · simp only [none, if_false, Option.some.injEq, exists_eq_left', ne_eq, not_false_eq_true, true_and]
    constructor
    · intro zero
      exact ofNat_inj (storedAverage_lt (by decide) small) (by decide) zero
    · intro zero
      rw [zero]
      rfl

/-- One step of a run: the average goes on as it should unless the transaction restarts it. -/
theorem reputation_step {d : Deployment} {w w' : World} {moves : List (World × Tx)} {tx : Tx}
    (created : (system d).init w) (run : (system d).Run w moves w') {solver : Address}
    (right : storedAverage (latencies solver moves) = smoothed (latencies solver moves)) :
    storedAverage (latencies solver (moves ++ [(w', tx)])) =
        smoothed (latencies solver (moves ++ [(w', tx)])) ↔
      ¬ tx.restarts w' solver := by
  have stored := reputation_run created run solver
  have zero := zero_recordOf (latencies_lt run solver)
  rw [← stored] at zero
  unfold Tx.restarts
  rw [latencies_snoc]
  cases confirms : tx.confirms w' with
  | none => simp [right]
  | some confirmed =>
      obtain ⟨filler, latency⟩ := confirmed
      by_cases same : filler = solver
      · simp only [same, if_true, Option.bind_some, Option.toList_some]
        by_cases first : latencies solver moves = []
        · refine iff_of_true (by rw [first]; rfl) ?_
          rintro ⟨rep, _, given, none, -⟩
          exact (zero.mp ⟨rep, given, none⟩).1 first
        · rw [storedAverage_snoc, smoothed_snoc first, ← right, smooth_eq_iff]
          constructor
          · rintro started ⟨rep, _, given, none, confirms', positive⟩
            cases confirms'
            exact Nat.ne_of_gt positive (started (zero.mp ⟨rep, given, none⟩).2)
          · intro kept none
            obtain ⟨rep, given, empty⟩ := zero.mpr ⟨first, none⟩
            by_contra positive
            exact kept ⟨rep, latency, given, empty, rfl, Nat.pos_of_ne_zero positive⟩
      · simp [same, right]

/-- The reputation of a solver is right in every state of a run exactly if no confirmed fill with a
    positive latency meets an average of 0. -/
theorem reputation_smoothed {d : Deployment} {w w' : World} {moves : List (World × Tx)}
    (created : (system d).init w) (run : (system d).Run w moves w') (solver : Address) :
    (∀ before after v, moves = before ++ after → (system d).Run w before v →
      v.Reputed solver (latencies solver before)) ↔
      ∀ m ∈ moves, ¬ m.2.restarts m.1 solver := by
  have reputed {before : List (World × Tx)} {v : World} (first : (system d).Run w before v) :
      v.Reputed solver (latencies solver before) ↔
        storedAverage (latencies solver before) = smoothed (latencies solver before) := by
    rw [World.Reputed, reputation_run created first solver, recordOf_eq_iff (latencies_lt first solver)]
  constructor
  · intro right m member
    obtain ⟨before, after, rfl⟩ := List.append_of_mem member
    obtain ⟨v, first, stepped, -⟩ := run.cut
    have here := right before (m :: after) m.1 rfl first
    have there := right (before ++ [m]) after v (by simp) (first.snoc stepped)
    exact (reputation_step created first ((reputed first).mp here)).mp
      ((reputed (first.snoc stepped)).mp there)
  · rintro kept before after v rfl first
    have each : ∀ m ∈ before, ¬ m.2.restarts m.1 solver :=
      fun m member => kept m (List.mem_append_left _ member)
    rw [reputed first]
    clear kept run
    induction first with
    | nil => rfl
    | @snoc moves v tx v' earlier last ih =>
        have here := ih fun m member => each m (List.mem_append_left _ member)
        exact (reputation_step created earlier here).mpr (each (v, tx) (by simp))

namespace Sample

def secondDeliverTx : Tx := tx 1700000500 1260 (.deliverIntent solver solverEvm 0xAAAA 95)

/-- Two fills, confirmed after 16 and after 30 ledgers. -/
def seasoning : List Tx :=
  setup ++ [registerTx, fillTx 2 0xAAAA 90, deliverTx, dispatchTx, secondDeliverTx,
    tx 1700000600 1290 (.dispatchConfirmation admin 0xAAAA 5)]

def seasoned : World := (replay deployment created seasoning).get (by decide +kernel)

def seasonedMoves : List (World × Tx) := System.trail (next deployment) created seasoning

theorem seasoned_run : (system deployment).Run created seasonedMoves seasoned :=
  System.Run.of_replay (fun _ _ _ stepped => stepped)
    (show replay deployment created seasoning = some seasoned by simp [seasoned])

/-- One fill confirmed at once, the next after five ledgers. -/
def restarting : List Tx :=
  setup ++ [registerTx, fillTx 2 0xAAAA 90, tx 1700000400 1250 (.fillIntent solver solverEvm intentHash 95 5),
    secondDeliverTx, tx 1700000600 1265 (.dispatchConfirmation admin 0xAAAA 5)]

def restarted : World := (replay deployment created restarting).get (by decide +kernel)

def restartedMoves : List (World × Tx) := System.trail (next deployment) created restarting

theorem restarted_run : (system deployment).Run created restartedMoves restarted :=
  System.Run.of_replay (fun _ _ _ stepped => stepped)
    (show replay deployment created restarting = some restarted by simp [restarted])

end Sample

theorem reputation_smoothed_sample :
    Sample.seasoned.Reputed Sample.solver (latencies Sample.solver Sample.seasonedMoves) := by
  refine (reputation_smoothed Sample.created_init Sample.seasoned_run Sample.solver).mpr ?_ _ [] _
    (List.append_nil _).symm Sample.seasoned_run
  rintro m member ⟨rep, _, given, zero, -⟩
  have nonzero : Sample.seasonedMoves.all (fun m =>
      (m.1.solverReputation Sample.solver).all (·.ewmaLatency != 0)) = true := by
    decide +kernel
  have entry := List.all_eq_true.mp nonzero m member
  rw [given, Option.all_some, bne_iff_ne] at entry
  exact entry zero

/-- The average of 0 and 5 ledgers is stored as 5, not as 0. -/
theorem average_restarted :
    (system Sample.deployment).init Sample.created ∧
      (system Sample.deployment).Run Sample.created Sample.restartedMoves Sample.restarted ∧
      latencies Sample.solver Sample.restartedMoves = [0, 5] ∧ smoothed [0, 5] = 0 ∧
      Sample.restarted.solverReputation Sample.solver = some ⟨2, 2, 5⟩ ∧
      ¬ Sample.restarted.Reputed Sample.solver (latencies Sample.solver Sample.restartedMoves) := by
  have samples : latencies Sample.solver Sample.restartedMoves = [0, 5] := by decide +kernel
  refine ⟨Sample.created_init, Sample.restarted_run, samples, by decide, by decide +kernel, ?_⟩
  rw [samples, World.Reputed]
  decide +kernel

end Perihelion.Settlement
