import Perihelion.Settlement.Reset

/-! # Buckets left behind

A charge drops the bucket of the memoised window when it moves on to a later one.  A bucket
anywhere else stays in instance storage: a longer duration can move the window start back, and
a first reset can anchor past a window that was never memoised.
-/

namespace Perihelion.Settlement

open BigEndian Fallible Transition RollingWindow

namespace Breaker

/-- No two windows have a bucket. -/
def OneBucket (b : Breaker) : Prop :=
  ∀ s s', (b.bucket s).isSome → (b.bucket s').isSome → s = s'

/-- A bucket is that of the window to be charged, or the memoised one's on the way to a later
    window, where it is dropped. -/
def Clear (b : Breaker) (windowStart : Nat) : Prop :=
  ∀ s, (b.bucket s).isSome →
    s = windowStart ∨ s = b.latestWindowStart.getD 0 ∧ b.latestWindowStart.getD 0 < windowStart

theorem bucket_charge (b : Breaker) (windowStart : Nat) (accumulated : I128) (s : Nat) :
    ((b.charge windowStart accumulated).bucket s).isSome ↔
      s = windowStart ∨ (b.bucket s).isSome ∧
        ¬ (s = b.latestWindowStart.getD 0 ∧ b.latestWindowStart.getD 0 < windowStart) := by
  unfold charge
  by_cases here : s = windowStart
  · simp [here]
  · simp only [Function.update_of_ne here, here, false_or]
    unfold advance
    by_cases moved : b.latestWindowStart.getD 0 < windowStart
    · simp only [moved, if_true, and_true]
      by_cases dropped : s = b.latestWindowStart.getD 0
      · simp [dropped]
      · simp only [Function.update_of_ne dropped, dropped, not_false_eq_true, and_true]
    · simp [moved]

theorem oneBucket_charge (b : Breaker) (windowStart : Nat) (accumulated : I128) :
    (b.charge windowStart accumulated).OneBucket ↔ b.Clear windowStart := by
  constructor
  · intro one s stored
    by_cases dropped : s = b.latestWindowStart.getD 0 ∧ b.latestWindowStart.getD 0 < windowStart
    · exact Or.inr dropped
    · left
      apply one
      · exact (bucket_charge ..).mpr (Or.inr ⟨stored, dropped⟩)
      · exact (bucket_charge ..).mpr (Or.inl rfl)
  · intro clear
    have only (s : Nat) (stored : ((b.charge windowStart accumulated).bucket s).isSome) :
        s = windowStart := by
      rcases (bucket_charge ..).mp stored with here | ⟨before, kept⟩
      · exact here
      · exact (clear s before).resolve_right kept
    intro s s' stored stored'
    rw [only s stored, only s' stored']

theorem bucket_of_reset {b : Breaker} {now duration s : Nat}
    (stored : ((b.reset now duration).bucket s).isSome) : (b.bucket s).isSome := by
  cases latest : b.latestWindowStart with
  | none => simpa only [reset, latest] using stored
  | some windowStart =>
      by_cases cleared : s = windowStart
      · simp [reset, latest, cleared] at stored
      · simpa only [reset, latest, Function.update_of_ne cleared] using stored

theorem OneBucket.reset {b : Breaker} (one : b.OneBucket) (now duration : Nat) :
    (b.reset now duration).OneBucket := by
  intro s s' stored stored'
  exact one s s' (bucket_of_reset stored) (bucket_of_reset stored')

/-- The window check writes a second bucket exactly if it leaves one behind. -/
theorem Enforces.oneBucket {duration now : Nat} {cap amount : Int} {b b' : Breaker} {admitted : Bool}
    (enforces : Enforces duration cap now amount b admitted b') (one : b.OneBucket) :
    b'.OneBucket ↔ (0 < duration ∧ 0 < cap → b.Clear (start duration now)) := by
  cases enforces with
  | off inactive => simp [one, inactive]
  | admitted accumulated active => simp only [oneBucket_charge, active, and_self, forall_const]
  | breached accumulated active =>
      have latched : ((b.charge (start duration now) accumulated).trip (now + duration)).OneBucket ↔
          (b.charge (start duration now) accumulated).OneBucket := Iff.rfl
      simp only [latched, oneBucket_charge, active, and_self, forall_const]

end Breaker

/-- A FillInstruction for a new intent, while the window cap is on. -/
def Tx.charges (d : Deployment) (tx : Tx) (w : World) : Prop :=
  ∃ eid fi, tx.arrival d w = some (eid, fi) ∧ isFinalized w fi.intentHash = false ∧
    w.intent fi.intentHash = none ∧ 0 < w.duration ∧ 0 < w.cap

theorem oneBucket_next {d : Deployment} {w w' : World} {tx : Tx} (named : w.Named)
    (one : w.breaker.OneBucket) (stepped : next d w tx = some w') :
    w'.breaker.OneBucket ↔
      (tx.charges d w → w.breaker.Clear (start w.duration tx.timestamp)) := by
  cases exec_capMove named (next_ok.mp stepped).2 with
  | charged eid fi admitted arrives live absent positive enforced =>
      rw [enforced.oneBucket one]
      constructor
      · intro clear charges
        obtain ⟨_, _, -, -, -, active⟩ := charges
        exact clear active
      · intro clear active
        exact clear ⟨eid, fi, arrives, live, absent, active⟩
  | other known unregistered breaker =>
      have kept : w'.breaker.OneBucket := by
        rcases breaker with same | ⟨-, cleared⟩
        · rwa [same]
        · rw [cleared]
          exact one.reset tx.timestamp w.duration
      refine iff_of_true kept fun charges => ?_
      obtain ⟨eid, fi, arrives, live, absent, -⟩ := charges
      rcases (known eid fi arrives).1 with finalized | recorded
      · cases live.symm.trans finalized
      · rw [absent] at recorded
        cases recorded

theorem init_bucket {d : Deployment} {w : World} (created : (system d).init w) (s : Nat) :
    w.breaker.bucket s = none := by
  obtain ⟨creation, made⟩ := created
  simp only [construct, bind_ok, require_ok, exists_const, pure_ok] at made
  obtain ⟨-, rfl⟩ := made
  rfl

/-- There is at most one bucket in every state of a run exactly if every charge of the run finds
    none but those of its own window and of the memoised one that it moves on from. -/
theorem one_bucket {d : Deployment} {w w' : World} {moves : List (World × Tx)}
    (created : (system d).init w) (run : (system d).Run w moves w') :
    ((∀ m ∈ moves, m.1.breaker.OneBucket) ∧ w'.breaker.OneBucket) ↔
      ∀ m ∈ moves, m.2.charges d m.1 → m.1.breaker.Clear (start m.1.duration m.2.timestamp) := by
  induction run with
  | nil => simp [Breaker.OneBucket, init_bucket created]
  | @snoc moves v tx v' before last ih =>
      have named := named_of_reachable (before.reachable (.init created))
      constructor
      · intro each m member
        obtain ⟨earlier, final⟩ := each
        have here : v.breaker.OneBucket := earlier (v, tx) (by simp)
        rcases List.mem_append.mp member with member | member
        · exact ih.mp ⟨fun m' member' => earlier m' (List.mem_append_left _ member'), here⟩ m member
        · cases List.mem_singleton.mp member
          exact (oneBucket_next named here last).mp final
      · intro clear
        obtain ⟨earlier, here⟩ := ih.mpr fun m member => clear m (List.mem_append_left _ member)
        refine ⟨?_, (oneBucket_next named here last).mpr (clear (v, tx) (by simp))⟩
        intro m member
        rcases List.mem_append.mp member with member | member
        · exact earlier m member
        · cases List.mem_singleton.mp member
          exact here

namespace Sample

/-- The moves up to the first cap. -/
def quietMoves : List (World × Tx) :=
  System.trail (next deployment) created setup ++ System.trail (next deployment) ready [capTx]

theorem quiet_run : (system deployment).Run created quietMoves windowed := by
  have first : (system deployment).Run created (System.trail (next deployment) created setup) ready :=
    System.Run.of_replay (fun _ _ _ stepped => stepped)
      (show replay deployment created setup = some ready by simp [ready])
  have second : (system deployment).Run ready (System.trail (next deployment) ready [capTx]) windowed :=
    System.Run.of_replay (fun _ _ _ stepped => stepped)
      (show replay deployment ready [capTx] = some windowed by simp [windowed])
  exact first.append second

theorem quiet_spared : ∀ m ∈ quietMoves, m.2.sparesBreaker deployment m.1 := by
  intro m member
  have input : m.2 ∈ setup ++ [capTx] := by
    rcases List.mem_append.mp member with member | member
    · exact List.mem_append_left _ (System.input_of_trail member)
    · exact List.mem_append_right _ (System.input_of_trail member)
  simp only [setup, List.cons_append, List.nil_append, List.mem_cons, List.not_mem_nil, or_false] at input
  rcases input with proposed | confirmed | capped
  · rw [proposed]
    exact ⟨rfl, fun reset => by cases reset⟩
  · rw [confirmed]
    exact ⟨rfl, fun reset => by cases reset⟩
  · rw [capped]
    exact ⟨rfl, fun reset => by cases reset⟩

end Sample

/-- A first charge: nothing can be left behind. -/
theorem one_bucket_sample : Sample.charged.breaker.OneBucket := by
  have charging : (system Sample.deployment).step Sample.windowed Sample.registerTx Sample.charged := by
    simp [Sample.charged, replay, System.replay, system]
  refine ((one_bucket Sample.created_init (Sample.quiet_run.snoc charging)).mpr ?_).2
  intro m member charges s stored
  rcases List.mem_append.mp member with quiet | last
  · obtain ⟨eid, fi, arrives, -⟩ := charges
    cases (Sample.quiet_spared m quiet).1.symm.trans arrives
  · cases List.mem_singleton.mp last
    rw [breaker_spared Sample.quiet_run Sample.quiet_spared, init_bucket Sample.created_init] at stored
    cases stored

/-- Ten minutes, then an hour that began before them: both windows keep a bucket. -/
theorem two_buckets :
    (system Sample.deployment).Reachable Sample.broken ∧ ¬ Sample.broken.breaker.OneBucket := by
  refine ⟨Sample.broken_reachable, fun one => ?_⟩
  have same : 1699999800 = 1699999200 := one _ _ (by decide +kernel) (by decide +kernel)
  cases same

end Perihelion.Settlement
