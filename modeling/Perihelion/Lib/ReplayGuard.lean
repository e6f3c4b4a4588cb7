import Mathlib.Data.Set.Insert

/-! # Replay guards

A guard lets a delivery through at most once.  What it keeps represents the set of
deliveries it has let through so far; upkeep may change the representation but not the
set.  Two guards that track the set agree on every run.
-/

namespace ReplayGuard

inductive Event (δ : Type u) (μ : Type v)
  | deliver (delivery : δ)
  | upkeep (task : μ)
  deriving DecidableEq

structure Guard (σ : Type u) (δ : Type v) (μ : Type w) where
  accept : δ → σ → Option σ
  upkeep : μ → σ → σ

namespace Guard

variable {σ : Type u} {σ' : Type u'} {δ : Type v} {μ : Type w}

/-- A rejected delivery changes nothing. -/
def step (g : Guard σ δ μ) (s : σ) : Event δ μ → σ
  | .deliver d => (g.accept d s).getD s
  | .upkeep task => g.upkeep task s

def after (g : Guard σ δ μ) (s : σ) (run : List (Event δ μ)) : σ := run.foldl g.step s

/-- The deliveries let through, in order. -/
def accepted (g : Guard σ δ μ) (s : σ) : List (Event δ μ) → List δ
  | [] => []
  | .deliver d :: rest =>
      match g.accept d s with
      | some s' => d :: g.accepted s' rest
      | none => g.accepted s rest
  | .upkeep task :: rest => g.accepted (g.upkeep task s) rest

/-- `represents s seen`: the state `s` stands for the set `seen` of deliveries let through. -/
structure Tracks (g : Guard σ δ μ) (valid : δ → Prop) (represents : σ → Set δ → Prop) : Prop where
  accepts : ∀ {s seen}, represents s seen → ∀ d, (g.accept d s).isSome ↔ valid d ∧ d ∉ seen
  admits : ∀ {s seen}, represents s seen → ∀ {d s'}, g.accept d s = some s' →
    represents s' (insert d seen)
  upkeeps : ∀ {s seen}, represents s seen → ∀ task, represents (g.upkeep task s) seen

/-- The valid deliveries of a run. -/
def offered (valid : δ → Prop) (run : List (Event δ μ)) : Set δ :=
  { d | valid d ∧ .deliver d ∈ run }

theorem offered_nil (valid : δ → Prop) : offered valid ([] : List (Event δ μ)) = ∅ := by
  ext d
  simp [offered]

theorem offered_deliver (valid : δ → Prop) {d : δ} (ok : valid d) (rest : List (Event δ μ)) :
    offered valid (.deliver d :: rest) = insert d (offered valid rest) := by
  ext e
  simp only [offered, Set.mem_ofPred_eq, List.mem_cons, Event.deliver.injEq, Set.mem_insert_iff]
  grind

theorem offered_invalid (valid : δ → Prop) {d : δ} (bad : ¬ valid d) (rest : List (Event δ μ)) :
    offered valid (.deliver d :: rest) = offered valid rest := by
  ext e
  simp only [offered, Set.mem_ofPred_eq, List.mem_cons, Event.deliver.injEq]
  grind

theorem offered_upkeep (valid : δ → Prop) (task : μ) (rest : List (Event δ μ)) :
    offered valid (.upkeep task :: rest) = offered valid rest := by
  ext e
  simp [offered]

/-- One delivery: it is let through exactly when it is valid and new, and either way the
    state stands for the set with the delivery added, if valid. -/
theorem Tracks.step_deliver {g : Guard σ δ μ} {valid represents}
    (tracks : g.Tracks valid represents) {s seen} (holds : represents s seen) (d : δ)
    (rest : List (Event δ μ)) :
    ∃ seen', represents (g.step s (.deliver d)) seen' ∧
      seen' ∪ offered valid rest = seen ∪ offered valid (.deliver d :: rest) := by
  cases taken : g.accept d s with
  | some s' =>
      have ok := ((tracks.accepts holds d).mp (by rw [taken]; rfl)).1
      refine ⟨insert d seen, ?_, ?_⟩
      · simp only [step, taken, Option.getD_some]
        exact tracks.admits holds taken
      · rw [offered_deliver valid ok, Set.insert_union, Set.union_insert]
  | none =>
      refine ⟨seen, ?_, ?_⟩
      · simpa only [step, taken, Option.getD_none] using holds
      · by_cases ok : valid d
        · have known : d ∈ seen := by
            by_contra new
            have some := (tracks.accepts holds d).mpr ⟨ok, new⟩
            rw [taken] at some
            cases some
          rw [offered_deliver valid ok, Set.union_insert,
            Set.insert_eq_of_mem (Set.mem_union_left _ known)]
        · rw [offered_invalid valid ok]

theorem Tracks.after {g : Guard σ δ μ} {valid represents} (tracks : g.Tracks valid represents)
    {s seen} (holds : represents s seen) (run : List (Event δ μ)) :
    represents (g.after s run) (seen ∪ offered valid run) := by
  induction run generalizing s seen with
  | nil =>
      rw [offered_nil, Set.union_empty]
      exact holds
  | cons event rest ih =>
      cases event with
      | deliver d =>
          obtain ⟨seen', stepped, same⟩ := tracks.step_deliver holds d rest
          rw [← same]
          exact ih stepped
      | upkeep task =>
          rw [offered_upkeep]
          exact ih (tracks.upkeeps holds task)

/-- From the empty set, a delivery is let through exactly when it is valid and has not
    arrived before. -/
theorem Tracks.accepts_after {g : Guard σ δ μ} {valid represents}
    (tracks : g.Tracks valid represents) {s} (fresh : represents s ∅) (run : List (Event δ μ))
    (d : δ) : (g.accept d (g.after s run)).isSome ↔ valid d ∧ .deliver d ∉ run := by
  rw [tracks.accepts (tracks.after fresh run) d, Set.empty_union]
  constructor
  · intro given
    exact ⟨given.1, fun arrived => given.2 ⟨given.1, arrived⟩⟩
  · intro given
    exact ⟨given.1, fun known => given.2 known.2⟩

/-- Guards that track the same set let the same deliveries through. -/
theorem Tracks.agree {g : Guard σ δ μ} {g' : Guard σ' δ μ} {valid represents represents'}
    (tracks : g.Tracks valid represents) (tracks' : g'.Tracks valid represents') {s s' seen}
    (holds : represents s seen) (holds' : represents' s' seen) (run : List (Event δ μ)) :
    g.accepted s run = g'.accepted s' run := by
  induction run generalizing s s' seen with
  | nil => rfl
  | cons event rest ih =>
      cases event with
      | upkeep task => exact ih (tracks.upkeeps holds task) (tracks'.upkeeps holds' task)
      | deliver d =>
          have same : (g.accept d s).isSome ↔ (g'.accept d s').isSome :=
            (tracks.accepts holds d).trans (tracks'.accepts holds' d).symm
          cases taken : g.accept d s with
          | some t =>
              rw [taken] at same
              obtain ⟨t', taken'⟩ := Option.isSome_iff_exists.mp (same.mp rfl)
              simp only [accepted, taken, taken']
              rw [ih (tracks.admits holds taken) (tracks'.admits holds' taken')]
          | none =>
              have refused : g'.accept d s' = none := by
                cases taken' : g'.accept d s' with
                | none => rfl
                | some t' =>
                    rw [taken, taken'] at same
                    cases same.mpr rfl
              simp only [accepted, taken, refused]
              exact ih holds holds'

end Guard

end ReplayGuard
