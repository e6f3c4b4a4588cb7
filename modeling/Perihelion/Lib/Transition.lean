import Mathlib.Logic.Relation

/-! # Labelled transition systems

Safety of a system is proved one step at a time: an invariant is kept by every
step from a reachable state, and what every step relates every later pair of
states.  A simulation carries reachability, and with it every invariant, from an
abstract system down to a concrete one.
-/

namespace Transition

structure System (σ : Type u) (τ : Type v) where
  init : σ → Prop
  step : σ → τ → σ → Prop

namespace System

variable {σ : Type u} {τ : Type v} {σ' : Type u'} {τ' : Type v'}

inductive Reachable (S : System σ τ) : σ → Prop
  | init {s} : S.init s → Reachable S s
  | step {s t s'} : Reachable S s → S.step s t s' → Reachable S s'

/-- `S.Later s s'`: some finite run leads from `s` to `s'`. -/
def Later (S : System σ τ) : σ → σ → Prop :=
  Relation.ReflTransGen fun s s' => ∃ t, S.step s t s'

theorem Later.refl {S : System σ τ} (s : σ) : S.Later s s := Relation.ReflTransGen.refl

theorem Later.of_step {S : System σ τ} {s t s'} (h : S.step s t s') : S.Later s s' :=
  Relation.ReflTransGen.single ⟨t, h⟩

theorem Later.trans {S : System σ τ} {s s' s''} (first : S.Later s s') (second : S.Later s' s'') :
    S.Later s s'' :=
  Relation.ReflTransGen.trans first second

theorem Reachable.later {S : System σ τ} {s s'} (reach : S.Reachable s) (run : S.Later s s') :
    S.Reachable s' := by
  induction run with
  | refl => exact reach
  | tail _ last ih =>
      obtain ⟨t, last⟩ := last
      exact .step ih last

/-- The induction of every safety proof: the step may use that its source is
    reachable, and so every invariant proved before. -/
theorem Reachable.invariant {S : System σ τ} {P : σ → Prop}
    (start : ∀ s, S.init s → P s)
    (kept : ∀ s t s', S.Reachable s → P s → S.step s t s' → P s')
    {s} (reach : S.Reachable s) : P s := by
  induction reach with
  | init h => exact start _ h
  | step before last ih => exact kept _ _ _ before ih last

/-- The same from any state on, whether it is reachable or not. -/
theorem Later.invariant {S : System σ τ} {P : σ → Prop}
    (kept : ∀ s t s', P s → S.step s t s' → P s') {s s'} (start : P s) (run : S.Later s s') :
    P s' := by
  induction run with
  | refl => exact start
  | tail _ last ih =>
      obtain ⟨t, last⟩ := last
      exact kept _ _ _ ih last

/-- A preorder that every step from a reachable state respects relates every
    reachable state to every later one. -/
theorem Later.relates {S : System σ τ} {R : σ → σ → Prop}
    (refl : ∀ s, R s s) (trans : ∀ s s' s'', R s s' → R s' s'' → R s s'')
    (moves : ∀ s t s', S.Reachable s → S.step s t s' → R s s')
    {s s'} (reach : S.Reachable s) (run : S.Later s s') : R s s' := by
  induction run with
  | refl => exact refl s
  | tail before last ih =>
      obtain ⟨t, last⟩ := last
      exact trans _ _ _ ih (moves _ _ _ (reach.later before) last)

/-! ## Runs step by step -/

/-- A finite run: its inputs in order, each with the state it was given in. -/
inductive Run (S : System σ τ) (s : σ) : List (σ × τ) → σ → Prop
  | nil : Run S s [] s
  | snoc {moves s' t s''} : Run S s moves s' → S.step s' t s'' → Run S s (moves ++ [(s', t)]) s''

theorem Run.later {S : System σ τ} {s s' moves} (run : S.Run s moves s') : S.Later s s' := by
  induction run with
  | nil => exact Later.refl s
  | snoc _ last ih => exact ih.trans (Later.of_step last)

theorem Run.reachable {S : System σ τ} {s s' moves} (run : S.Run s moves s')
    (reach : S.Reachable s) : S.Reachable s' :=
  reach.later run.later

/-- A run can be cut at any of its moves. -/
theorem Run.cut {S : System σ τ} {s s' before m between}
    (run : S.Run s (before ++ m :: between) s') :
    ∃ v, S.Run s before m.1 ∧ S.step m.1 m.2 v ∧ S.Run v between s' := by
  generalize whole : before ++ m :: between = moves at run
  induction run generalizing between with
  | nil => simp at whole
  | @snoc moves v t v' earlier last ih =>
      rcases between.eq_nil_or_concat with rfl | ⟨rest, x, rfl⟩
      · obtain ⟨rfl, same⟩ := List.append_inj' whole rfl
        cases same
        exact ⟨v', earlier, last, .nil⟩
      · rw [List.concat_eq_append, ← List.cons_append, ← List.append_assoc] at whole
        obtain ⟨rfl, same⟩ := List.append_inj' whole rfl
        cases same
        obtain ⟨u, first, middle, others⟩ := ih rfl
        rw [List.concat_eq_append]
        exact ⟨u, first, middle, others.snoc last⟩

/-- Seen through `view` and `label` the run of a system is one of another. -/
theorem Run.mapped {S : System σ τ} {A : System σ' τ'} (view : σ → σ') (label : σ → τ → τ')
    (moves : ∀ s t s', S.Reachable s → S.step s t s' → A.step (view s) (label s t) (view s'))
    {s s' ts} (reach : S.Reachable s) (run : S.Run s ts s') :
    A.Run (view s) (ts.map fun m => (view m.1, label m.1 m.2)) (view s') := by
  induction run with
  | nil => exact .nil
  | snoc before last ih =>
      rw [List.map_append]
      exact ih.snoc (moves _ _ _ (before.reachable reach) last)

/-- The runs whose every step meets a condition. -/
def under (S : System σ τ) (condition : σ → τ → Prop) : System σ τ where
  init := S.init
  step s t s' := S.step s t s' ∧ condition s t

theorem Reachable.of_under {S : System σ τ} {condition : σ → τ → Prop} {s}
    (reach : (S.under condition).Reachable s) : S.Reachable s := by
  induction reach with
  | init h => exact .init h
  | step _ last ih => exact .step ih last.1

theorem Later.of_under {S : System σ τ} {condition : σ → τ → Prop} {s s'}
    (run : (S.under condition).Later s s') : S.Later s s' := by
  induction run with
  | refl => exact Later.refl s
  | tail _ last ih =>
      obtain ⟨t, last⟩ := last
      exact ih.trans (Later.of_step last.1)

/-- All of a list of inputs in order, if none is refused. -/
def replay (next : σ → τ → Option σ) (s : σ) : List τ → Option σ
  | [] => some s
  | t :: rest => (next s t).bind fun s' => replay next s' rest

theorem Later.of_replay {S : System σ τ} {next : σ → τ → Option σ}
    (agrees : ∀ s t s', next s t = some s' → S.step s t s') {s s' : σ} {ts : List τ}
    (replayed : replay next s ts = some s') : S.Later s s' := by
  induction ts generalizing s with
  | nil =>
      cases replayed
      exact Later.refl _
  | cons t rest ih =>
      simp only [replay, Option.bind_eq_some_iff] at replayed
      obtain ⟨between, first, others⟩ := replayed
      exact (Later.of_step (agrees _ _ _ first)).trans (ih others)

/-- A replay that refuses every input on which the condition fails. -/
theorem Later.of_replay_under {S : System σ τ} {next : σ → τ → Option σ} {condition : σ → τ → Prop}
    [∀ s t, Decidable (condition s t)] (agrees : ∀ s t s', next s t = some s' → S.step s t s')
    {s s' : σ} {ts : List τ}
    (replayed : replay (fun s t => if condition s t then next s t else none) s ts = some s') :
    (S.under condition).Later s s' := by
  refine Later.of_replay (S := S.under condition) ?_ replayed
  intro s t s' stepped
  split at stepped
  · rename_i met
    exact ⟨agrees s t s' stepped, met⟩
  · cases stepped

/-- The state that a list of inputs leads to. -/
theorem Later.of_get {S : System σ τ} {next : σ → τ → Option σ}
    (agrees : ∀ s t s', next s t = some s' → S.step s t s') {s : σ} {ts : List τ}
    (accepted : (replay next s ts).isSome) : S.Later s ((replay next s ts).get accepted) :=
  Later.of_replay agrees (Option.some_get accepted).symm

theorem Later.of_get_under {S : System σ τ} {next : σ → τ → Option σ} {condition : σ → τ → Prop}
    [∀ s t, Decidable (condition s t)] (agrees : ∀ s t s', next s t = some s' → S.step s t s')
    {s : σ} {ts : List τ}
    (accepted : (replay (fun s t => if condition s t then next s t else none) s ts).isSome) :
    (S.under condition).Later s
      ((replay (fun s t => if condition s t then next s t else none) s ts).get accepted) :=
  Later.of_replay_under agrees (Option.some_get accepted).symm

theorem Run.append {S : System σ τ} {s s' s'' : σ} {ms ms' : List (σ × τ)} (first : S.Run s ms s')
    (second : S.Run s' ms' s'') : S.Run s (ms ++ ms') s'' := by
  induction second with
  | nil => simpa using first
  | snoc _ last ih =>
      rw [← List.append_assoc]
      exact ih.snoc last

/-- A run all of whose moves meet a condition. -/
theorem Run.under {S : System σ τ} {condition : σ → τ → Prop} {s s' : σ} {ms : List (σ × τ)}
    (run : S.Run s ms s') (met : ∀ m ∈ ms, condition m.1 m.2) : (S.under condition).Run s ms s' := by
  induction run with
  | nil => exact .nil
  | @snoc moves v t v' _ last ih =>
      have earlier := ih fun m member => met m (List.mem_append_left _ member)
      exact earlier.snoc ⟨last, met (v, t) (by simp)⟩

/-- The moves of a replay. -/
def trail (next : σ → τ → Option σ) (s : σ) : List τ → List (σ × τ)
  | [] => []
  | t :: rest => (s, t) :: ((next s t).map fun s' => trail next s' rest).getD []

theorem input_of_trail {next : σ → τ → Option σ} {s : σ} {ts : List τ} {m : σ × τ}
    (member : m ∈ trail next s ts) : m.2 ∈ ts := by
  induction ts generalizing s with
  | nil => cases member
  | cons t rest ih =>
      rw [trail] at member
      rcases List.mem_cons.mp member with rfl | later
      · exact List.mem_cons_self
      · cases stepped : next s t with
        | none =>
            rw [stepped] at later
            cases later
        | some s' =>
            rw [stepped] at later
            exact List.mem_cons_of_mem t (ih later)

theorem Run.of_replay {S : System σ τ} {next : σ → τ → Option σ}
    (agrees : ∀ s t s', next s t = some s' → S.step s t s') {s s' : σ} {ts : List τ}
    (replayed : replay next s ts = some s') : S.Run s (trail next s ts) s' := by
  induction ts generalizing s with
  | nil =>
      cases replayed
      exact .nil
  | cons t rest ih =>
      simp only [replay, Option.bind_eq_some_iff] at replayed
      obtain ⟨between, first, others⟩ := replayed
      have start : S.Run s ([] ++ [(s, t)]) between := Run.nil.snoc (agrees _ _ _ first)
      have whole := start.append (ih others)
      simpa [trail, first] using whole

theorem replay_snoc {next : σ → τ → Option σ} {s : σ} {ts : List τ} {t : τ} :
    replay next s (ts ++ [t]) = (replay next s ts).bind fun s' => next s' t := by
  induction ts generalizing s with
  | nil =>
      show (next s t).bind some = next s t
      cases next s t with
      | none => rfl
      | some v => rfl
  | cons t' rest ih =>
      rw [List.cons_append, replay, replay, Option.bind_assoc]
      congr 1
      funext s'
      exact ih

theorem trail_snoc {next : σ → τ → Option σ} {s s' : σ} {ts : List τ} {t : τ}
    (replayed : replay next s ts = some s') :
    trail next s (ts ++ [t]) = trail next s ts ++ [(s', t)] := by
  induction ts generalizing s with
  | nil =>
      cases replayed
      cases first : next s' t with
      | none => simp [trail, first]
      | some v => simp [trail, first]
  | cons t' rest ih =>
      simp only [replay, Option.bind_eq_some_iff] at replayed
      obtain ⟨v, first, others⟩ := replayed
      rw [List.cons_append, trail, trail, first, Option.map_some, Option.map_some,
        Option.getD_some, Option.getD_some, ih others, List.cons_append]

/-- Where the inputs determine the steps, they determine the run. -/
theorem Run.determined {S : System σ τ} {next : σ → τ → Option σ}
    (agrees : ∀ s t s', S.step s t s' → next s t = some s') {s s' : σ} {ms : List (σ × τ)}
    (run : S.Run s ms s') :
    replay next s (ms.map Prod.snd) = some s' ∧ trail next s (ms.map Prod.snd) = ms := by
  induction run with
  | nil => exact ⟨rfl, rfl⟩
  | snoc _ last ih =>
      obtain ⟨replayed, moves⟩ := ih
      rw [List.map_append, List.map_singleton, replay_snoc, trail_snoc replayed, replayed, moves]
      exact ⟨agrees _ _ _ last, rfl⟩

/-- Every concrete step is matched by some number of abstract steps, none included. -/
structure Simulation (S : System σ τ) (A : System σ' τ') (view : σ → σ') : Prop where
  start : ∀ s, S.init s → A.init (view s)
  moves : ∀ s t s', S.Reachable s → S.step s t s' → A.Later (view s) (view s')

theorem Simulation.reachable {S : System σ τ} {A : System σ' τ'} {view : σ → σ'}
    (simulation : Simulation S A view) {s} (reach : S.Reachable s) : A.Reachable (view s) := by
  induction reach with
  | init h => exact .init (simulation.start _ h)
  | step before last ih => exact ih.later (simulation.moves _ _ _ before last)

end System

end Transition
