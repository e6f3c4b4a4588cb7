import Perihelion.Lib.Transition

/-! # Journals

A system that only ever appends to its log, and an observer who sees nothing but the log.
The log tells a step when reading the new entries takes the observer from the view before it
to the view after it.  Reading the log of a reachable state then gives its view, from the
start or from any earlier state on.
-/

open Transition

/-- What is read, how one entry is read, and what the observer is to know. -/
structure Journal (σ : Type u) (ε : Type v) (ι : Type w) where
  log : σ → List ε
  read : ι → ε → ι
  view : σ → ι

namespace Journal

variable {σ : Type u} {ε : Type v} {ι : Type w} {τ : Type x} {J : Journal σ ε ι}

def readAll (J : Journal σ ε ι) (known : ι) (entries : List ε) : ι := entries.foldl J.read known

/-- The entries new in `s'` tell what has changed since `s`. -/
def Tells (J : Journal σ ε ι) (s s' : σ) : Prop :=
  ∃ entries, J.log s' = J.log s ++ entries ∧ J.readAll (J.view s) entries = J.view s'

theorem Tells.quiet {s s' : σ} (log : J.log s' = J.log s) (view : J.view s' = J.view s) :
    J.Tells s s' := by
  refine ⟨[], ?_, view.symm⟩
  rw [log, List.append_nil]

theorem Tells.entry {s s' : σ} {entry : ε} (log : J.log s' = J.log s ++ [entry])
    (view : J.read (J.view s) entry = J.view s') : J.Tells s s' :=
  ⟨[entry], log, view⟩

theorem Tells.refl (s : σ) : J.Tells s s := .quiet rfl rfl

theorem Tells.trans {s s' s'' : σ} (first : J.Tells s s') (second : J.Tells s' s'') :
    J.Tells s s'' := by
  obtain ⟨earlier, log, view⟩ := first
  obtain ⟨later, log', view'⟩ := second
  refine ⟨earlier ++ later, ?_, ?_⟩
  · rw [log', log, List.append_assoc]
  · rw [readAll, List.foldl_append]
    change J.readAll (J.readAll (J.view s) earlier) later = J.view s''
    rw [view, view']

/-- Only the entries after a checkpoint have to be read. -/
theorem Tells.resumed {s s' : σ} (tells : J.Tells s s') :
    J.readAll (J.view s) ((J.log s').drop (J.log s).length) = J.view s' := by
  obtain ⟨entries, log, view⟩ := tells
  rw [log, List.drop_left, view]

theorem tells_of_later {S : System σ τ}
    (step : ∀ s t s', S.Reachable s → S.step s t s' → J.Tells s s') {s s' : σ}
    (reach : S.Reachable s) (later : S.Later s s') : J.Tells s s' := by
  induction later with
  | refl => exact .refl s
  | tail run last ih =>
      obtain ⟨t, last⟩ := last
      exact ih.trans (step _ t _ (reach.later run) last)

theorem read_of_reachable {S : System σ τ} {known : ι}
    (init : ∀ s, S.init s → J.readAll known (J.log s) = J.view s)
    (step : ∀ s t s', S.Reachable s → S.step s t s' → J.Tells s s') {s : σ}
    (reach : S.Reachable s) : J.readAll known (J.log s) = J.view s := by
  refine System.Reachable.invariant init ?_ reach
  intro s t s' reach known' stepped
  obtain ⟨entries, log, view⟩ := step s t s' reach stepped
  rw [log, readAll, List.foldl_append]
  change J.readAll (J.readAll known (J.log s)) entries = J.view s'
  rw [known', view]

end Journal
