import Mathlib.Tactic.Common

/-! # Two windows under one cap

A cap bounds what a window may take in on top of what it holds already, and the window
after it holds nothing.  Exactly when two windows give the same answers from some time on,
for all amounts up to a limit, can be read off what they hold and when they end.
-/

namespace CapWindow

inductive Verdict
  | admitted
  | refused
  | overflow
  deriving DecidableEq

structure Window where
  duration : Nat
  held : Nat
  ends : Nat

namespace Window

def heldAt (W : Window) (now : Nat) : Nat := if now < W.ends then W.held else 0

/-- A window of no duration bounds nothing.  Sums from `top` on overflow, that of a refusal
    with the time at which it ends among them. -/
def verdict (top cap : Nat) (W : Window) (amount now : Nat) : Verdict :=
  if W.duration = 0 then .admitted
  else if top ≤ W.heldAt now + amount then .overflow
  else if W.heldAt now + amount ≤ cap then .admitted
  else if top ≤ now + W.duration then .overflow
  else .refused

/-- The window that `since` lies in. -/
structure Current (top since : Nat) (W : Window) : Prop where
  begun : 0 < W.duration → since < W.ends
  ends_le : W.ends ≤ since + W.duration
  short : W.duration ≤ since
  held_lt : W.held < top

/-- The window refuses nothing up to the limit. -/
def Slack (cap limit : Nat) (W : Window) : Prop := W.duration = 0 ∨ W.held + limit ≤ cap

/-- Windows that end together and are equally full. -/
structure Twins (top cap limit : Nat) (W V : Window) : Prop where
  left : 0 < W.duration
  right : 0 < V.duration
  within : limit ≤ cap
  ends : W.ends = V.ends
  held : W.held = V.held ∨
    (cap < W.held ∧ W.held + limit < top) ∧ (cap < V.held ∧ V.held + limit < top)

def Agree (top cap limit since : Nat) (W V : Window) : Prop :=
  ∀ amount ≤ limit, ∀ now ≥ since, W.verdict top cap amount now = V.verdict top cap amount now

section verdict

variable {top cap : Nat} {W : Window} {amount now : Nat}

theorem verdict_admitted (word : cap < top) :
    W.verdict top cap amount now = .admitted ↔ W.duration = 0 ∨ W.heldAt now + amount ≤ cap := by
  unfold verdict
  split
  · rename_i off
    simp [off]
  · rename_i on
    split
    · simp only [reduceCtorEq, false_iff]
      omega
    · split
      · rename_i within
        simp [within]
      · split <;> simp only [reduceCtorEq, false_iff] <;> omega

theorem verdict_refused (on : 0 < W.duration) (fits : W.heldAt now + amount < top)
    (exceeds : cap < W.heldAt now + amount) (clock : now + W.duration < top) :
    W.verdict top cap amount now = .refused := by
  unfold verdict
  rw [if_neg (by omega), if_neg (by omega), if_neg (by omega), if_neg (by omega)]

theorem verdict_overflow (on : 0 < W.duration)
    (overflows : top ≤ W.heldAt now + amount ∨
      cap < W.heldAt now + amount ∧ top ≤ now + W.duration) :
    W.verdict top cap amount now = .overflow := by
  unfold verdict
  rw [if_neg (by omega)]
  by_cases sum : top ≤ W.heldAt now + amount
  · rw [if_pos sum]
  · obtain ⟨exceeds, clock⟩ := overflows.resolve_left sum
    rw [if_neg sum, if_neg (Nat.not_le.mpr exceeds), if_pos clock]

theorem heldAt_before (before : now < W.ends) : W.heldAt now = W.held := if_pos before

theorem heldAt_after (after : W.ends ≤ now) : W.heldAt now = 0 := if_neg (Nat.not_lt.mpr after)

end verdict

section agree

variable {top cap limit since : Nat} {W V : Window}

theorem Agree.symm (agree : Agree top cap limit since W V) : Agree top cap limit since V W :=
  fun amount most now later => (agree amount most now later).symm

theorem Agree.admitted (agree : Agree top cap limit since W V) (word : cap < top) {amount now : Nat}
    (most : amount ≤ limit) (later : since ≤ now)
    (within : W.duration = 0 ∨ W.heldAt now + amount ≤ cap) :
    V.duration = 0 ∨ V.heldAt now + amount ≤ cap := by
  have same := agree amount most now later
  rw [(verdict_admitted word).mpr within] at same
  exact (verdict_admitted word).mp same.symm

theorem Current.held (current : Current top since W) (on : 0 < W.duration) :
    W.heldAt since = W.held := heldAt_before (current.begun on)

theorem Slack.admitted (slack : W.Slack cap limit) {amount : Nat} (most : amount ≤ limit) (now : Nat) :
    W.duration = 0 ∨ W.heldAt now + amount ≤ cap := by
  rcases slack with off | within
  · exact Or.inl off
  · right
    unfold heldAt
    split <;> omega

theorem Agree.slack (agree : Agree top cap limit since W V) (word : cap < top)
    (right : V.Current top since) (slack : W.Slack cap limit) : V.Slack cap limit := by
  rcases agree.admitted word (Nat.le_refl _) (Nat.le_refl _) (slack.admitted (Nat.le_refl _) since)
    with off | within
  · exact Or.inl off
  · rcases Nat.eq_zero_or_pos V.duration with off | on
    · exact Or.inl off
    · rw [right.held on] at within
      exact Or.inr within

/-- Long after both windows the longer one overflows where the shorter one still refuses. -/
theorem Agree.within (agree : Agree top cap limit since W V) (limited : limit < top)
    (left : W.Current top since) (right : V.Current top since) (far : 3 * since < top)
    (on : 0 < W.duration) (longer : W.duration < V.duration) : limit ≤ cap := by
  apply Nat.le_of_not_lt
  intro exceeds
  have short := left.short
  have long := right.short
  have ends := left.ends_le
  have ends' := right.ends_le
  have same := agree limit (Nat.le_refl _) (top - V.duration) (by omega)
  have empty : W.heldAt (top - V.duration) = 0 := heldAt_after (by omega)
  have empty' : V.heldAt (top - V.duration) = 0 := heldAt_after (by omega)
  rw [verdict_refused on (by omega) (by omega) (by omega),
    verdict_overflow (by omega) (Or.inr ⟨by omega, by omega⟩)] at same
  cases same

/-- When one window ends before the other, the other has to be slack. -/
theorem Agree.ends_le (agree : Agree top cap limit since W V) (word : cap < top)
    (within : limit ≤ cap) (left : W.Current top since) (on : 0 < W.duration)
    (tight : ¬ V.Slack cap limit) : V.ends ≤ W.ends := by
  apply Nat.le_of_not_lt
  intro earlier
  have begun := left.begun on
  have empty : W.heldAt W.ends = 0 := heldAt_after (Nat.le_refl _)
  have admitted := agree.admitted word (Nat.le_refl _) (Nat.le_of_lt begun) (Or.inr (by omega))
  rw [heldAt_before earlier] at admitted
  exact tight admitted

theorem Agree.held_le (agree : Agree top cap limit since W V) (word : cap < top)
    (left : W.Current top since) (right : V.Current top since) (on : 0 < W.duration)
    (on' : 0 < V.duration) (tight : ¬ W.Slack cap limit) (room : W.held ≤ cap) :
    V.held ≤ W.held := by
  have exceeds : cap < W.held + limit := by
    apply Nat.lt_of_not_le
    exact fun within => tight (Or.inr within)
  have held := left.held on
  rcases agree.admitted word (show cap - W.held ≤ limit by omega) (Nat.le_refl _)
    (Or.inr (by omega)) with off | admitted
  · omega
  · rw [right.held on'] at admitted
    omega

/-- Overfull windows that hold different amounts tell them apart by the overflow. -/
theorem Agree.no_overflow (agree : Agree top cap limit since W V)
    (left : W.Current top since) (right : V.Current top since) (far : 3 * since < top)
    (on : 0 < W.duration) (on' : 0 < V.duration) (full : cap < W.held) (less : W.held < V.held) :
    V.held + limit < top := by
  apply Nat.lt_of_not_le
  intro overflows
  have bound := right.held_lt
  have short := left.short
  have held := left.held on
  have held' := right.held on'
  have same := agree (top - V.held) (by omega) since (Nat.le_refl _)
  rw [verdict_refused on (by omega) (by omega) (by omega),
    verdict_overflow on' (Or.inl (by omega))] at same
  cases same

theorem Agree.twins (agree : Agree top cap limit since W V) (word : cap < top)
    (limited : limit < top) (left : W.Current top since) (right : V.Current top since)
    (far : 3 * since < top) (different : W.duration ≠ V.duration)
    (tight : ¬ W.Slack cap limit) (tight' : ¬ V.Slack cap limit) : Twins top cap limit W V := by
  have on : 0 < W.duration := Nat.pos_of_ne_zero fun off => tight (Or.inl off)
  have on' : 0 < V.duration := Nat.pos_of_ne_zero fun off => tight' (Or.inl off)
  have within : limit ≤ cap := by
    rcases Nat.lt_or_gt_of_ne different with longer | shorter
    · exact agree.within limited left right far on longer
    · exact agree.symm.within limited right left far on' shorter
  have ends := agree.ends_le word within left on tight'
  have ends' := agree.symm.ends_le word within right on' tight
  refine ⟨on, on', within, Nat.le_antisymm ends' ends, ?_⟩
  have held : W.held ≤ cap → V.held ≤ W.held := agree.held_le word left right on on' tight
  have held' : V.held ≤ cap → W.held ≤ V.held := agree.symm.held_le word right left on' on tight'
  rcases Nat.lt_trichotomy W.held V.held with less | same | more
  · have full : cap < W.held := by
      apply Nat.lt_of_not_le
      intro room
      exact absurd (held room) (Nat.not_le.mpr less)
    have fits := agree.no_overflow left right far on on' full less
    exact Or.inr ⟨⟨full, by omega⟩, by omega, fits⟩
  · exact Or.inl same
  · have full : cap < V.held := by
      apply Nat.lt_of_not_le
      intro room
      exact absurd (held' room) (Nat.not_le.mpr more)
    have fits := agree.symm.no_overflow right left far on' on full more
    exact Or.inr ⟨⟨by omega, fits⟩, full, by omega⟩

theorem Twins.agree (twins : Twins top cap limit W V) (word : cap < top)
    (left : W.Current top since) (right : V.Current top since) (far : 3 * since < top) :
    Agree top cap limit since W V := by
  intro amount most now later
  obtain ⟨on, on', within, ends, held⟩ := twins
  rcases Nat.lt_or_ge now W.ends with before | after
  · have short := left.short
    have short' := right.short
    have ends_le := left.ends_le
    have heldW : W.heldAt now = W.held := heldAt_before before
    have heldV : V.heldAt now = V.held := heldAt_before (ends ▸ before)
    rcases held with same | ⟨⟨full, fits⟩, full', fits'⟩
    · by_cases room : V.held + amount ≤ cap
      · rw [(verdict_admitted word).mpr (Or.inr (by omega)),
          (verdict_admitted word).mpr (Or.inr (by omega))]
      · by_cases sum : top ≤ V.held + amount
        · rw [verdict_overflow on (Or.inl (by omega)), verdict_overflow on' (Or.inl (by omega))]
        · rw [verdict_refused on (by omega) (by omega) (by omega),
            verdict_refused on' (by omega) (by omega) (by omega)]
    · rw [verdict_refused on (by omega) (by omega) (by omega),
        verdict_refused on' (by omega) (by omega) (by omega)]
  · have heldW : W.heldAt now = 0 := heldAt_after after
    have heldV : V.heldAt now = 0 := heldAt_after (ends ▸ after)
    rw [(verdict_admitted word).mpr (Or.inr (by omega)),
      (verdict_admitted word).mpr (Or.inr (by omega))]

/-- Windows of different durations agree exactly if neither refuses anything, or if they
    are twins. -/
theorem agree_iff (word : cap < top) (limited : limit < top) (left : W.Current top since)
    (right : V.Current top since) (far : 3 * since < top) (different : W.duration ≠ V.duration) :
    Agree top cap limit since W V ↔
      W.Slack cap limit ∧ V.Slack cap limit ∨ Twins top cap limit W V := by
  constructor
  · intro agree
    by_cases slack : W.Slack cap limit
    · exact Or.inl ⟨slack, agree.slack word right slack⟩
    · have tight : ¬ V.Slack cap limit := fun given => slack (agree.symm.slack word left given)
      exact Or.inr (agree.twins word limited left right far different slack tight)
  · rintro (⟨slack, slack'⟩ | twins)
    · intro amount most now _
      rw [(verdict_admitted word).mpr (slack.admitted most now),
        (verdict_admitted word).mpr (slack'.admitted most now)]
    · exact twins.agree word left right far

end agree

end Window

end CapWindow
