import Perihelion.Timelock.Steps

/-! # The council

The owner set, the threshold and the delay stay within their bounds, whatever
operations change them and whatever calls come in between.
-/

namespace Perihelion.Timelock

open Fallible Transition

structure Config.Valid (config : Config) : Prop where
  threshold_pos : 1 ≤ config.threshold
  threshold_le : config.threshold ≤ config.owners.length
  nodup : config.owners.Nodup
  nonzero : ∀ a ∈ config.owners, a ≠ 0
  isOwner_iff : ∀ a, config.isOwner a = true ↔ a ∈ config.owners
  delay_min : minDelay ≤ config.delay
  delay_max : config.delay ≤ maxDelay

/-- The part of it that says who the owners are. -/
structure Config.Listed (config : Config) : Prop where
  nodup : config.owners.Nodup
  nonzero : ∀ a ∈ config.owners, a ≠ 0
  isOwner_iff : ∀ a, config.isOwner a = true ↔ a ∈ config.owners

theorem Config.Valid.listed {config : Config} (valid : config.Valid) : config.Listed :=
  ⟨valid.nodup, valid.nonzero, valid.isOwner_iff⟩

/-- At least the threshold of distinct owners of whom something holds. -/
def Config.Quorum (config : Config) (holds : Address → Prop) : Prop :=
  ∃ quorum : List Address, quorum.Nodup ∧ (∀ o ∈ quorum, o ∈ config.owners ∧ holds o) ∧
    config.threshold ≤ quorum.length

theorem Config.Valid.quorum_iff {config : Config} (valid : config.Valid) (votes : Address → Bool) :
    config.Quorum (fun o => votes o = true) ↔ config.threshold ≤ Ballot.live config.owners votes := by
  constructor
  · rintro ⟨quorum, nodup, hold, enough⟩
    exact enough.trans (Ballot.length_le_live nodup hold)
  · intro enough
    obtain ⟨quorum, nodup, hold, size⟩ := Ballot.exists_quorum valid.nodup votes
    exact ⟨quorum, nodup, hold, size ▸ enough⟩

theorem Config.Listed.joins {config : Config} (listed : config.Listed) {a : Address}
    (nonzero : a ≠ 0) (new : config.isOwner a = false) :
    Config.Listed
      { config with
        isOwner := Function.update config.isOwner a true
        owners := config.owners ++ [a] } := by
  have absent : a ∉ config.owners := by
    intro member
    rw [(listed.isOwner_iff a).mpr member] at new
    cases new
  constructor
  · exact listed.nodup.append (List.nodup_singleton a) (by simpa using absent)
  · intro b member
    rcases List.mem_append.mp member with old | added
    · exact listed.nonzero b old
    · rw [List.mem_singleton.mp added]
      exact nonzero
  · intro b
    by_cases same : b = a
    · simp [same]
    · simp [same, listed.isOwner_iff]

theorem Config.Listed.leaves {config : Config} (listed : config.Listed) (a : Address) :
    Config.Listed
      { config with
        isOwner := Function.update config.isOwner a false
        owners := Ballot.swapPop a config.owners 0 config.owners.length } := by
  have perm := Ballot.swapPop_erase a config.owners
  constructor
  · exact perm.nodup_iff.mpr (listed.nodup.erase a)
  · intro b member
    exact listed.nonzero b (List.mem_of_mem_erase (perm.mem_iff.mp member))
  · intro b
    rw [perm.mem_iff, listed.nodup.mem_erase_iff, ← listed.isOwner_iff]
    by_cases same : b = a
    · simp [same]
    · simp [same]

theorem enroll_listed {owners_ : List Address} {config config' : Config} (listed : config.Listed)
    (h : owners_.foldlM enroll config = .ok config') :
    config'.Listed ∧ config'.owners.length = config.owners.length + owners_.length := by
  induction owners_ generalizing config with
  | nil =>
      cases h
      exact ⟨listed, rfl⟩
  | cons o rest ih =>
      simp only [List.foldlM_cons, enroll, bind_ok, require_ok, pure_ok] at h
      obtain ⟨_, ⟨_, ⟨nonzero, new⟩, rfl⟩, h⟩ := h
      obtain ⟨listed', size⟩ := ih (listed.joins nonzero new) h
      refine ⟨listed', ?_⟩
      rw [size, List.length_append, List.length_singleton, List.length_cons]
      omega

theorem construct_valid {creation : Creation} {w : World} (h : creation.world = .ok w) :
    w.toConfig.Valid := by
  simp only [Creation.world, construct, bind_ok, require_ok, pure_ok] at h
  obtain ⟨_, ⟨_, positive, covered⟩, _, ⟨least, most⟩, config, enrolled, rfl⟩ := h
  have empty : Config.Listed { owners := [], isOwner := fun _ => false, threshold := 0, delay := 0 } :=
    ⟨List.nodup_nil, by simp, by simp⟩
  obtain ⟨listed, size⟩ := enroll_listed empty enrolled
  simp only [List.length_nil, Nat.zero_add] at size
  exact ⟨Nat.one_le_iff_ne_zero.mpr positive, size ▸ covered, listed.nodup, listed.nonzero,
    listed.isOwner_iff, least, most⟩

theorem Reconfigures.valid {c : Context} {config config' : Config} {call : Call}
    (change : Reconfigures c config call config') (valid : config.Valid) : config'.Valid := by
  cases change with
  | @addOwner a self nonzero new =>
      have listed := valid.listed.joins nonzero new
      have covered := valid.threshold_le
      refine ⟨valid.threshold_pos, ?_, listed.nodup, listed.nonzero, listed.isOwner_iff,
        valid.delay_min, valid.delay_max⟩
      show config.threshold ≤ (config.owners ++ [a]).length
      rw [List.length_append]
      omega
  | @removeOwner a self member enough =>
      have listed := valid.listed.leaves a
      have size := (Ballot.swapPop_erase a config.owners).length_eq
      rw [List.length_erase_of_mem ((valid.isOwner_iff a).mp member)] at size
      refine ⟨valid.threshold_pos, ?_, listed.nodup, listed.nonzero, listed.isOwner_iff,
        valid.delay_min, valid.delay_max⟩
      show config.threshold ≤ (Ballot.swapPop a config.owners 0 config.owners.length).length
      omega
  | setThreshold self positive covered =>
      exact ⟨Nat.one_le_iff_ne_zero.mpr positive, covered, valid.nodup, valid.nonzero,
        valid.isOwner_iff, valid.delay_min, valid.delay_max⟩
  | setDelay self least most =>
      exact ⟨valid.threshold_pos, valid.threshold_le, valid.nodup, valid.nonzero, valid.isOwner_iff,
        least, most⟩
  | receive | getter => exact valid

theorem valid_of_contract {d : Deployment} {condition : World → Address → Call → Prop} {w : World}
    (reach : (contract d condition).Reachable w) : w.toConfig.Valid := by
  induction reach with
  | init start =>
      obtain ⟨creation, created⟩ := start
      exact construct_valid created
  | step _ last ih =>
      cases act_acts last.1 with
      | touches _ _ _ touches => exact touches.config ▸ ih
      | configures change _ => exact change.valid ih
      | idles _ idles => exact idles.config ▸ ih

/-- Runs under the condition that always holds are all runs. -/
theorem reachable_performs {d : Deployment} {s : State} (reach : (system d).Reachable s) :
    ((system d).under (Performs d fun _ _ _ => True)).Reachable s := by
  induction reach with
  | init start => exact .init start
  | step _ last ih => exact .step ih ⟨last, fun _ _ _ => trivial⟩

/-- In every reachable state, an open call's included, the configuration is valid. -/
theorem config_valid {d : Deployment} {s : State} (reach : (system d).Reachable s) :
    s.world.toConfig.Valid :=
  valid_of_contract (contract_of_reachable (reachable_performs reach)).1

theorem config_valid_removed :
    Sample.removed.world.toConfig.Valid ∧ Sample.removed.world.owners = [Sample.carol, Sample.bob] :=
  ⟨config_valid Sample.removed_reachable, by decide +kernel⟩

end Perihelion.Timelock
