import Perihelion.Relayer.Tick

/-! # The depth of a fork

The walk back through the window compares each record with its own predecessor.  Both are of the
branch that the window knows, and so are linked wherever the fork is: every fork looks like one of
depth 1.
-/

namespace Perihelion.Relayer

open BigEndian

/-- A window of one branch that ends below `head`. -/
structure Segment (blockWindow : List BlockRecord) (low head : Nat) : Prop where
  within : ∀ block ∈ blockWindow, low ≤ block.number ∧ block.number < head
  contiguous : ∀ number, low ≤ number → number < head → ∃ block ∈ blockWindow, block.number = number
  linked : ∀ block ∈ blockWindow, ∀ child ∈ blockWindow, child.number = block.number + 1 →
    child.parentHash = block.hash

/-- The hashes of another branch agree with the window up to block `common`, and no further. -/
structure Forks (blockWindow : List BlockRecord) (hash : Nat → Bytes32) (common : Nat) : Prop where
  shared : ∀ block ∈ blockWindow, block.number ≤ common → block.hash = hash block.number
  orphaned : ∀ block ∈ blockWindow, common < block.number → block.hash ≠ hash block.number

/-- What a watcher answers that has read the branch. -/
structure Reads (hash : Nat → Bytes32) (head : Nat) (poll : Poll) : Prop where
  at_head : poll.head = head
  headHash : poll.headHash = some (hash head)
  parentHash : poll.parentHash = some (hash (head - 1))

/-- The head stands where the cursor does, with messages: a rollback of the chain's own. -/
def IsLocalRollback (memory : Memory) (poll : Poll) : Prop :=
  poll.head = memory.cursor ∧ 0 < poll.messages.length

/-- The `DEEP_REORG` branch: a reorg is found, and the cursor stays. -/
def DeepReorg (config : Config) (memory : Memory) (poll : Poll) : Prop :=
  ∃ parentHash, poll.parentHash = some parentHash ∧
    0 < detectReorg memory.blockWindow config.startBlock poll.head parentHash ∧
    reorgDepth config memory poll = none

/-- The depth is found, and a fork below the confirmations is told from the others. -/
structure Measures (config : Config) (memory : Memory) (poll : Poll) (parentHash : Bytes32)
    (orphans : Nat) : Prop where
  depth : detectReorg memory.blockWindow config.startBlock poll.head parentHash = orphans
  deep : config.confirmations < orphans → DeepReorg config memory poll

section fork

variable {blockWindow : List BlockRecord} {hash : Nat → Bytes32} {low head common startBlock : Nat}

theorem parentRecord_segment (segment : Segment blockWindow low head) {number : Nat}
    (above : low < number) (below : number ≤ head) :
    ∃ block ∈ blockWindow, block.number + 1 = number ∧
      parentRecord blockWindow number = some block := by
  cases found : parentRecord blockWindow number with
  | none =>
      obtain ⟨block, member, at_number⟩ := segment.contiguous (number - 1) (by omega) (by omega)
      have missing := List.find?_eq_none.mp found block member
      simp only [beq_iff_eq] at missing
      omega
  | some block =>
      have same := List.find?_some found
      simp only [beq_iff_eq] at same
      exact ⟨block, List.mem_of_find?_eq_some found, same, rfl⟩

/-- The walk stops at its first block: the record before it is its parent. -/
theorem walkBack_segment (segment : Segment blockWindow low head) {block : BlockRecord}
    (member : block ∈ blockWindow) (above : low < block.number) (last : block.number + 1 = head) :
    walkBack blockWindow startBlock head block.number block.parentHash 1 = 1 := by
  obtain ⟨ancestor, there, before, found⟩ := parentRecord_segment segment above (by omega)
  have linked := segment.linked ancestor there block member before.symm
  rw [← before, walkBack, before]
  split
  · rw [found]
    simp only
    rw [if_pos linked.symm]
    omega
  · rfl

/-- A fork of any depth is given the depth 1. -/
theorem detectReorg_fork (segment : Segment blockWindow low head)
    (forks : Forks blockWindow hash common) (inside : low ≤ common) (below : common < head) :
    detectReorg blockWindow startBlock head (hash (head - 1)) =
      if head ≤ common + 1 then 0 else 1 := by
  obtain ⟨prev, member, before, found⟩ :=
    parentRecord_segment segment (show low < head by omega) (Nat.le_refl head)
  have tip : head - 1 = prev.number := by omega
  unfold detectReorg
  rw [found, tip]
  simp only
  by_cases continuous : head ≤ common + 1
  · rw [if_pos (forks.shared prev member (by omega)), if_pos continuous]
  · rw [if_neg (forks.orphaned prev member (by omega)), if_neg continuous]
    exact walkBack_segment segment member (by omega) before

theorem deepReorg_iff {config : Config} {memory : Memory} {poll : Poll}
    (reads : Reads hash head poll) : DeepReorg config memory poll ↔
      0 < detectReorg memory.blockWindow config.startBlock head (hash (head - 1)) ∧
      config.confirmations <
        detectReorg memory.blockWindow config.startBlock head (hash (head - 1)) ∧
      ¬ IsLocalRollback memory poll := by
  unfold DeepReorg reorgDepth IsLocalRollback
  rw [reads.headHash, reads.parentHash, reads.at_head]
  constructor
  · rintro ⟨parentHash, same, found, none⟩
    cases same
    simp only [found, if_true] at none
    split at none
    · rename_i deep
      exact ⟨found, deep⟩
    · cases none
  · rintro ⟨found, deep⟩
    refine ⟨_, rfl, found, ?_⟩
    simp only [found, if_true]
    rw [if_pos deep]

/-- Only forks of at most one block are measured, and only with confirmations to spare or away
    from the cursor. -/
theorem measures_iff {config : Config} {memory : Memory} {poll : Poll}
    (segment : Segment memory.blockWindow low head) (forks : Forks memory.blockWindow hash common)
    (inside : low ≤ common) (below : common < head) (reads : Reads hash head poll) :
    Measures config memory poll (hash (head - 1)) (head - 1 - common) ↔
      head ≤ common + 2 ∧
        (common + 1 < head → config.confirmations = 0 → ¬ IsLocalRollback memory poll) := by
  have found := @detectReorg_fork _ _ _ _ _ config.startBlock segment forks inside below
  have deep := @deepReorg_iff _ _ config memory poll reads
  rw [found] at deep
  constructor
  · intro measures
    have depth := measures.depth
    rw [reads.at_head, found] at depth
    constructor
    · split at depth
      · omega
      · omega
    · intro forked none
      have branch := deep.mp (measures.deep (by omega))
      exact branch.2.2
  · rintro ⟨shallow, guarded⟩
    constructor
    case depth =>
      rw [reads.at_head, found]
      split
      · omega
      · omega
    case deep =>
      intro enough
      have forked : common + 1 < head := by omega
      rw [if_neg (by omega)] at deep
      exact deep.mpr ⟨by omega, by omega, guarded forked (by omega)⟩

end fork

namespace Sample

/-- Blocks 1 to 4 of a branch. -/
def window : List BlockRecord := [⟨1, 1, 0⟩, ⟨2, 2, 1⟩, ⟨3, 3, 2⟩, ⟨4, 4, 3⟩]

/-- A branch that leaves it after a block. -/
def forkHash (common number : Nat) : Bytes32 :=
  if number ≤ common then BitVec.ofNat 256 number else BitVec.ofNat 256 (number + 100)

def forkPoll (common : Nat) : Poll where
  messages := []
  head := 5
  headHash := some (forkHash common 5)
  parentHash := some (forkHash common 4)
  blockHeaders := none

def forkConfig : Config := ⟨2, 0, ⟨5, 1000⟩⟩

def forkMemory : Memory := { Memory.resume forkConfig none [] with blockWindow := window }

theorem window_segment : Segment window 1 5 where
  within := by decide
  contiguous number low high := by
    have listed : ∀ number < 5, 1 ≤ number → ∃ block ∈ window, block.number = number := by decide
    exact listed number high low
  linked := by decide

theorem window_forks {common : Nat} (inside : common < 5) :
    Forks window (forkHash common) common where
  shared := by
    have listed : ∀ common < 5, ∀ block ∈ window, block.number ≤ common →
      block.hash = forkHash common block.number := by decide +kernel
    exact listed common inside
  orphaned := by
    have listed : ∀ common < 5, ∀ block ∈ window, common < block.number →
      block.hash ≠ forkHash common block.number := by decide +kernel
    exact listed common inside

theorem forkPoll_reads (common : Nat) : Reads (forkHash common) 5 (forkPoll common) :=
  ⟨rfl, rfl, rfl⟩

end Sample

theorem measures_sample :
    Measures Sample.forkConfig Sample.forkMemory (Sample.forkPoll 3) (Sample.forkHash 3 4) 1 := by
  have forks : Forks Sample.forkMemory.blockWindow (Sample.forkHash 3) 3 :=
    Sample.window_forks (by decide)
  have measured := @measures_iff (Sample.forkHash 3) 1 5 3 Sample.forkConfig Sample.forkMemory
    (Sample.forkPoll 3) Sample.window_segment forks (by decide) (by decide)
    (Sample.forkPoll_reads 3)
  exact measured.mpr ⟨by decide, fun _ none => absurd none (by decide)⟩

/-- Three blocks are orphaned, one more than there are confirmations, and the cursor is set back
    by one. -/
theorem fork_undermeasured : Segment Sample.window 1 5 ∧ Forks Sample.window (Sample.forkHash 1) 1 ∧
    detectReorg Sample.window 0 5 (Sample.forkHash 1 4) = 1 ∧
    reorgDepth Sample.forkConfig Sample.forkMemory (Sample.forkPoll 1) = some 1 ∧
    ¬ Measures Sample.forkConfig Sample.forkMemory (Sample.forkPoll 1) (Sample.forkHash 1 4) 3 := by
  have depth : detectReorg Sample.window 0 5 (Sample.forkHash 1 4) = 1 := by decide +kernel
  refine ⟨Sample.window_segment, Sample.window_forks (by decide), depth, by decide +kernel, ?_⟩
  intro measures
  have three : detectReorg Sample.window 0 5 (Sample.forkHash 1 4) = 3 := measures.depth
  omega

end Perihelion.Relayer
