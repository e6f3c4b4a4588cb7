import Perihelion.Settlement.Admin
import Perihelion.Settlement.Inbound
import Perihelion.Lib.Bitmap
import Perihelion.Lib.ReplayGuard

/-! # The pruned nonce guard

Words of 64 nonces and a floor below which the words have been deleted.  A word is only
deleted when all its nonces are consumed, so the two together still stand for the set of
consumed nonces.
-/

namespace Perihelion.Settlement

open Fallible ReplayGuard

/-- A failed prune changes nothing. -/
def nonceGuard : Guard World Delivery Eid where
  accept d w := (acceptNonce d.srcEid d.nonce w).toOption
  upkeep eid w := (pruneNonceWords eid w).toOption.getD w

def World.nonceFloor (w : World) (eid : Eid) : Nat := (w.inboundNonceFloor eid).getD 0

def World.nonceWord (w : World) (eid : Eid) (index : Nat) : BitVec 64 :=
  (w.inboundNonceWord eid index).getD 0

/-- Words and floor stand for the set `seen` of consumed nonces. -/
structure NonceBook (w : World) (seen : Set Delivery) : Prop where
  aligned : ∀ eid, 64 ∣ w.nonceFloor eid
  below : ∀ d : Delivery, d.nonce ≠ 0 → d.nonce.toNat < w.nonceFloor d.srcEid → d ∈ seen
  above : ∀ d : Delivery, w.nonceFloor d.srcEid ≤ d.nonce.toNat →
    (Bitmap.has (w.nonceWord d.srcEid) d.nonce.toNat = true ↔ d ∈ seen)
  valid : ∀ d ∈ seen, d.nonce ≠ 0

/-- The world after the nonce has been accepted. -/
def World.acceptedNonce (w : World) (eid : Eid) (nonce : Nat) : World := { w with
  inboundNonceWord := Function.update w.inboundNonceWord eid
    (Function.update (w.inboundNonceWord eid) (nonce / 64)
      (some (Bitmap.mark (w.nonceWord eid (nonce / 64)) (nonce % 64)))) }

theorem acceptNonce_ok {eid nonce} {w w' : World} :
    acceptNonce eid nonce w = .ok w' ↔
      nonce ≠ 0 ∧ w.nonceFloor eid ≤ nonce.toNat ∧
        Bitmap.has (w.nonceWord eid) nonce.toNat = false ∧
        w.acceptedNonce eid nonce.toNat = w' := by
  have inside : nonce.toNat % 64 < 64 := Nat.mod_lt _ (by decide)
  simp only [acceptNonce, bind_ok, require_ok, exists_const, pure_ok, Bitmap.has,
    ← Bitmap.and_bit_eq_zero _ inside]
  rfl

theorem nonceWord_acceptedNonce (w : World) (eid other : Eid) (nonce : Nat) :
    (w.acceptedNonce eid nonce).nonceWord other =
      if other = eid then Bitmap.add (w.nonceWord eid) nonce else w.nonceWord other := by
  funext index
  unfold World.nonceWord World.acceptedNonce
  by_cases same : other = eid
  · subst same
    by_cases here : index = nonce / 64
    · simp [here, Bitmap.add, World.nonceWord]
    · simp [here, Bitmap.add, World.nonceWord]
  · simp [same]

theorem NonceBook.accepts {w : World} {seen} (book : NonceBook w seen) (d : Delivery) :
    (nonceGuard.accept d w).isSome ↔ d.nonce ≠ 0 ∧ d ∉ seen := by
  simp only [Option.isSome_iff_exists, nonceGuard, toOption_some]
  constructor
  · intro given
    obtain ⟨w', ran⟩ := given
    obtain ⟨nonzero, floor, clear, -⟩ := acceptNonce_ok.mp ran
    refine ⟨nonzero, fun known => ?_⟩
    rw [(book.above d floor).mpr known] at clear
    cases clear
  · intro given
    obtain ⟨nonzero, new⟩ := given
    have floor : w.nonceFloor d.srcEid ≤ d.nonce.toNat := by
      by_contra low
      exact new (book.below d nonzero (by omega))
    have clear : Bitmap.has (w.nonceWord d.srcEid) d.nonce.toNat = false := by
      rw [Bool.eq_false_iff]
      exact fun marked => new ((book.above d floor).mp marked)
    exact ⟨_, acceptNonce_ok.mpr ⟨nonzero, floor, clear, rfl⟩⟩

theorem NonceBook.admits {w w' : World} {seen} (book : NonceBook w seen) {d : Delivery}
    (ran : acceptNonce d.srcEid d.nonce w = .ok w') : NonceBook w' (insert d seen) := by
  obtain ⟨nonzero, -, -, rfl⟩ := acceptNonce_ok.mp ran
  constructor
  case aligned => exact book.aligned
  case below =>
    intro e nonzero low
    exact Set.mem_insert_of_mem _ (book.below e nonzero low)
  case above =>
    intro e floor
    rw [nonceWord_acceptedNonce, Set.mem_insert_iff]
    have before := book.above e floor
    by_cases same : e.srcEid = d.srcEid
    · have equal : e = d ↔ e.nonce.toNat = d.nonce.toNat := by
        cases e
        cases d
        simp_all [UInt64.toNat_inj]
      rw [if_pos same, Bitmap.has_add (by decide), ← same, Bool.or_eq_true, decide_eq_true_iff,
        before, equal]
    · have different : e ≠ d := fun equal => same (congrArg Delivery.srcEid equal)
      rw [if_neg same, before]
      simp [different]
  case valid =>
    intro e known
    rcases Set.mem_insert_iff.mp known with rfl | known
    · exact nonzero
    · exact book.valid e known

/-! ## Pruning -/

/-- The scan deletes complete words only, and nothing from where it stops on. -/
theorem pruneFrom_spec (words : Nat → Option (BitVec 64)) (word scans : Nat) :
    word ≤ (pruneFrom words word scans).2 ∧
      (∀ index, word ≤ index → index < (pruneFrom words word scans).2 →
        words index = some (completeMask index)) ∧
      ∀ index, (pruneFrom words word scans).2 ≤ index →
        (pruneFrom words word scans).1 index = words index := by
  induction scans generalizing words word with
  | zero =>
      refine ⟨Nat.le_refl _, ?_, fun _ _ => rfl⟩
      intro index low high
      simp only [pruneFrom] at high
      omega
  | succ scans ih =>
      unfold pruneFrom
      split
      · rename_i complete
        obtain ⟨advances, deleted, kept⟩ := ih (Function.update words word none) (word + 1)
        refine ⟨by omega, ?_, ?_⟩
        · intro index low high
          by_cases here : index = word
          · rw [here]
            exact complete
          · have found := deleted index (by omega) high
            rwa [Function.update_of_ne here] at found
        · intro index high
          have here : index ≠ word := by omega
          rw [kept index high, Function.update_of_ne here]
      · refine ⟨Nat.le_refl _, ?_, fun _ _ => rfl⟩
        intro index low high
        omega

/-- Every nonce but 0 is marked in a complete word. -/
theorem marked_completeMask {nonce : Nat} (nonzero : nonce ≠ 0) :
    Bitmap.marked (completeMask (nonce / 64)) (nonce % 64) = true := by
  have inside : nonce % 64 < 64 := Nat.mod_lt _ (by decide)
  rw [Bitmap.marked_eq_getLsbD (by decide)]
  unfold completeMask
  split
  · rename_i first
    have mask : BitVec.allOnes 64 - 1 = ~~~ 1#64 := by decide
    have bit : nonce % 64 ≠ 0 := by omega
    rw [mask, BitVec.getLsbD_not, BitVec.getLsbD_one]
    simp [inside, bit]
  · rw [BitVec.getLsbD_allOnes]
    simp [inside]

/-- What a successful prune does: `word` is the first word it keeps. -/
theorem pruneNonceWords_ok {eid} {w w' : World} (ran : pruneNonceWords eid w = .ok w')
    (aligned : 64 ∣ w.nonceFloor eid) :
    ∃ word, w.nonceFloor eid ≤ word * 64 ∧
      (∀ index, w.nonceFloor eid / 64 ≤ index → index < word →
        w.nonceWord eid index = completeMask index) ∧
      (∀ index, word ≤ index → w'.nonceWord eid index = w.nonceWord eid index) ∧
      w'.nonceFloor eid = word * 64 ∧
      ∀ other, other ≠ eid →
        w'.nonceWord other = w.nonceWord other ∧ w'.nonceFloor other = w.nonceFloor other := by
  obtain ⟨advances, deleted, kept⟩ :=
    pruneFrom_spec (w.inboundNonceWord eid) (w.nonceFloor eid / 64) maxPruneWordsPerCall
  have start : w.nonceFloor eid / 64 * 64 = w.nonceFloor eid := Nat.div_mul_cancel aligned
  unfold World.nonceFloor at advances deleted kept start
  simp only [pruneNonceWords, requireNotPaused, bind_ok, require_ok, exists_const] at ran
  obtain ⟨-, -, ran⟩ := ran
  generalize scanned : pruneFrom (w.inboundNonceWord eid)
    ((w.inboundNonceFloor eid).getD 0 / 64) maxPruneWordsPerCall = scan at *
  obtain ⟨words, word⟩ := scan
  simp only at advances deleted kept ran
  have floors : w'.nonceFloor eid = word * 64 ∧
      ∀ other, other ≠ eid → w'.nonceFloor other = w.nonceFloor other := by
    unfold World.nonceFloor
    split at ran
    · cases ran
      exact ⟨by simp [World.publish, World.log], fun other different => by
        simp [World.publish, World.log, different]⟩
    · cases ran
      exact ⟨by simp only; omega, fun _ _ => rfl⟩
  have stored : w'.inboundNonceWord = Function.update w.inboundNonceWord eid words := by
    split at ran <;> cases ran <;> rfl
  refine ⟨word, ?_, ?_, ?_, floors.1, ?_⟩
  · unfold World.nonceFloor
    omega
  · intro index low high
    unfold World.nonceWord
    rw [deleted index low high]
    rfl
  · intro index high
    unfold World.nonceWord
    rw [stored, Function.update_self, kept index high]
  · intro other different
    refine ⟨?_, floors.2 other different⟩
    funext index
    unfold World.nonceWord
    rw [stored, Function.update_of_ne different]

theorem NonceBook.pruned {w w' : World} {seen eid} (book : NonceBook w seen)
    (ran : pruneNonceWords eid w = .ok w') : NonceBook w' seen := by
  obtain ⟨word, advances, deleted, kept, floor, others⟩ := pruneNonceWords_ok ran (book.aligned eid)
  have aligned := book.aligned eid
  constructor
  case aligned =>
    intro other
    by_cases same : other = eid
    · rw [same, floor]
      exact Nat.dvd_mul_left 64 word
    · rw [(others other same).2]
      exact book.aligned other
  case below =>
    intro d nonzero low
    by_cases same : d.srcEid = eid
    · by_cases old : d.nonce.toNat < w.nonceFloor d.srcEid
      · exact book.below d nonzero old
      · rw [same, floor] at low
        rw [same] at old
        refine (book.above d (by rw [same]; omega)).mp ?_
        unfold Bitmap.has
        rw [same, deleted (d.nonce.toNat / 64) (by omega) (by omega)]
        refine marked_completeMask fun zero => nonzero ?_
        exact UInt64.toNat_inj.mp zero
    · rw [(others _ same).2] at low
      exact book.below d nonzero low
  case above =>
    intro d high
    by_cases same : d.srcEid = eid
    · rw [same, floor] at high
      rw [← book.above d (by rw [same]; omega)]
      unfold Bitmap.has
      rw [same, kept (d.nonce.toNat / 64) (by omega)]
    · rw [(others _ same).2] at high
      rw [(others _ same).1]
      exact book.above d high
  case valid => exact book.valid

/-- The pruned guard tracks the set of consumed nonces. -/
theorem nonceGuard_tracks : nonceGuard.Tracks (fun d => d.nonce ≠ 0) NonceBook where
  accepts book := book.accepts
  admits book d w' taken := book.admits ((toOption_some _ _).mp taken)
  upkeeps {w seen} book eid := by
    cases pruned : (pruneNonceWords eid w).toOption with
    | none => simpa only [nonceGuard, pruned, Option.getD_none] using book
    | some w' =>
        simpa only [nonceGuard, pruned, Option.getD_some] using
          book.pruned ((toOption_some _ _).mp pruned)

/-- Nothing consumed, nothing pruned. -/
def World.FreshNonces (w : World) : Prop :=
  w.inboundNonceWord = (fun _ _ => none) ∧ w.inboundNonceFloor = fun _ => none

theorem NonceBook.fresh {w : World} (fresh : w.FreshNonces) : NonceBook w ∅ := by
  obtain ⟨words, floors⟩ := fresh
  have floor (eid : Eid) : w.nonceFloor eid = 0 := by simp [World.nonceFloor, floors]
  constructor
  case aligned =>
    intro eid
    rw [floor]
    exact Nat.dvd_zero 64
  case below =>
    intro d _ low
    rw [floor] at low
    omega
  case above =>
    intro d _
    simp [Bitmap.has, Bitmap.marked, World.nonceWord, words]
  case valid =>
    intro d known
    cases known

end Perihelion.Settlement
