import Perihelion.Escrow.Inbound
import Perihelion.Settlement.Machine
import Perihelion.Settlement.Nonces
import Mathlib.Order.Bounds.Basic

/-! # One replay guard in two representations

The escrow keeps 256-bit words forever, the settlement contract 64-bit words that it
prunes.  Both track the set of consumed nonces, so they let the same deliveries through.
-/

namespace Perihelion

open Fallible ReplayGuard

/-- Deliveries, interleaved with calls of `prune_nonce_words` for an endpoint id. -/
abbrev NonceEvent := ReplayGuard.Event Delivery Eid

namespace Escrow

/-- The nonce check of `lzReceive` and the consumption after it; nothing is ever pruned. -/
def nonceGuard : Guard World Delivery Eid where
  accept d w :=
    if d.nonce = 0 ∨ isNonceConsumed w d.srcEid d.nonce then none
    else some (consumeNonce d.srcEid d.nonce w)
  upkeep _ w := w

def Consumed (w : World) (seen : Set Delivery) : Prop :=
  ∀ d : Delivery, isNonceConsumed w d.srcEid d.nonce = true ↔ d ∈ seen

theorem nonceGuard_accept {d : Delivery} {w w' : World} :
    nonceGuard.accept d w = some w' ↔
      ¬ (d.nonce = 0 ∨ isNonceConsumed w d.srcEid d.nonce) ∧
        consumeNonce d.srcEid d.nonce w = w' := by
  by_cases refused : d.nonce = 0 ∨ isNonceConsumed w d.srcEid d.nonce
  · simp [nonceGuard, refused]
  · simp [nonceGuard, refused]

/-- The words track the set of consumed nonces. -/
theorem nonceGuard_tracks : nonceGuard.Tracks (fun d => d.nonce ≠ 0) Consumed where
  accepts {w seen} holds d := by
    simp only [Option.isSome_iff_exists, nonceGuard_accept, holds d, not_or, exists_and_left,
      exists_eq', and_true, ne_eq]
  admits {w seen} holds d w' taken e := by
    obtain ⟨-, rfl⟩ := nonceGuard_accept.mp taken
    have equal : e = d ↔ e.srcEid = d.srcEid ∧ e.nonce = d.nonce := by
      cases e
      cases d
      simp
    rw [isNonceConsumed_consumeNonce, Bool.or_eq_true, decide_eq_true_iff, holds e,
      Set.mem_insert_iff, equal]
  upkeeps holds _ := holds

theorem consumed_fresh {w : World} (fresh : w.inboundNonceBitmap = fun _ _ => 0) :
    Consumed w ∅ := by
  intro d
  rw [isNonceConsumed_has, fresh]
  simp [Bitmap.has, Bitmap.marked]

theorem inboundNonce_consumeNonce (srcEid eid : Eid) (nonce : UInt64) (w : World) :
    ((consumeNonce srcEid nonce w).inboundNonce eid).toNat =
      if eid = srcEid then max nonce.toNat (w.inboundNonce eid).toNat
      else (w.inboundNonce eid).toNat := by
  unfold consumeNonce
  by_cases same : eid = srcEid
  · subst same
    by_cases advances : w.inboundNonce eid < nonce
    · have above := UInt64.lt_iff_toNat_lt.mp advances
      simp only [advances, if_true, Function.update_self]
      omega
    · have below := mt UInt64.lt_iff_toNat_lt.mpr advances
      simp only [advances, if_false, if_true]
      omega
  · by_cases advances : w.inboundNonce srcEid < nonce
    · simp [advances, same]
    · simp [advances, same]

/-- The nonces of the deliveries from `eid`. -/
def noncesOf (eid : Eid) (deliveries : List Delivery) : Set Nat :=
  { n | ∃ d ∈ deliveries, d.srcEid = eid ∧ d.nonce.toNat = n }

theorem noncesOf_cons (eid : Eid) (d : Delivery) (rest : List Delivery) :
    noncesOf eid (d :: rest) =
      if d.srcEid = eid then insert d.nonce.toNat (noncesOf eid rest) else noncesOf eid rest := by
  ext n
  by_cases same : d.srcEid = eid
  · simp [noncesOf, same, eq_comm]
  · simp [noncesOf, same]

theorem greatest_of_max {a b x : Nat} {others : Set Nat}
    (greatest : IsGreatest (insert (max a b) others) x) :
    IsGreatest (insert b (insert a others)) x := by
  obtain ⟨member, bound⟩ := greatest
  have atLeast : max a b ≤ x := bound (Set.mem_insert _ _)
  constructor
  · rcases Set.mem_insert_iff.mp member with largest | later
    · rcases Nat.le_total a b with below | below
      · exact Or.inl (by omega)
      · exact Or.inr (Or.inl (by omega))
    · exact Set.mem_insert_of_mem _ (Set.mem_insert_of_mem _ later)
  · intro n known
    simp only [Set.mem_insert_iff] at known
    rcases known with rfl | rfl | known
    · omega
    · omega
    · exact bound (Set.mem_insert_of_mem _ known)

/-- `inboundNonce` is the greatest of what it was and what has been let through since. -/
theorem inboundNonce_after (eid : Eid) (w : World) (run : List NonceEvent) :
    IsGreatest (insert (w.inboundNonce eid).toNat (noncesOf eid (nonceGuard.accepted w run)))
      ((nonceGuard.after w run).inboundNonce eid).toNat := by
  induction run generalizing w with
  | nil => simp [Guard.accepted, Guard.after, noncesOf, IsGreatest, upperBounds]
  | cons event rest ih =>
      cases event with
      | upkeep task => exact ih w
      | deliver d =>
          cases taken : nonceGuard.accept d w with
          | none => simpa only [Guard.accepted, Guard.after, List.foldl_cons, Guard.step, taken,
              Option.getD_none] using ih w
          | some v =>
              have later := ih v
              obtain ⟨-, rfl⟩ := nonceGuard_accept.mp taken
              rw [inboundNonce_consumeNonce] at later
              simp only [Guard.accepted, Guard.after, List.foldl_cons, Guard.step, taken,
                Option.getD_some, noncesOf_cons]
              by_cases same : eid = d.srcEid
              · rw [if_pos same] at later
                rw [if_pos same.symm]
                exact greatest_of_max later
              · rw [if_neg same] at later
                rw [if_neg (Ne.symm same)]
                exact later

end Escrow

namespace Bridge

/-- The two guards, started with nothing consumed, let the same deliveries through: each
    with a nonce other than 0 the first time it arrives and never again, whatever arrives
    from other endpoint ids.  The escrow's counter is the greatest nonce let through. -/
theorem guards_accept_first {s : Settlement.World} {e : Escrow.World} (fresh : s.FreshNonces)
    (empty : e.inboundNonceBitmap = fun _ _ => 0) (zero : e.inboundNonce = fun _ => 0)
    (run : List NonceEvent) :
    Settlement.nonceGuard.accepted s run = Escrow.nonceGuard.accepted e run ∧
      (∀ d : Delivery, (Settlement.nonceGuard.accept d (Settlement.nonceGuard.after s run)).isSome ↔
        d.nonce ≠ 0 ∧ .deliver d ∉ run) ∧
      (∀ d : Delivery, (Escrow.nonceGuard.accept d (Escrow.nonceGuard.after e run)).isSome ↔
        d.nonce ≠ 0 ∧ .deliver d ∉ run) ∧
      ∀ eid, IsGreatest (insert 0 (Escrow.noncesOf eid (Escrow.nonceGuard.accepted e run)))
        ((Escrow.nonceGuard.after e run).inboundNonce eid).toNat := by
  have pruned := Settlement.NonceBook.fresh fresh
  have kept := Escrow.consumed_fresh empty
  refine ⟨?_, ?_, ?_, ?_⟩
  · exact Settlement.nonceGuard_tracks.agree Escrow.nonceGuard_tracks pruned kept run
  · exact fun d => Settlement.nonceGuard_tracks.accepts_after pruned run d
  · exact fun d => Escrow.nonceGuard_tracks.accepts_after kept run d
  · intro eid
    have greatest := Escrow.inboundNonce_after eid e run
    rw [zero] at greatest
    exact greatest

theorem guards_accept_first_created :
    (Settlement.nonceGuard.accept ⟨30101, 7⟩ (Settlement.nonceGuard.after Settlement.Sample.created
        [.deliver ⟨30101, 9⟩, .upkeep 30101, .deliver ⟨30102, 7⟩])).isSome ∧
      (Escrow.nonceGuard.accept ⟨30101, 7⟩ (Escrow.nonceGuard.after Escrow.Sample.created
        [.deliver ⟨30101, 9⟩, .upkeep 30101, .deliver ⟨30102, 7⟩])).isSome := by
  have first := @guards_accept_first Settlement.Sample.created Escrow.Sample.created ⟨rfl, rfl⟩ rfl
    rfl [.deliver ⟨30101, 9⟩, .upkeep 30101, .deliver ⟨30102, 7⟩]
  exact ⟨(first.2.1 ⟨30101, 7⟩).mpr (by decide), (first.2.2.1 ⟨30101, 7⟩).mpr (by decide)⟩

end Bridge

end Perihelion
