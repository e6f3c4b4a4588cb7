import Perihelion.Escrow.Codec
import Perihelion.Settlement.Inbound

/-! # What one contract encodes the other decodes

The FillInstruction on its way to the settlement contract and the FillConfirmed on its
way back.  The two sides never share a type, only the byte layout.
-/

namespace Perihelion.Bridge

open BigEndian Fallible

/-- An escrow-side address as the 32-byte word that names it across the bridge. -/
def word (account : Escrow.Address) : Bytes32 := account.setWidth 256

theorem word_toNat (account : Escrow.Address) : (word account).toNat = account.toNat := by
  have small := account.isLt
  simp only [word, BitVec.toNat_setWidth]
  omega

theorem word_ofBytes (account : Escrow.Address) :
    Bytes32.ofBytes (Escrow.addressWord account) = word account := by
  apply BitVec.eq_of_toNat_eq
  have small := account.isLt
  rw [word_toNat]
  simp only [Bytes32.ofBytes, Escrow.addressWord, decode_encode, BitVec.toNat_ofNat]
  omega

/-! ## FillConfirmed -/

section FillConfirmed

variable (intentHash solverEvm : Bytes32) (fillAmount : Settlement.I128) (fillLedger : Nat)

theorem fillConfirmed_solver :
    field (Settlement.encodeFillConfirmed intentHash solverEvm fillAmount fillLedger) 34 32 =
      Bytes32.toBytes solverEvm := by
  have here := field_of_append
    ([Settlement.protocolVersion] ++ [Settlement.msgFillConfirmed] ++ Bytes32.toBytes intentHash)
    (Bytes32.toBytes solverEvm) (encode 16 fillAmount.toNat ++ encode 8 fillLedger) 34 32
    (by simp) (by simp)
  simpa only [Settlement.encodeFillConfirmed, List.append_assoc] using here

theorem fillConfirmed_amount :
    field (Settlement.encodeFillConfirmed intentHash solverEvm fillAmount fillLedger) 66 16 =
      encode 16 fillAmount.toNat := by
  have here := field_of_append
    ([Settlement.protocolVersion] ++ [Settlement.msgFillConfirmed] ++ Bytes32.toBytes intentHash
      ++ Bytes32.toBytes solverEvm)
    (encode 16 fillAmount.toNat) (encode 8 fillLedger) 66 16 (by simp) (by simp)
  simpa only [Settlement.encodeFillConfirmed, List.append_assoc] using here

theorem fillConfirmed_ledger :
    field (Settlement.encodeFillConfirmed intentHash solverEvm fillAmount fillLedger) 82 8 =
      encode 8 fillLedger := by
  have here := field_of_append
    ([Settlement.protocolVersion] ++ [Settlement.msgFillConfirmed] ++ Bytes32.toBytes intentHash
      ++ Bytes32.toBytes solverEvm ++ encode 16 fillAmount.toNat)
    (encode 8 fillLedger) [] 82 8 (by simp) (by simp)
  simpa only [Settlement.encodeFillConfirmed, List.append_assoc, List.append_nil] using here

end FillConfirmed

/-- The escrow reads back the solver and the amount; a ledger number has fewer than 64 bits. -/
theorem decode_fillConfirmed (intentHash : Bytes32) (solver : Escrow.Address)
    (fillAmount : Settlement.I128) (fillLedger : Nat) :
    Escrow.decodeFillConfirmed
        (Settlement.encodeFillConfirmed intentHash (word solver) fillAmount fillLedger) =
      .ok ⟨intentHash, solver, fillAmount.toNat, fillLedger % 256 ^ 8⟩ := by
  have length := Settlement.encodeFillConfirmed_length intentHash (word solver) fillAmount fillLedger
  have hash := Settlement.messageIntent_encodeFillConfirmed intentHash (word solver) fillAmount fillLedger
  have solverWord : decode (Bytes32.toBytes (word solver)) = solver.toNat := by
    have small := solver.isLt
    simp only [Bytes32.toBytes, decode_encode, word_toNat]
    omega
  have amount : decode (encode 16 fillAmount.toNat) = fillAmount.toNat := by
    have small := fillAmount.isLt
    simp only [decode_encode]
    omega
  have high : solver.toNat / 2 ^ 160 = 0 := Nat.div_eq_of_lt solver.isLt
  unfold Settlement.messageIntent at hash
  simp only [Escrow.decodeFillConfirmed, bind_ok, require_ok, exists_const, pure_ok,
    fillConfirmed_solver, fillConfirmed_amount, fillConfirmed_ledger, solverWord, amount, hash,
    BitVec.ofNat_toNat, BitVec.setWidth_eq, decode_encode, and_true]
  exact ⟨length, high⟩

/-! ## FillInstruction -/

section FillInstruction

variable (d : Escrow.Deployment) (intentHash : Bytes32) (intent : Escrow.Intent)
  (solver : Escrow.Address)

/-- Everything before the four numbers the settlement of the intent depends on. -/
def instructionHead : Bytes :=
  [Escrow.protocolVersion] ++ [Escrow.msgFillInstruction] ++ Bytes32.toBytes intentHash
    ++ encode 4 d.stellarEid.toNat ++ padRight 56 intent.destination
    ++ padRight 69 intent.destAsset

theorem instructionHead_length : (instructionHead d intentHash intent).length = 163 := by
  simp [instructionHead]

theorem encodeFillInstruction_head :
    Escrow.encodeFillInstruction d intentHash intent solver =
      instructionHead d intentHash intent ++ (encode 16 intent.minDestAmount
        ++ (encode 8 intent.deadline ++ (Escrow.addressWord solver ++ encode 8 0))) := by
  simp only [Escrow.encodeFillInstruction, instructionHead, List.append_assoc]

theorem fillInstruction_hash :
    field (Escrow.encodeFillInstruction d intentHash intent solver) 2 32 =
      Bytes32.toBytes intentHash := by
  have here := field_of_append ([Escrow.protocolVersion] ++ [Escrow.msgFillInstruction])
    (Bytes32.toBytes intentHash)
    (encode 4 d.stellarEid.toNat ++ (padRight 56 intent.destination
      ++ (padRight 69 intent.destAsset ++ (encode 16 intent.minDestAmount
        ++ (encode 8 intent.deadline ++ (Escrow.addressWord solver ++ encode 8 0))))))
    2 32 rfl (by simp)
  simpa only [Escrow.encodeFillInstruction, List.append_assoc] using here

theorem fillInstruction_minDestAmount :
    field (Escrow.encodeFillInstruction d intentHash intent solver) 163 16 =
      encode 16 intent.minDestAmount := by
  rw [encodeFillInstruction_head]
  exact field_of_append _ _ _ 163 16 (instructionHead_length d intentHash intent) (by simp)

theorem fillInstruction_deadline :
    field (Escrow.encodeFillInstruction d intentHash intent solver) 179 8 =
      encode 8 intent.deadline := by
  rw [encodeFillInstruction_head, ← List.append_assoc]
  exact field_of_append _ _ _ 179 8 (by simp [instructionHead_length]) (by simp)

theorem fillInstruction_solver :
    field (Escrow.encodeFillInstruction d intentHash intent solver) 187 32 =
      Escrow.addressWord solver := by
  rw [encodeFillInstruction_head, ← List.append_assoc, ← List.append_assoc]
  exact field_of_append _ _ _ 187 32 (by simp [instructionHead_length])
    (by simp [Escrow.addressWord])

theorem fillInstruction_window :
    field (Escrow.encodeFillInstruction d intentHash intent solver) 219 8 = encode 8 0 := by
  have here := field_of_append
    (instructionHead d intentHash intent ++ encode 16 intent.minDestAmount
      ++ encode 8 intent.deadline ++ Escrow.addressWord solver) (encode 8 0) [] 219 8
    (by simp [instructionHead_length, Escrow.addressWord]) (by simp)
  rw [encodeFillInstruction_head]
  simpa only [List.append_assoc, List.append_nil] using here

end FillInstruction

/-- What the settlement contract makes of a lock of `solver`. -/
structure Reads (intentHash : Bytes32) (intent : Escrow.Intent) (solver : Escrow.Address)
    (fi : Settlement.FillInstruction) : Prop where
  intentHash : fi.intentHash = intentHash
  minDestAmount : fi.minDestAmount.toInt = intent.minDestAmount
  deadline : fi.deadline = intent.deadline
  lockedSolver : fi.lockedSolver = some (word solver)
  reservationWindow : fi.reservationWindow = 0

/-- The fields of an accepted FillInstruction that decide who may fill it, how and until when. -/
structure Decodes (message : Bytes) (fi : Settlement.WireFillInstruction) : Prop where
  intentHash : fi.intentHash = Bytes32.ofBytes (field message 2 32)
  minDestAmount : fi.minDestAmount = BitVec.ofNat 128 (decode (field message 163 16))
  nonneg : 0 ≤ fi.minDestAmount.toInt
  deadline : fi.deadline = decode (field message 179 8)
  lockedSolver : ∀ solver, fi.lockedSolver = some solver →
    solver = Bytes32.ofBytes (field message 187 32)
  reservationWindow : fi.reservationWindow = decode (field message 219 8)

theorem decodes_of_ok {message : Bytes} {fi : Settlement.WireFillInstruction}
    (ran : Settlement.decodeFillInstruction message = .ok fi) : Decodes message fi := by
  simp only [Settlement.decodeFillInstruction, Settlement.readField, bind_ok, require_ok,
    exists_const, pure_ok] at ran
  obtain ⟨-, _, ⟨-, rfl⟩, _, ⟨-, rfl⟩, _, ⟨-, rfl⟩, recipient, -, _, ⟨-, rfl⟩, -, _, ⟨-, rfl⟩, nonneg,
    _, ⟨-, rfl⟩, _, ⟨-, rfl⟩, _, ⟨-, rfl⟩, rfl⟩ := ran
  refine ⟨rfl, rfl, nonneg, rfl, ?_, rfl⟩
  intro solver locked
  dsimp only at locked
  split at locked
  · cases locked
  · exact (Option.some.inj locked).symm

/-- A message of this type is a FillInstruction or malformed, and one without a locking
    solver is malformed too. -/
theorem parseMessage_ok {c : Settlement.Context} {rest : Bytes} {w : Settlement.World}
    {parsed : Settlement.LzMessage}
    (ran : Settlement.parseMessage c
      (Settlement.protocolVersion :: Settlement.msgFillInstruction :: rest) w = .ok parsed) :
    ∃ fi asset solver, Decodes (Settlement.protocolVersion :: Settlement.msgFillInstruction :: rest) fi ∧
      fi.lockedSolver = some solver ∧ parsed = .fillInstruction (fi.intoFillInstruction asset) := by
  simp only [Settlement.parseMessage, Settlement.decodeMessage, if_true, bind_ok, require_ok,
    exists_const, pure_ok] at ran
  obtain ⟨_, ⟨-, fi, decoded, rfl⟩, ran⟩ := ran
  simp only [if_true, bind_ok, require_ok, exists_const, pure_ok] at ran
  obtain ⟨locked, asset, -, rfl⟩ := ran
  obtain ⟨solver, locked⟩ := Option.isSome_iff_exists.mp locked
  exact ⟨fi, asset, solver, decodes_of_ok decoded, locked, rfl⟩

theorem I128.toInt_of_nonneg {x : Settlement.I128} (nonneg : 0 ≤ x.toInt) : x.toInt = x.toNat := by
  have small := x.isLt
  unfold BitVec.toInt at nonneg ⊢
  split
  · rfl
  · rename_i negative
    rw [if_neg negative] at nonneg
    omega

/-- A FillInstruction that the settlement contract takes at all, it takes as it was meant. -/
theorem parseMessage_fillInstruction {c : Settlement.Context} {d : Escrow.Deployment}
    {intentHash : Bytes32} {intent : Escrow.Intent} {solver : Escrow.Address}
    {w : Settlement.World} {parsed : Settlement.LzMessage}
    (minimum : intent.minDestAmount < uint128) (deadline : intent.deadline < uint64)
    (ran : Settlement.parseMessage c (Escrow.encodeFillInstruction d intentHash intent solver) w =
      .ok parsed) :
    ∃ fi, parsed = .fillInstruction fi ∧ Reads intentHash intent solver fi := by
  have layout : ∃ rest, Escrow.encodeFillInstruction d intentHash intent solver =
      Settlement.protocolVersion :: Settlement.msgFillInstruction :: rest := ⟨_, rfl⟩
  obtain ⟨rest, layout⟩ := layout
  rw [layout] at ran
  obtain ⟨fi, asset, locker, decodes, locked, rfl⟩ := parseMessage_ok ran
  rw [← layout] at decodes
  unfold uint128 at minimum
  unfold uint64 at deadline
  have hash : fi.intentHash = intentHash := by
    rw [decodes.intentHash, fillInstruction_hash, Bytes32.ofBytes_toBytes]
  have amount : fi.minDestAmount.toNat = intent.minDestAmount := by
    rw [decodes.minDestAmount, fillInstruction_minDestAmount, decode_encode, BitVec.toNat_ofNat]
    omega
  have expiry : fi.deadline = intent.deadline := by
    rw [decodes.deadline, fillInstruction_deadline, decode_encode]
    omega
  have exclusive : fi.lockedSolver = some (word solver) := by
    rw [locked, decodes.lockedSolver _ locked, fillInstruction_solver, word_ofBytes]
  have window : fi.reservationWindow = 0 := by
    rw [decodes.reservationWindow, fillInstruction_window, decode_encode, Nat.zero_mod]
  refine ⟨_, rfl, hash, ?_, expiry, exclusive, window⟩
  exact (I128.toInt_of_nonneg decodes.nonneg).trans (congrArg Int.ofNat amount)

end Perihelion.Bridge
