import Perihelion.Bridge.Codec
import Perihelion.Escrow.Machine
import Perihelion.Escrow.Steps

/-! # Round trips

Each message is read back as it was written, whatever the fields, and what a decoder
takes has the layout its encoder writes.
-/

namespace Perihelion.Bridge

open BigEndian Fallible

/-! ## FillInstruction -/

section FillInstruction

variable (d : Escrow.Deployment) (intentHash : Bytes32) (intent : Escrow.Intent)
  (solver : Escrow.Address)

theorem fillInstruction_srcEid :
    field (Escrow.encodeFillInstruction d intentHash intent solver) 34 4 =
      encode 4 d.stellarEid.toNat := by
  have here := field_of_append
    ([Escrow.protocolVersion] ++ [Escrow.msgFillInstruction] ++ Bytes32.toBytes intentHash)
    (encode 4 d.stellarEid.toNat)
    (padRight 56 intent.destination
      ++ (padRight 69 intent.destAsset ++ (encode 16 intent.minDestAmount
        ++ (encode 8 intent.deadline ++ (Escrow.addressWord solver ++ encode 8 0)))))
    34 4 (by simp) (by simp)
  simpa only [Escrow.encodeFillInstruction, List.append_assoc] using here

theorem fillInstruction_destination :
    field (Escrow.encodeFillInstruction d intentHash intent solver) 38 56 =
      padRight 56 intent.destination := by
  have here := field_of_append
    ([Escrow.protocolVersion] ++ [Escrow.msgFillInstruction] ++ Bytes32.toBytes intentHash
      ++ encode 4 d.stellarEid.toNat)
    (padRight 56 intent.destination)
    (padRight 69 intent.destAsset ++ (encode 16 intent.minDestAmount
      ++ (encode 8 intent.deadline ++ (Escrow.addressWord solver ++ encode 8 0))))
    38 56 (by simp) (by simp)
  simpa only [Escrow.encodeFillInstruction, List.append_assoc] using here

theorem fillInstruction_destAsset :
    field (Escrow.encodeFillInstruction d intentHash intent solver) 94 69 =
      padRight 69 intent.destAsset := by
  have here := field_of_append
    ([Escrow.protocolVersion] ++ [Escrow.msgFillInstruction] ++ Bytes32.toBytes intentHash
      ++ encode 4 d.stellarEid.toNat ++ padRight 56 intent.destination)
    (padRight 69 intent.destAsset)
    (encode 16 intent.minDestAmount
      ++ (encode 8 intent.deadline ++ (Escrow.addressWord solver ++ encode 8 0)))
    94 69 (by simp) (by simp)
  simpa only [Escrow.encodeFillInstruction, List.append_assoc] using here

end FillInstruction

/-- What the settlement contract is meant to read from a lock of `solver`. -/
def lockedInstruction (d : Escrow.Deployment) (intentHash : Bytes32) (intent : Escrow.Intent)
    (solver : Escrow.Address) (recipient : Settlement.Address) : Settlement.WireFillInstruction where
  intentHash := intentHash
  srcEid := d.stellarEid
  recipient := recipient
  destAsset := intent.destAsset
  minDestAmount := BitVec.ofNat 128 intent.minDestAmount
  deadline := intent.deadline
  preferredSolver := none
  lockedSolver := some (word solver)
  reservationWindow := 0

theorem readField_ok {n : Nat} {message : Bytes} {offset : Nat} {bytes : Bytes} :
    Settlement.readField n message offset = .ok bytes ↔
      offset + n ≤ message.length ∧ field message offset n = bytes := by
  simp only [Settlement.readField, bind_ok, require_ok, exists_const, pure_ok]

theorem minDestAmount_toInt {minimum : Nat} (positive : minimum ≤ (uint128 - 1) / 2) :
    (BitVec.ofNat 128 minimum).toInt = minimum := by
  unfold uint128 at positive
  have small : (BitVec.ofNat 128 minimum).toNat = minimum := by
    rw [BitVec.toNat_ofNat]
    omega
  rw [BitVec.toInt_eq_toNat_of_lt (by omega), small]

theorem decodeStrkeyAddress_padRight {text : Bytes} {recipient : Settlement.Address}
    (host : Settlement.Address.fromStringBytes text = some recipient) :
    Settlement.decodeStrkeyAddress (padRight 56 text) = .ok recipient := by
  have valid : Settlement.isValidStrkey text = true := by
    rw [← Settlement.Address.fromStringBytes_isSome, host]
    rfl
  obtain ⟨length, nonzero⟩ := Settlement.isValidStrkey_nonzero valid
  simp only [Settlement.decodeStrkeyAddress, Settlement.take_trimmedLen length.le nonzero, valid,
    host]
  rfl

/-- Whatever passes the escrow's checks and names a real recipient and asset arrives whole. -/
theorem decodeFillInstruction_locked {d : Escrow.Deployment} {intent : Escrow.Intent} {now : Nat}
    (checks : Escrow.StaticChecks intent now) {recipient : Settlement.Address}
    (host : Settlement.Address.fromStringBytes intent.destination = some recipient)
    (asset : (Settlement.DestAsset.parse intent.destAsset).isSome) (intentHash : Bytes32)
    {solver : Escrow.Address} (locked : solver ≠ 0) :
    Settlement.decodeFillInstruction (Escrow.encodeFillInstruction d intentHash intent solver) =
      .ok (lockedInstruction d intentHash intent solver recipient) := by
  have length := Escrow.encodeFillInstruction_length d intentHash intent solver
  have minimum := minDestAmount_toInt checks.minDestAmount
  have minDestAmount := checks.minDestAmount
  have deadline := checks.deadline
  unfold uint128 at minDestAmount
  unfold uint64 at deadline
  have readSolver : decode (Escrow.addressWord solver) ≠ 0 := by
    have small := solver.isLt
    intro zero
    simp only [Escrow.addressWord, decode_encode] at zero
    apply locked
    apply BitVec.eq_of_toNat_eq
    rw [show (0 : Escrow.Address).toNat = 0 from rfl]
    omega
  have readAmount : decode (encode 16 intent.minDestAmount) = intent.minDestAmount := by
    rw [decode_encode]
    omega
  have readDeadline : decode (encode 8 intent.deadline) = intent.deadline := by
    rw [decode_encode]
    omega
  have readEid : UInt32.ofNat (decode (encode 4 d.stellarEid.toNat)) = d.stellarEid := by
    have small := d.stellarEid.toNat_lt
    rw [decode_encode, Nat.mod_eq_of_lt (by omega), UInt32.ofNat_toNat]
  have text : (padRight 69 intent.destAsset).take
      (Settlement.trimmedLen (padRight 69 intent.destAsset)) = intent.destAsset :=
    Settlement.take_trimmedLen checks.destAsset.2 (Settlement.DestAsset.parse_nonzero asset)
  simp only [Settlement.decodeFillInstruction, bind_ok, require_ok, exists_const, pure_ok,
    readField_ok, length, Settlement.fillInstructionLength, Escrow.fillInstructionLength,
    Settlement.maxDestAssetLen, and_assoc, exists_and_left, exists_eq_left',
    fillInstruction_hash, fillInstruction_srcEid, fillInstruction_destination,
    fillInstruction_destAsset, fillInstruction_minDestAmount, fillInstruction_deadline,
    fillInstruction_solver, fillInstruction_window, decodeStrkeyAddress_padRight host, text,
    readAmount, readDeadline, readEid, readSolver, minimum]
  have read : decode (encode 8 0) = 0 := rfl
  refine ⟨trivial, by decide, by decide, by decide, recipient, rfl, by decide, asset, by decide,
    Int.natCast_nonneg _, by decide, by decide, by decide, ?_⟩
  simp only [lockedInstruction, Bytes32.ofBytes_toBytes, word_ofBytes, read, if_false]

theorem decodeMessage_fillInstruction {d : Escrow.Deployment} {intentHash : Bytes32}
    {intent : Escrow.Intent} {solver : Escrow.Address} {fi}
    (decoded : Settlement.decodeFillInstruction
      (Escrow.encodeFillInstruction d intentHash intent solver) = .ok fi) :
    Settlement.decodeMessage (Escrow.encodeFillInstruction d intentHash intent solver) =
      .ok (Settlement.msgFillInstruction, fi, none) := by
  obtain ⟨rest, layout⟩ : ∃ rest, Escrow.encodeFillInstruction d intentHash intent solver =
      Settlement.protocolVersion :: Settlement.msgFillInstruction :: rest := ⟨_, rfl⟩
  rw [layout] at decoded ⊢
  simp only [Settlement.decodeMessage, decoded]
  rfl

/-- The fixed layout of a FillInstruction. -/
structure FillInstructionLayout (message : Bytes) : Prop where
  length : message.length = 227
  version : field message 0 1 = [1]
  msgType : field message 1 1 = [1]
  recipient : Settlement.isValidStrkey
    ((field message 38 56).take (Settlement.trimmedLen (field message 38 56))) = true
  destAsset : (Settlement.DestAsset.parse
    ((field message 94 69).take (Settlement.trimmedLen (field message 94 69)))).isSome = true
  minDestAmount : decode (field message 163 16) < 2 ^ 127

theorem decode_lt_of_toInt_nonneg {bytes : Bytes} (width : bytes.length = 16)
    (nonneg : 0 ≤ (BitVec.ofNat 128 (decode bytes)).toInt) : decode bytes < 2 ^ 127 := by
  have small := decode_lt bytes
  rw [width] at small
  have value := I128.toInt_of_nonneg nonneg
  rw [BitVec.toNat_ofNat, Nat.mod_eq_of_lt (by omega)] at value
  have below := @BitVec.toInt_lt 128 (BitVec.ofNat 128 (decode bytes))
  omega

theorem decodeMessage_fill_ok {message : Bytes} {fi ci}
    (ran : Settlement.decodeMessage message = .ok (Settlement.msgFillInstruction, fi, ci)) :
    (∃ rest, message = Settlement.protocolVersion :: Settlement.msgFillInstruction :: rest) ∧
      Settlement.decodeFillInstruction message = .ok fi := by
  cases message with
  | nil => cases ran
  | cons version tail =>
      cases tail with
      | nil => cases ran
      | cons msgType rest =>
          simp only [Settlement.decodeMessage, bind_ok, require_ok, exists_const] at ran
          obtain ⟨rfl, ran⟩ := ran
          split at ran
          · rename_i fill
            simp only [bind_ok, pure_ok, Prod.mk.injEq] at ran
            obtain ⟨fi', decoded, -, rfl, -⟩ := ran
            rw [fill] at decoded ⊢
            exact ⟨⟨rest, rfl⟩, decoded⟩
          · rename_i fill
            split at ran
            · simp only [bind_ok, pure_ok, Prod.mk.injEq] at ran
              obtain ⟨_, -, same, -⟩ := ran
              exact absurd same fill
            · cases ran

/-- Nothing else is taken for a FillInstruction. -/
theorem fillInstructionLayout_of_ok {message : Bytes} {fi ci}
    (ran : Settlement.decodeMessage message = .ok (Settlement.msgFillInstruction, fi, ci)) :
    FillInstructionLayout message := by
  obtain ⟨⟨rest, layout⟩, decoded⟩ := decodeMessage_fill_ok ran
  simp only [Settlement.decodeFillInstruction, bind_ok, require_ok, exists_const, pure_ok,
    readField_ok] at decoded
  obtain ⟨length, _, ⟨-, rfl⟩, _, ⟨-, rfl⟩, _, ⟨-, rfl⟩, recipient, addressed, _, ⟨-, rfl⟩, asset, _,
    ⟨-, rfl⟩, nonneg, -⟩ := decoded
  simp only [Settlement.decodeStrkeyAddress, bind_ok, require_ok, exists_const] at addressed
  have sized := length
  unfold Settlement.fillInstructionLength at sized
  constructor
  case length => exact length
  case version =>
    rw [layout]
    rfl
  case msgType =>
    rw [layout]
    rfl
  case recipient => exact addressed.1
  case destAsset => exact asset
  case minDestAmount => exact decode_lt_of_toInt_nonneg (field_length (by omega)) nonneg

/-- For every intent that the escrow accepts, with a real recipient and asset, the settlement
    contract reads back what was signed; and it reads nothing that lacks the layout. -/
theorem decodeMessage_encodeFillInstruction {c : Escrow.Context} {intent : Escrow.Intent}
    {signature : Bytes} {w : Escrow.World} {signed : Bytes32}
    (valid : Escrow.validateIntent c intent signature w = .ok signed)
    (destination : Settlement.isValidStrkey intent.destination = true)
    (asset : (Settlement.DestAsset.parse intent.destAsset).isSome) (intentHash : Bytes32)
    {solver : Escrow.Address} (locked : solver ≠ 0) :
    (∃ recipient fi, Settlement.Address.fromStringBytes intent.destination = some recipient ∧
      Settlement.decodeMessage
          (Escrow.encodeFillInstruction c.toDeployment intentHash intent solver) =
        .ok (Settlement.msgFillInstruction, fi, none) ∧
      fi.intentHash = intentHash ∧ fi.recipient = recipient ∧ fi.destAsset = intent.destAsset ∧
      fi.minDestAmount.toInt = intent.minDestAmount ∧ fi.deadline = intent.deadline ∧
      fi.lockedSolver = some (word solver) ∧ fi.reservationWindow = 0) ∧
    ∀ message fi ci,
      Settlement.decodeMessage message = .ok (Settlement.msgFillInstruction, fi, ci) →
        FillInstructionLayout message := by
  have checks := (Escrow.validateIntent_iff.mp valid).1
  have host : (Settlement.Address.fromStringBytes intent.destination).isSome := by
    rw [Settlement.Address.fromStringBytes_isSome]
    exact destination
  obtain ⟨recipient, host⟩ := Option.isSome_iff_exists.mp host
  have decoded := @decodeFillInstruction_locked c.toDeployment intent _ checks recipient host asset
    intentHash solver locked
  refine ⟨⟨recipient, _, host, decodeMessage_fillInstruction decoded, rfl, rfl, rfl, ?_, rfl, rfl,
    rfl⟩, fun message fi ci ran => fillInstructionLayout_of_ok ran⟩
  exact minDestAmount_toInt checks.minDestAmount

theorem decodeMessage_encodeFillInstruction_sample :
    ∃ recipient fi,
      Settlement.Address.fromStringBytes Escrow.Sample.intent.destination = some recipient ∧
      Settlement.decodeMessage (Escrow.encodeFillInstruction Escrow.Sample.deployment
        Escrow.Sample.intentHash Escrow.Sample.intent Escrow.Sample.solver) =
          .ok (Settlement.msgFillInstruction, fi, none) ∧
      fi.recipient = recipient ∧ fi.minDestAmount.toInt = 90 := by
  obtain ⟨⟨recipient, fi, host, decoded, -, same, -, minimum, -⟩, -⟩ :=
    @decodeMessage_encodeFillInstruction (Escrow.Sample.lockTx.context Escrow.Sample.deployment)
      Escrow.Sample.intent [] (Escrow.Sample.ready.enter Escrow.Sample.lockTx)
      Escrow.Sample.intentHash (by decide +kernel) (by decide +kernel) (by decide +kernel)
      Escrow.Sample.intentHash Escrow.Sample.solver (by decide)
  exact ⟨recipient, fi, host, decoded, same, minimum⟩

/-! ## FillConfirmed and CancelIntent -/

/-- The first 12 bytes of a word are zero exactly when an address fits. -/
theorem toNat_lt_of_zero_bytes {x : Bytes32}
    (zeros : (Bytes32.toBytes x).take 12 = List.replicate 12 0) : x.toNat < 2 ^ 160 := by
  have whole : decode (Bytes32.toBytes x) = x.toNat := by
    have small := x.isLt
    rw [Bytes32.toBytes, decode_encode]
    omega
  have low := decode_lt ((Bytes32.toBytes x).drop 12)
  rw [← List.take_append_drop 12 (Bytes32.toBytes x), zeros, decode_append] at whole
  have high : decode (List.replicate 12 0) = 0 := by decide
  rw [high, Nat.zero_mul, Nat.zero_add] at whole
  rw [List.length_drop, Bytes32.toBytes_length] at low
  omega

/-- A word with room for an address only is the word of that address. -/
theorem word_of_lt {x : Bytes32} (small : x.toNat < 2 ^ 160) : word (x.setWidth 160) = x := by
  apply BitVec.eq_of_toNat_eq
  rw [word_toNat, BitVec.toNat_setWidth, Nat.mod_eq_of_lt small]

/-- What either cancel decoder takes, and reads from it. -/
def ReadsCancel (message : Bytes) (intentHash : Bytes32) (reason : Nat) : Prop :=
  message.length = 35 ∧ decode (field message 34 1) ≤ 2 ∧
    intentHash = Bytes32.ofBytes (field message 2 32) ∧ reason = decode (field message 34 1)

theorem escrow_decodeCancelIntent_ok {message : Bytes} {intentHash : Bytes32} {reason : Nat} :
    Escrow.decodeCancelIntent message = .ok ⟨intentHash, reason⟩ ↔
      ReadsCancel message intentHash reason := by
  simp only [Escrow.decodeCancelIntent, bind_ok, require_ok, exists_const, pure_ok,
    Escrow.CancelIntent.mk.injEq, ReadsCancel]
  unfold Escrow.cancelIntentLength Escrow.cancelReasonExpired Escrow.cancelReasonAdmin
    Escrow.cancelReasonInvalid
  constructor
  · intro given
    obtain ⟨length, known, rfl, rfl⟩ := given
    exact ⟨length, by omega, rfl, rfl⟩
  · intro given
    obtain ⟨length, known, rfl, rfl⟩ := given
    exact ⟨length, by omega, rfl, rfl⟩

/-- The one byte of the reason is compared as a byte here and as a number there. -/
theorem reason_byte {bytes : Bytes} (single : bytes.length = 1) :
    decode bytes ≤ 2 ↔ bytes = [Settlement.cancelReasonExpired] ∨
      bytes = [Settlement.cancelReasonAdmin] ∨ bytes = [Settlement.cancelReasonInvalid] := by
  obtain ⟨b, rfl⟩ := List.length_eq_one_iff.mp single
  have value : decode [b] = b.toNat := by simp [decode]
  rw [value]
  constructor
  · intro small
    have cases : b.toNat = 0 ∨ b.toNat = 1 ∨ b.toNat = 2 := by omega
    rcases cases with zero | one | two
    · exact Or.inl (congrArg (fun b => [b]) (UInt8.toNat_inj.mp zero))
    · exact Or.inr (Or.inl (congrArg (fun b => [b]) (UInt8.toNat_inj.mp one)))
    · exact Or.inr (Or.inr (congrArg (fun b => [b]) (UInt8.toNat_inj.mp two)))
  · intro known
    rcases known with same | same | same <;> cases same <;> decide

theorem settlement_decodeCancelIntent_ok {message : Bytes} {intentHash : Bytes32} {reason : Nat} :
    Settlement.decodeCancelIntent message = .ok ⟨intentHash, reason⟩ ↔
      ReadsCancel message intentHash reason := by
  simp only [Settlement.decodeCancelIntent, bind_ok, require_ok, exists_const, pure_ok, readField_ok,
    Settlement.CancelInstruction.mk.injEq, ReadsCancel]
  unfold Settlement.cancelIntentLength
  constructor
  · intro given
    obtain ⟨length, _, ⟨-, rfl⟩, _, ⟨-, rfl⟩, known, rfl, rfl⟩ := given
    exact ⟨length, (reason_byte (field_length (by omega))).mpr known, rfl, rfl⟩
  · intro given
    obtain ⟨length, known, rfl, rfl⟩ := given
    exact ⟨length, _, ⟨by omega, rfl⟩, _, ⟨by omega, rfl⟩,
      (reason_byte (field_length (by omega))).mp known, rfl, rfl⟩

theorem cancelReason_le {reason : UInt8}
    (known : reason ∈ [Settlement.cancelReasonExpired, Settlement.cancelReasonAdmin,
      Settlement.cancelReasonInvalid]) : reason.toNat ≤ 2 := by
  simp only [List.mem_cons, List.not_mem_nil, or_false] at known
  rcases known with rfl | rfl | rfl
  · decide
  · decide
  · decide

theorem readsCancel_encode (intentHash : Bytes32) {reason : UInt8} (known : reason.toNat ≤ 2) :
    ReadsCancel (Settlement.encodeCancelIntent intentHash reason) intentHash reason.toNat := by
  have hash := Settlement.messageIntent_encodeCancelIntent intentHash reason
  have last := field_of_append
    ([Settlement.protocolVersion] ++ [Settlement.msgCancelIntent] ++ Bytes32.toBytes intentHash)
    [reason] [] 34 1 (by simp) rfl
  have value : decode [reason] = reason.toNat := by simp [decode]
  simp only [List.append_nil] at last
  refine ⟨Settlement.encodeCancelIntent_length intentHash reason, ?_, hash.symm, ?_⟩
  · rw [Settlement.encodeCancelIntent, last, value]
    exact known
  · rw [Settlement.encodeCancelIntent, last, value]

/-- A message is its two tag bytes and its fields. -/
theorem tags_append_field {version msgType : UInt8} (rest : Bytes) (n : Nat) :
    version :: msgType :: rest = [version] ++ [msgType] ++ field (version :: msgType :: rest) 2 n
      ++ (version :: msgType :: rest).drop (2 + n) := by
  have split := drop_eq_field (version :: msgType :: rest) 2 n
  rw [List.append_assoc, ← split]
  rfl

theorem encode_of_readsCancel {rest : Bytes} {intentHash : Bytes32} {reason : Nat}
    (reads : ReadsCancel (Settlement.protocolVersion :: Settlement.msgCancelIntent :: rest)
      intentHash reason) :
    Settlement.protocolVersion :: Settlement.msgCancelIntent :: rest =
      Settlement.encodeCancelIntent intentHash (UInt8.ofNat reason) := by
  obtain ⟨length, known, rfl, rfl⟩ := reads
  have single : (field (Settlement.protocolVersion :: Settlement.msgCancelIntent :: rest)
      34 1).length = 1 := field_length (by omega)
  obtain ⟨b, last⟩ := List.length_eq_one_iff.mp single
  have value : decode [b] = b.toNat := by simp [decode]
  have done : (Settlement.protocolVersion :: Settlement.msgCancelIntent :: rest).drop (34 + 1) = [] :=
    List.drop_eq_nil_of_le (by omega)
  have split := @tags_append_field Settlement.protocolVersion Settlement.msgCancelIntent rest 32
  rw [drop_eq_field _ (2 + 32) 1, done, last, List.append_nil] at split
  rw [Settlement.encodeCancelIntent, Bytes32.toBytes_ofBytes (field_length (by omega)), last, value,
    UInt8.ofNat_toNat]
  exact split

theorem decodeFillConfirmed_ok {message : Bytes} {m : Escrow.FillConfirmed} :
    Escrow.decodeFillConfirmed message = .ok m ↔
      message.length = 90 ∧ decode (field message 34 32) < 2 ^ 160 ∧
        m = ⟨Bytes32.ofBytes (field message 2 32), BitVec.ofNat 160 (decode (field message 34 32)),
          decode (field message 66 16), decode (field message 82 8)⟩ := by
  simp only [Escrow.decodeFillConfirmed, bind_ok, require_ok, exists_const, pure_ok,
    Nat.div_eq_zero_iff_lt (show 0 < 2 ^ 160 by decide), eq_comm (b := m)]
  rfl

theorem decodeFillConfirmed_encode {intentHash solverEvm : Bytes32} {fillAmount : Settlement.I128}
    {fillLedger : Nat} (address : (Bytes32.toBytes solverEvm).take 12 = List.replicate 12 0)
    (nonneg : 0 ≤ fillAmount.toInt) (ledger : fillLedger < 2 ^ 32) :
    ∃ m, Escrow.decodeFillConfirmed
        (Settlement.encodeFillConfirmed intentHash solverEvm fillAmount fillLedger) = .ok m ∧
      m.intentHash = intentHash ∧ word m.solverEvm = solverEvm ∧
      (m.fillAmount : Int) = fillAmount.toInt ∧ m.fillLedger = fillLedger := by
  have small := toNat_lt_of_zero_bytes address
  have same := word_of_lt small
  have decoded := decode_fillConfirmed intentHash (solverEvm.setWidth 160) fillAmount fillLedger
  rw [same] at decoded
  refine ⟨_, decoded, rfl, same, (I128.toInt_of_nonneg nonneg).symm, ?_⟩
  exact Nat.mod_eq_of_lt (by omega)

theorem encode_of_decodeFillConfirmed {rest : Bytes} {m : Escrow.FillConfirmed}
    (decoded : Escrow.decodeFillConfirmed
      (Settlement.protocolVersion :: Settlement.msgFillConfirmed :: rest) = .ok m) :
    Settlement.protocolVersion :: Settlement.msgFillConfirmed :: rest =
      Settlement.encodeFillConfirmed m.intentHash (word m.solverEvm) (BitVec.ofNat 128 m.fillAmount)
        m.fillLedger := by
  obtain ⟨length, address, rfl⟩ := decodeFillConfirmed_ok.mp decoded
  have split := @tags_append_field Settlement.protocolVersion Settlement.msgFillConfirmed rest 32
  generalize Settlement.protocolVersion :: Settlement.msgFillConfirmed :: rest = message at *
  have hash : (field message 2 32).length = 32 := field_length (by omega)
  have solver : (field message 34 32).length = 32 := field_length (by omega)
  have amount : (field message 66 16).length = 16 := field_length (by omega)
  have ledger : (field message 82 8).length = 8 := field_length (by omega)
  have done : message.drop (82 + 8) = [] := List.drop_eq_nil_of_le (by omega)
  rw [drop_eq_field _ (2 + 32) 32, drop_eq_field _ (34 + 32) 16, drop_eq_field _ (66 + 16) 8, done,
    List.append_nil] at split
  have solverWord : word (BitVec.ofNat 160 (decode (field message 34 32))) =
      Bytes32.ofBytes (field message 34 32) := by
    apply BitVec.eq_of_toNat_eq
    rw [word_toNat, Bytes32.ofBytes, BitVec.toNat_ofNat, BitVec.toNat_ofNat]
    omega
  have amountBytes : encode 16 (BitVec.ofNat 128 (decode (field message 66 16))).toNat =
      field message 66 16 := by
    have small := decode_lt (field message 66 16)
    have whole := encode_decode (field message 66 16)
    rw [amount] at small whole
    rw [BitVec.toNat_ofNat, Nat.mod_eq_of_lt (by omega), whole]
  have ledgerBytes : encode 8 (decode (field message 82 8)) = field message 82 8 := by
    have whole := encode_decode (field message 82 8)
    rwa [ledger] at whole
  rw [Settlement.encodeFillConfirmed, solverWord, Bytes32.toBytes_ofBytes hash,
    Bytes32.toBytes_ofBytes solver, amountBytes, ledgerBytes]
  simpa only [List.append_assoc] using split

/-- The two replies of the settlement contract are read as they were written, by the escrow (also
    word by word, whatever follows in the calldata) and, for a cancel, by the settlement contract
    itself; and whatever the decoders take under the matching tags is the encoding of what they
    read. -/
theorem replies_roundTrip :
    (∀ intentHash solverEvm fillAmount fillLedger,
      (Bytes32.toBytes solverEvm).take 12 = List.replicate 12 0 → 0 ≤ fillAmount.toInt →
      fillLedger < 2 ^ 32 →
      ∃ m, Escrow.decodeFillConfirmed
          (Settlement.encodeFillConfirmed intentHash solverEvm fillAmount fillLedger) = .ok m ∧
        (∀ tail, Escrow.decodeFillConfirmedWords
          (Settlement.encodeFillConfirmed intentHash solverEvm fillAmount fillLedger) tail = .ok m) ∧
        m.intentHash = intentHash ∧ word m.solverEvm = solverEvm ∧
        (m.fillAmount : Int) = fillAmount.toInt ∧ m.fillLedger = fillLedger) ∧
    (∀ intentHash, ∀ reason ∈ [Settlement.cancelReasonExpired, Settlement.cancelReasonAdmin,
        Settlement.cancelReasonInvalid],
      Escrow.decodeCancelIntent (Settlement.encodeCancelIntent intentHash reason) =
          .ok ⟨intentHash, reason.toNat⟩ ∧
        Settlement.decodeCancelIntent (Settlement.encodeCancelIntent intentHash reason) =
          .ok ⟨intentHash, reason.toNat⟩) ∧
    (∀ rest m, Escrow.decodeFillConfirmed
        (Settlement.protocolVersion :: Settlement.msgFillConfirmed :: rest) = .ok m →
      m.fillAmount < 2 ^ 127 → m.fillLedger < 2 ^ 32 →
      ∃ fillAmount : Settlement.I128, fillAmount.toInt = m.fillAmount ∧
        Settlement.protocolVersion :: Settlement.msgFillConfirmed :: rest =
          Settlement.encodeFillConfirmed m.intentHash (word m.solverEvm) fillAmount m.fillLedger) ∧
    (∀ rest intentHash reason, Escrow.decodeCancelIntent
        (Settlement.protocolVersion :: Settlement.msgCancelIntent :: rest) =
          .ok ⟨intentHash, reason⟩ →
      Settlement.protocolVersion :: Settlement.msgCancelIntent :: rest =
        Settlement.encodeCancelIntent intentHash (UInt8.ofNat reason)) ∧
    (∀ rest intentHash reason, Settlement.decodeCancelIntent
        (Settlement.protocolVersion :: Settlement.msgCancelIntent :: rest) =
          .ok ⟨intentHash, reason⟩ →
      Settlement.protocolVersion :: Settlement.msgCancelIntent :: rest =
        Settlement.encodeCancelIntent intentHash (UInt8.ofNat reason)) ∧
    ∀ message intentHash reason,
      Escrow.decodeCancelIntent message = .ok ⟨intentHash, reason⟩ ↔
        Settlement.decodeCancelIntent message = .ok ⟨intentHash, reason⟩ := by
  refine ⟨?_, ?_, ?_, ?_, ?_, ?_⟩
  · intro intentHash solverEvm fillAmount fillLedger address nonneg ledger
    obtain ⟨m, decoded, values⟩ := @decodeFillConfirmed_encode intentHash solverEvm fillAmount
      fillLedger address nonneg ledger
    refine ⟨m, decoded, fun tail => ?_, values⟩
    rw [Escrow.decodeFillConfirmedWords_eq, decoded]
  · intro intentHash reason known
    have reads := readsCancel_encode intentHash (cancelReason_le known)
    exact ⟨escrow_decodeCancelIntent_ok.mpr reads, settlement_decodeCancelIntent_ok.mpr reads⟩
  · intro rest m decoded amount _
    have toNat : (BitVec.ofNat 128 m.fillAmount).toNat = m.fillAmount := by
      rw [BitVec.toNat_ofNat]
      omega
    refine ⟨BitVec.ofNat 128 m.fillAmount, ?_, encode_of_decodeFillConfirmed decoded⟩
    rw [BitVec.toInt_eq_toNat_of_lt (by omega), toNat]
  · intro rest intentHash reason decoded
    exact encode_of_readsCancel (escrow_decodeCancelIntent_ok.mp decoded)
  · intro rest intentHash reason decoded
    exact encode_of_readsCancel (settlement_decodeCancelIntent_ok.mp decoded)
  · intro message intentHash reason
    rw [escrow_decodeCancelIntent_ok, settlement_decodeCancelIntent_ok]

/-- The fill of 95 units in ledger 1234, and the cancel of an expired intent. -/
theorem replies_roundTrip_sample :
    (∃ m, Escrow.decodeFillConfirmed
        (Settlement.encodeFillConfirmed 7 (word Escrow.Sample.solver) 95 1234) = .ok m ∧
      m.fillAmount = 95) ∧
    Settlement.decodeCancelIntent (Settlement.encodeCancelIntent 7 Settlement.cancelReasonExpired) =
      .ok ⟨7, 0⟩ := by
  obtain ⟨fills, cancels, -⟩ := replies_roundTrip
  obtain ⟨m, decoded, -, -, -, amount, -⟩ := fills 7 (word Escrow.Sample.solver) 95 1234
    (by decide) (by decide) (by decide)
  refine ⟨⟨m, decoded, ?_⟩, (cancels 7 _ (by decide)).2⟩
  have given : (m.fillAmount : Int) = 95 := amount
  omega

end Perihelion.Bridge
