import Perihelion.Lib.TypedData
import Perihelion.Escrow.Lifecycle

/-! # What the hash of an intent binds

The hash is that of typed structured data, under a domain of the chain and the contract.  Both
chains store an intent under its hash alone, so two locks of one hash would be one intent to the
settlement contract: they are the same intent on the same escrow, or keccak has collided on two byte
strings that can be written down.
-/

namespace Perihelion.Escrow

open BigEndian Fallible Transition TypedData

def intentType : StructType where
  name := "Intent"
  members := [⟨"user", .address⟩, ⟨"destination", .string⟩, ⟨"sourceChainId", .uint256⟩,
    ⟨"sourceAsset", .address⟩, ⟨"sourceAmount", .uint256⟩, ⟨"destAsset", .string⟩,
    ⟨"minDestAmount", .uint256⟩, ⟨"deadline", .uint256⟩, ⟨"nonce", .uint256⟩,
    ⟨"preferredSolver", .address⟩]

/-- The intent as the ABI encodes it. -/
def Intent.typed (intent : Intent) : Struct intentType where
  values := [.address intent.user, .string intent.destination,
    .uint256 (BitVec.ofNat 256 intent.sourceChainId), .address intent.sourceAsset,
    .uint256 (BitVec.ofNat 256 intent.sourceAmount), .string intent.destAsset,
    .uint256 (BitVec.ofNat 256 intent.minDestAmount), .uint256 (BitVec.ofNat 256 intent.deadline),
    .uint256 (BitVec.ofNat 256 intent.nonce), .address intent.preferredSolver]
  typed := rfl

def domain (chainid : Nat) (verifyingContract : Address) : Struct domainType where
  values := [.string (Perihelion.ascii "Perihelion"), .string (Perihelion.ascii "1"),
    .uint256 (BitVec.ofNat 256 chainid), .address verifyingContract]
  typed := rfl

theorem word_ofNat (n : Nat) : word (BitVec.ofNat 256 n) = encode 32 n := by
  have width : (256 : Nat) ^ 32 = 2 ^ 256 := by norm_num
  rw [word, BitVec.toNat_ofNat, ← width, encode_mod]

theorem word_address (account : Address) : word (account.setWidth 256) = addressWord account := by
  rw [word, BitVec.toNat_setWidth, Nat.mod_eq_of_lt (account.isLt.trans (by decide)), addressWord]

theorem ascii_append (s t : String) :
    Perihelion.ascii (s ++ t) = Perihelion.ascii s ++ Perihelion.ascii t := by
  simp [Perihelion.ascii]

set_option maxRecDepth 2000 in
theorem intentType_text : encodeType intentType =
    Perihelion.ascii ("Intent(address user,string destination,uint256 sourceChainId," ++
      "address sourceAsset,uint256 sourceAmount,string destAsset,uint256 minDestAmount," ++
      "uint256 deadline,uint256 nonce,address preferredSolver)") := by
  rw [ascii_append, ascii_append]
  simp [encodeType, intentType, Member.text, Kind.text, TypedData.ascii, Perihelion.ascii]

theorem domainType_text : encodeType domainType = Perihelion.ascii
    "EIP712Domain(string name,string version,uint256 chainId,address verifyingContract)" := by
  simp [encodeType, domainType, Member.text, Kind.text, TypedData.ascii, Perihelion.ascii]

theorem domain_separator (d : Deployment) :
    hashStruct d.keccak256 (domain d.chainid d.this) = domainSeparator d := by
  simp only [hashStruct, encodeData, typeHash, domainType_text, domain, List.flatMap_cons,
    List.flatMap_nil, Value.word, word_ofNat, word_address, List.append_nil]
  simp only [word, Bytes32.toBytes, domainSeparator, domainTypehash, List.append_assoc]

theorem hashIntent_typed (d : Deployment) (intent : Intent) :
    hashIntent d intent = hashTypedData d.keccak256 (domain d.chainid d.this) intent.typed := by
  simp only [hashTypedData, envelope, domain_separator]
  simp only [hashStruct, encodeData, typeHash, intentType_text, Intent.typed, List.flatMap_cons,
    List.flatMap_nil, Value.word, word_ofNat, word_address, List.append_nil]
  simp only [word, Bytes32.toBytes, hashIntent, intentTypehash, List.append_assoc, List.cons_append,
    List.nil_append]

/-! ## Locks of one hash -/

/-- The intent that was locked under `h`, on this escrow and for its chain. -/
structure Opened (d : Deployment) (w : World) (h : Bytes32) (intent : Intent) : Prop where
  hash : hashIntent d intent = h
  chain : intent.sourceChainId = d.chainid
  owned : intent.user ≠ 0
  user : (w.locks h).user = intent.user
  asset : (w.locks h).asset = intent.sourceAsset
  minDestAmount : (w.locks h).minDestAmount = intent.minDestAmount
  deadline : (w.locks h).deadline = intent.deadline

theorem Opened.follows {d : Deployment} {w w' : World} {h : Bytes32} {intent : Intent}
    (opened : Opened d w h intent) (follows : Follows h w.funds w'.funds) :
    Opened d w' h intent := by
  have recorded : (w.funds.locks h).user ≠ 0 := by
    rw [show (w.funds.locks h).user = intent.user from opened.user]
    exact opened.owned
  have same : SameTerms (w.locks h) (w'.locks h) := follows.terms recorded
  exact ⟨opened.hash, opened.chain, opened.owned, same.user.trans opened.user,
    same.asset.trans opened.asset, same.minDestAmount.trans opened.minDestAmount,
    same.deadline.trans opened.deadline⟩

/-- Of all steps only a lock call records a lock. -/
theorem Funds.Step.recorded {f f' : Funds} {move} (step : Funds.Step f move f') {h : Bytes32}
    (vacant : (f.locks h).user = 0) (recorded : (f'.locks h).user ≠ 0) :
    ∃ lock, move = .locked h lock ∧ f'.locks h = lock := by
  have marked (key : Bytes32) (mark : Lock → Lock) (kept : ∀ l, (mark l).user = l.user) :
      ((f.discharge key mark).locks h).user = 0 := by
    by_cases here : h = key
    · subst here
      simpa [Funds.discharge, kept] using vacant
    · simpa [Funds.discharge, here] using vacant
  cases step with
  | same | arrived token amount | skimmed token receiver amount debit =>
      exact absurd vacant recorded
  | locked key lock =>
      by_cases here : h = key
      · subst here
        exact ⟨lock, rfl, by simp [Funds.record]⟩
      · exact absurd vacant (by simpa [Funds.record, Funds.arrive, here] using recorded)
  | released m timestamp debit =>
      exact absurd (marked _ Lock.release fun l => rfl) recorded
  | refunded key debit => exact absurd (marked _ Lock.refund fun l => rfl) recorded

theorem exec_opened {d : Deployment} {tx : Tx} {w w' : World} (ran : exec d tx w = .ok w')
    {h : Bytes32} (vacant : (w.locks h).user = 0) (recorded : (w'.locks h).user ≠ 0) :
    ∃ intent, Opened d w' h intent := by
  obtain ⟨move, step, caused⟩ := exec_move ran
  obtain ⟨lock, rfl, written⟩ := step.recorded vacant recorded
  obtain ⟨intent, signature, call, hash⟩ := caused
  have ran := (exec_ok.mp ran).2
  rw [call] at ran
  obtain ⟨-, intentHash, received, valid, -, -, funds, -, -⟩ := lock_ok ran
  obtain ⟨rfl, -, owned, -, deadline, minimum⟩ := validateIntent_ok valid
  have chain := (validateIntent_iff.mp valid).2.1
  have locks : w'.locks h = newLock (tx.context d) intent received := by
    have read := congrFun (congrArg Funds.locks funds) h
    rw [← hash]
    simpa [World.funds, Funds.record, Tx.context, ← hash] using read
  refine ⟨intent, hash, chain, owned, ?_, ?_, ?_, ?_⟩
  · rw [locks]
    rfl
  · rw [locks]
    rfl
  · rw [locks]
    exact Nat.mod_eq_of_lt minimum
  · rw [locks]
    exact Nat.mod_eq_of_lt deadline

theorem opened_of_reachable {d : Deployment} {w : World} (reach : (system d).Reachable w)
    {h : Bytes32} (recorded : (w.locks h).user ≠ 0) : ∃ intent, Opened d w h intent := by
  refine reach.invariant
    (P := fun w => (w.locks h).user ≠ 0 → ∃ intent, Opened d w h intent) ?_ ?_ recorded
  · intro w given recorded
    obtain ⟨creation, made⟩ := given
    have fresh : (w.funds.locks h).user = 0 := by
      rw [(construct_ok made).1]
      rfl
    exact absurd fresh recorded
  · intro w input w' reached holds stepped recorded
    by_cases vacant : (w.locks h).user = 0
    · cases input with
      | tx tx => exact exec_opened (next_tx.mp stepped).2 vacant recorded
      | tokenArrives token amount | nativeArrives amount =>
          cases stepped
          exact absurd vacant recorded
    · obtain ⟨intent, opened⟩ := holds vacant
      exact ⟨intent, opened.follows (follows_of_later reached (System.Later.of_step stepped) h)⟩

/-- The byte strings that are hashed for an intent. -/
def hashedFor (d : Deployment) (intent : Intent) : List Bytes :=
  hashed d.keccak256 (domain d.chainid d.this) intent.typed

/-- No chain identifier is longer than a word. -/
theorem locks_bind {d d' : Deployment} (alike : d'.keccak256 = d.keccak256)
    (chain : d.chainid < uint256) (chain' : d'.chainid < uint256) {w w' : World}
    (reach : (system d).Reachable w) (reach' : (system d').Reachable w') {h : Bytes32}
    (recorded : (w.locks h).user ≠ 0) (recorded' : (w'.locks h).user ≠ 0) :
    ∃ intent intent', Opened d w h intent ∧ Opened d' w' h intent' ∧
      ((intent.typed = intent'.typed ∧ d.chainid = d'.chainid ∧ d.this = d'.this) ∨
        Collide d.keccak256 (hashedFor d intent) (hashedFor d' intent')) := by
  obtain ⟨intent, opened⟩ := opened_of_reachable reach recorded
  obtain ⟨intent', opened'⟩ := opened_of_reachable reach' recorded'
  refine ⟨intent, intent', opened, opened', ?_⟩
  have same := opened.hash.trans opened'.hash.symm
  rw [hashIntent_typed, hashIntent_typed, alike] at same
  rcases hashTypedData_binds same with ⟨domains, intents⟩ | collide
  · have values := congrArg Struct.values domains
    simp only [domain, List.cons.injEq, Value.uint256.injEq, Value.address.injEq, and_true,
      true_and] at values
    have read := congrArg BitVec.toNat values.1
    rw [BitVec.toNat_ofNat, BitVec.toNat_ofNat] at read
    have numbers := (Nat.mod_eq_of_lt chain).symm.trans (read.trans (Nat.mod_eq_of_lt chain'))
    exact Or.inl ⟨intents, numbers, values.2⟩
  · right
    rw [hashedFor, hashedFor, alike]
    exact collide

namespace Sample

theorem refund_reachable : (system deployment).Reachable refunded :=
  locked_reachable.later
    (later_of_replay (show replay deployment locked [.tx refundTx] = some refunded by
      simp [refunded]))

end Sample

theorem locks_bind_sample :
    ∃ intent intent', Opened Sample.deployment Sample.locked Sample.intentHash intent ∧
      Opened Sample.deployment Sample.refunded Sample.intentHash intent' ∧
      ((intent.typed = intent'.typed ∧
          Sample.deployment.chainid = Sample.deployment.chainid ∧
          Sample.deployment.this = Sample.deployment.this) ∨
        Collide Sample.deployment.keccak256 (hashedFor Sample.deployment intent)
          (hashedFor Sample.deployment intent')) :=
  locks_bind rfl (by decide) (by decide) Sample.locked_reachable Sample.refund_reachable
    (by decide +kernel) (by decide +kernel)

end Perihelion.Escrow
