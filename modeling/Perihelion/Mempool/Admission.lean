import Perihelion.Mempool.Readable
import Perihelion.Sdk.Signature

/-! # What admission promises a solver

A submission is written only after `verifyIntent` has taken its signature, and under the hash that
`hashIntent` gives it.  So a record's hash is the one that a lock of its intent has on the escrow, and
the escrow takes the signature: that of an account as long as it has no code, that of a wallet as the
wallet answered when the server asked.
-/

namespace Perihelion.Mempool

open Sdk Transition BigEndian
open Relayer (hexText)

/-- What the server is constructed with.  A client answers from the chain as it is when asked. -/
structure Settings (d : Escrow.Deployment) where
  viem : Viem
  recover : Bytes32 → Nat → Nat → Bool → Option Escrow.Address
  chainId : JsNumber
  verifyingContract : JsString
  statusToken : Option JsString
  client : Option (Escrow.Context → PublicClient)

/-- The chain of the escrow at one moment. -/
structure View (d : Escrow.Deployment) where
  context : Escrow.Context
  deployed : context.toDeployment = d

/-- A verification ends with what the chain said meanwhile. -/
inductive Arrival (d : Escrow.Deployment) where
  | submit (body : JsValue) (now : Int)
  | verified (index : Nat) (chain : View d) (now : Int)
  | updateStatus (authorization : Option JsString) (rawHash : JsString) (body : JsValue)
  | sweep (now : Int)

namespace Settings

variable {d : Escrow.Deployment}

def domain (s : Settings d) : TypedDataDomain := perihelionDomain s.chainId s.verifyingContract

def hashIntent (s : Settings d) (intent : Intent) : Option Hash :=
  (Sdk.hashIntent s.viem d.keccak256 intent s.domain).map fun digest => hexText digest.toBytes

def options (s : Settings d) : Options := ⟨s.viem, s.statusToken, s.hashIntent⟩

def verifyOptions (s : Settings d) (chain : View d) : VerifyIntentOptions :=
  ⟨s.client.map (· chain.context), none⟩

/-- `verifySignature(parsed, signature).catch(() => false)`. -/
def verifySignature (s : Settings d) (chain : View d) (submission : Submission) : Bool :=
  (verifyIntent s.viem d.keccak256 s.recover submission.intent submission.signature s.domain
    (s.verifyOptions chain)).getD false

/-- The server's own step: the outcome of a verification is computed. -/
def input (s : Settings d) (server : Server) : Arrival d → Input
  | .submit body now => .submit body now
  | .verified index chain now =>
      .verified index (server.verifying[index]?.any (s.verifySignature chain)) now
  | .updateStatus authorization rawHash body => .updateStatus authorization rawHash body
  | .sweep now => .sweep now

def next (s : Settings d) (server : Server) (arrival : Arrival d) : Option Server :=
  Mempool.next s.options server (s.input server arrival)

def system (s : Settings d) : System Server (Arrival d) where
  init := (Mempool.system s.options).init
  step server arrival server' := s.next server arrival = some server'

/-- The client tells what the chain is. -/
structure Honest (s : Settings d) : Prop where
  contract : ∀ client, s.client = some client → ∀ (chain : View d) (user : JsString),
    s.viem.isAddress user = true →
      (s.verifyOptions chain).contract user = chain.context.codeAt (s.viem.toAddress user)
  reply : ∀ client, s.client = some client → ∀ (chain : View d) (user : JsString),
    s.viem.isAddress user = true → ∀ digest signature bytes, hexBytes signature = some bytes →
      (client chain.context).isValidSignature user digest signature =
        if s.viem.toAddress user = chain.context.this then none
        else chain.context.isValidSignature (s.viem.toAddress user) digest bytes

/-- What the server knows of the network it is deployed for. -/
structure Fits (s : Settings d) : Prop where
  reads : s.viem.Reads
  recovers : Recovers d.ecrecover s.recover
  deployed : Deployed s.viem d s.chainId s.verifyingContract
  honest : s.Honest

end Settings

/-! ## Hashes as texts -/

theorem digit_lower {n : Nat} (small : n < 16) :
    (isDigit (Hex.digit n) || (97 ≤ Hex.digit n && Hex.digit n ≤ 102)) = true := by
  have every : ∀ n : Fin 16,
      (isDigit (Hex.digit n.val) || (97 ≤ Hex.digit n.val && Hex.digit n.val ≤ 102)) = true := by
    decide
  exact every ⟨n, small⟩

theorem hexText_hash (h : Bytes32) : isHashText (hexText (Bytes32.toBytes h)) = true := by
  have start : (js "0x").length = 2 := by decide
  unfold hexText
  simp only [isHashText, Bool.and_eq_true, decide_eq_true_eq, List.all_eq_true]
  refine ⟨⟨?_, List.take_left' start⟩, ?_⟩
  · rw [List.length_append, start, Hex.text_length, Bytes32.toBytes_length]
  · intro unit member
    rw [List.drop_left' start] at member
    obtain ⟨byte, -, here⟩ := List.mem_flatMap.mp member
    have small := byte.toNat_lt
    rcases List.mem_cons.mp here with rfl | here
    · exact digit_lower (by omega)
    · rw [List.mem_singleton.mp here]
      exact digit_lower (by omega)

/-! ## One verification -/

section admits

variable {d : Escrow.Deployment} {s : Settings d} {submission : Submission} {hash : Hash}

/-- An account's signature: the escrow takes it at every time at which the account has no code. -/
def SignedByAccount (d : Escrow.Deployment) (message : Escrow.Intent) (signature : JsString) : Prop :=
  ∃ bytes, hexBytes signature = some bytes ∧
    ∀ c : Escrow.Context, c.toDeployment = d → c.codeAt message.user = false →
      Escrow.verify c (Escrow.hashIntent d message) message.user bytes = .ok true

/-- A wallet has taken the signature; the escrow then does, but for a reply with dirty low bytes. -/
def TakenByWallet (chain : View d) (message : Escrow.Intent) (signature : JsString) : Prop :=
  chain.context.codeAt message.user = true ∧ ∀ bytes, hexBytes signature = some bytes →
    Escrow.verify chain.context (Escrow.hashIntent d message) message.user bytes = .ok true ∨
      Dirty chain.context (Escrow.hashIntent d message) message.user bytes

/-- What is hashed, of an intent that has a hash. -/
theorem hashIntent_message {intent : Intent} (hashed : s.hashIntent intent = some hash) :
    ∃ message, encodeMessage s.viem intent = some message ∧ Encodable s.viem intent message := by
  obtain ⟨digest, hashed, -⟩ := Option.map_eq_some_iff.mp hashed
  exact hashIntent_encodable hashed

theorem hashIntent_onchain (fits : s.Fits) {intent : Intent} {message : Escrow.Intent}
    (encoded : encodeMessage s.viem intent = some message) (hashed : s.hashIntent intent = some hash) :
    hash = hexText (Escrow.hashIntent d message).toBytes := by
  rw [Settings.hashIntent, Settings.domain, hashIntent_deployed fits.deployed encoded] at hashed
  split at hashed
  · exact (Option.some.inj hashed).symm
  · cases hashed

theorem verifySignature_taken (fits : s.Fits) {chain : View d} {message : Escrow.Intent}
    (encoded : encodeMessage s.viem submission.intent = some message) (owned : message.user ≠ 0)
    (valid : s.verifySignature chain submission = true) :
    SignedByAccount d message submission.signature ∨
      TakenByWallet chain message submission.signature := by
  have accepted : verifyIntent s.viem d.keccak256 s.recover submission.intent submission.signature
      s.domain (s.verifyOptions chain) = some true := by
    unfold Settings.verifySignature at valid
    cases outcome : verifyIntent s.viem d.keccak256 s.recover submission.intent submission.signature
        s.domain (s.verifyOptions chain) with
    | none =>
        rw [outcome] at valid
        cases valid
    | some answer =>
        rw [outcome] at valid
        exact congrArg some valid
  obtain ⟨digest, hashed⟩ := verifyIntent_hashed accepted
  obtain ⟨message', encoded', encodable⟩ := hashIntent_encodable hashed
  obtain rfl := Option.some.inj (encoded.symm.trans encoded')
  have user := encodeMessage_user encoded
  cases code : (s.verifyOptions chain).contract submission.intent.user with
  | false =>
      left
      obtain ⟨bytes, text, verified⟩ := (verifyIntent_account fits.reads fits.recovers fits.deployed
        encoded encodable owned code).mp accepted
      refine ⟨bytes, text, ?_⟩
      rintro c rfl plain
      rw [Escrow.verify, plain, if_neg Bool.false_ne_true, verified]
  | true =>
      right
      cases known : s.client with
      | none =>
          -- without a client nobody is a contract
          rw [Settings.verifyOptions, known] at code
          cases code
      | some client =>
          have given : (s.verifyOptions chain).client = some (client chain.context) := by
            rw [Settings.verifyOptions, known]
            rfl
          have deployed : chain.context.codeAt message.user = true := by
            rw [user, ← fits.honest.contract client known chain _ encodable.user]
            exact code
          refine ⟨deployed, ?_⟩
          intro bytes text
          have taken :=
            (verifyIntent_contract fits.deployed encoded encodable code given).mp accepted
          rw [fits.honest.reply client known chain _ encodable.user _ _ bytes text, ← user] at taken
          exact (verify_contract deployed).mp taken

/-! ## Runs -/

/-- The record was submitted with its signature, and verified in some step of the run. -/
def VerifiedIn (s : Settings d) (moves : List (Server × Arrival d)) (record : MempoolIntentRecord) :
    Prop :=
  ∃ m ∈ moves, ∃ index chain, m.2 = .verified index chain record.createdAt ∧
    m.1.verifying[index]? = some ⟨record.intent, record.signature⟩ ∧
    s.verifySignature chain ⟨record.intent, record.signature⟩ = true

theorem VerifiedIn.mono {moves : List (Server × Arrival d)} {record record' : MempoolIntentRecord}
    (verified : VerifiedIn s moves record) (intent : record'.intent = record.intent)
    (signature : record'.signature = record.signature) (created : record'.createdAt = record.createdAt)
    (m : Server × Arrival d) : VerifiedIn s (moves ++ [m]) record' := by
  obtain ⟨before, member, index, chain, arrival, waiting, valid⟩ := verified
  refine ⟨before, List.mem_append_left _ member, index, chain, ?_, ?_, ?_⟩
  · rw [created, arrival]
  · rw [intent, signature, waiting]
  · rw [intent, signature, valid]

theorem stored_verified {server server' : Server} {moves : List (Server × Arrival d)}
    (created : s.system.init server) (run : s.system.Run server moves server') :
    ∀ hash record, server'.store.get hash = some record →
      record.hash = hash ∧ s.hashIntent record.intent = some hash ∧ VerifiedIn s moves record := by
  induction run with
  | nil =>
      obtain ⟨maxSize, expiryGraceMs, rfl⟩ := created
      intro hash record found
      cases found
  | @snoc moves here arrival after _ stepped ih =>
      intro hash record found
      have stepped : Mempool.next s.options here (s.input here arrival) = some after := stepped
      cases next_origin stepped found with
      | kept _ before =>
          obtain ⟨named, hashed, verified⟩ := ih hash record before
          exact ⟨named, hashed, verified.mono rfl rfl rfl _⟩
      | updated _ _ _ status old _ _ before =>
          obtain ⟨named, hashed, verified⟩ := ih hash old before
          exact ⟨named, hashed, verified.mono rfl rfl rfl _⟩
      | written index now submission called waiting hashed =>
          refine ⟨rfl, hashed, (here, arrival), by simp, ?_⟩
          cases arrival with
          | submit | updateStatus | sweep => cases called
          | verified index' chain now' =>
              simp only [Settings.input, Input.verified.injEq] at called
              obtain ⟨rfl, valid, rfl⟩ := called
              rw [waiting, Option.any_some] at valid
              exact ⟨index', chain, rfl, waiting, valid⟩

/-- The records have texts that the validators let through. -/
theorem Settings.reachable_checked {server : Server} (reach : s.system.Reachable server) :
    Checked s.options server := by
  have hashes : Hashes s.options := by
    intro intent hash hashed
    obtain ⟨digest, -, rfl⟩ := Option.map_eq_some_iff.mp hashed
    exact hexText_hash digest
  refine Mempool.reachable_checked hashes ?_
  refine System.Reachable.invariant (S := s.system) (P := (Mempool.system s.options).Reachable) ?_ ?_
    reach
  · exact fun _ created => .init created
  · intro server arrival server' _ reached stepped
    exact .step reached (t := s.input server arrival) stepped

theorem stored_message {server : Server} (reach : s.system.Reachable server)
    {record : MempoolIntentRecord} (hashed : s.hashIntent record.intent = some hash)
    (stored : server.store.get hash = some record) :
    ∃ message, encodeMessage s.viem record.intent = some message ∧
      toMessage s.viem record.intent = some message := by
  obtain ⟨message, encoded, -⟩ := hashIntent_message hashed
  have narrow := ((Settings.reachable_checked reach).stored hash record stored).2.2
  exact ⟨message, encoded, (Intent.Narrow.encoded narrow).symm.trans encoded⟩

/-- In every state of every run, a record stands under the hash that its lock has on the escrow, and
    the escrow takes its signature. -/
theorem stored_admitted (fits : s.Fits) {server server' : Server} {moves : List (Server × Arrival d)}
    (created : s.system.init server) (run : s.system.Run server moves server')
    {record : MempoolIntentRecord} (stored : server'.store.get hash = some record) :
    ∃ message, toMessage s.viem record.intent = some message ∧
      hash = hexText (Escrow.hashIntent d message).toBytes ∧ record.hash = hash ∧
      (message.user ≠ 0 → SignedByAccount d message record.signature ∨
        ∃ m ∈ moves, ∃ index chain, m.2 = .verified index chain record.createdAt ∧
          TakenByWallet chain message record.signature) := by
  obtain ⟨named, hashed, m, member, index, chain, arrival, -, valid⟩ :=
    stored_verified created run hash record stored
  obtain ⟨message, encoded, given⟩ := stored_message (run.reachable (.init created)) hashed stored
  refine ⟨message, given, hashIntent_onchain fits encoded hashed, named, ?_⟩
  intro owned
  rcases verifySignature_taken fits encoded owned valid with account | wallet
  · exact Or.inl account
  · exact Or.inr ⟨m, member, index, chain, arrival, wallet⟩

end admits

namespace Sample

/-- A client of the chain as it is. -/
def client (c : Escrow.Context) : PublicClient where
  getCode user := .ok (if c.codeAt (Sdk.Sample.lowerViem.toAddress user) then some (js "0x6001") else none)
  isValidSignature user digest signature :=
    if Sdk.Sample.lowerViem.toAddress user = c.this then none
    else (hexBytes signature).bind (c.isValidSignature (Sdk.Sample.lowerViem.toAddress user) digest)

def settings : Settings Sdk.Sample.escrowContext.toDeployment where
  viem := Sdk.Sample.lowerViem
  recover _ _ _ _ := none
  chainId := Sdk.Sample.wholeNumber 1 Sdk.Sample.one_small
  verifyingContract := js "0x000000000000000000000000000000000000e5c0"
  statusToken := none
  client := some client

theorem settings_honest : settings.Honest where
  contract := by
    intro _ given chain user _
    cases given
    have unset : js "0x6001" ≠ js "0x" := by decide
    simp only [VerifyIntentOptions.contract, Settings.verifyOptions, settings, Option.map_some, client]
    cases chain.context.codeAt (Sdk.Sample.lowerViem.toAddress user) with
    | true => simp [unset]
    | false => simp
  reply := by
    intro _ given chain user _ digest signature bytes text
    cases given
    simp only [client, text, Option.bind_some]
    rfl

theorem settings_fits : settings.Fits where
  reads := Sdk.Sample.lowerViem_reads
  recovers := fun _ _ _ _ => rfl
  deployed := Sdk.Sample.escrow_deployed
  honest := settings_honest

def chain : View Sdk.Sample.escrowContext.toDeployment := ⟨Sdk.Sample.escrowContext, rfl⟩

def arrivals : List (Arrival Sdk.Sample.escrowContext.toDeployment) :=
  [.submit body 1700000000, .verified 0 chain 1700000001]

def admitted : Server := (System.replay settings.next created arrivals).get (by decide +kernel)

def walletHash : Hash := (settings.hashIntent Sdk.Sample.walletIntent).get (by decide +kernel)

theorem admitted_run : settings.system.Run created (System.trail settings.next created arrivals)
    admitted := by
  apply System.Run.of_replay (S := settings.system) (fun _ _ _ stepped => stepped)
  simp [admitted]

end Sample

/-- The server has stored a wallet's intent. -/
theorem stored_admitted_sample :
    ∃ hash record, Sample.admitted.store.get hash = some record ∧
      ∃ message, toMessage Sample.settings.viem record.intent = some message ∧
        hash = hexText (Escrow.hashIntent Sdk.Sample.escrowContext.toDeployment message).toBytes ∧
        record.hash = hash ∧
        (message.user ≠ 0 →
          SignedByAccount Sdk.Sample.escrowContext.toDeployment message record.signature ∨
            ∃ m ∈ System.trail Sample.settings.next Sample.created Sample.arrivals,
              ∃ index chain, m.2 = .verified index chain record.createdAt ∧
                TakenByWallet chain message record.signature) := by
  have found : (Sample.admitted.store.get Sample.walletHash).isSome = true := by decide +kernel
  obtain ⟨record, stored⟩ := Option.isSome_iff_exists.mp found
  exact ⟨Sample.walletHash, record, stored, stored_admitted Sample.settings_fits
    ⟨none, none, rfl⟩ Sample.admitted_run stored⟩

end Perihelion.Mempool
