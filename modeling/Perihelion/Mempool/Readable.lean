import Perihelion.Mempool.Finality
import Perihelion.Mempool.Listing

/-! # What clients can read of the mempool

The server writes records that the SDK's parser refuses: a `filled` one, and one whose
signature is a contract wallet's and not 65 bytes long.  As long as neither is stored, and the
clock is sane, clients can read every record and every page.
-/

namespace Perihelion.Mempool

open Sdk Fallible Transition
open Relayer (toLowerCase)

/-! ## One record -/

/-- What the SDK's parser asks of a record beyond what the server has checked. -/
structure Readable (record : MempoolIntentRecord) : Prop where
  status : record.status ≠ .filled
  signature : isSignature record.signature = true
  createdAt : inTimestampRange record.createdAt = true

theorem seconds_inRange {n : Int} :
    (seconds n).asInteger.any inTimestampRange = true ↔ inTimestampRange n = true := by
  unfold seconds
  split
  · rfl
  · rename_i large
    have outside : inTimestampRange n = false := by
      unfold inTimestampRange
      rw [Bool.and_eq_false_iff, decide_eq_false_iff_not, decide_eq_false_iff_not]
      omega
    rw [outside]
    exact Iff.rfl

theorem wire_filled {status : IntentStatus} : status.wire ≠ .filled ↔ status ≠ .filled := by
  cases status with
  | pending | filled | settled | refunded | expired => decide

/-- With a checked intent under a proper hash, a record is parsed exactly if it is readable. -/
theorem parseIntentRecord_json {viem : Viem} {record : MempoolIntentRecord}
    (narrow : record.intent.Narrow viem) (hashed : isHash record.hash = true) :
    (∃ parsed, parseIntentRecord viem record.json = .ok parsed) ↔ Readable record := by
  constructor
  · rintro ⟨parsed, ok⟩
    obtain ⟨-, signature, -, status, -, -, created⟩ := parseIntentRecord_ok.mp ok
    obtain ⟨given, canonical⟩ := asHexText_ok.mp signature
    obtain ⟨clock, inRange⟩ := asTimestampInSeconds_ok.mp created
    have sameSignature : record.signature = parsed.signature := JsValue.string.inj given
    have sameClock : seconds record.createdAt = parsed.createdAt := JsValue.number.inj clock
    constructor
    case status => exact wire_filled.mp ((asStatus_text _ _).mp status).2
    case signature => rwa [sameSignature]
    case createdAt =>
      rw [← sameClock] at inRange
      exact seconds_inRange.mp inRange
  · intro readable
    refine ⟨⟨⟨record.intent, record.signature, record.hash⟩, record.status.wire, none, none,
      seconds record.createdAt⟩, parseIntentRecord_ok.mpr ?_⟩
    exact ⟨narrow.parse, asHexText_ok.mpr ⟨rfl, readable.signature⟩, asHexText_ok.mpr ⟨rfl, hashed⟩,
      (asStatus_text _ _).mpr ⟨rfl, wire_filled.mpr readable.status⟩, rfl, rfl,
      asTimestampInSeconds_ok.mpr ⟨rfl, seconds_inRange.mpr readable.createdAt⟩⟩

/-- The server's hashes are hashes to the SDK, which also takes capital letters. -/
theorem isHash_of_isHashText {s : JsString} (lower : isHashText s = true) : isHash s = true := by
  simp only [isHashText, Bool.and_eq_true, decide_eq_true_eq, List.all_eq_true, Bool.or_eq_true] at lower
  obtain ⟨⟨length, head⟩, digits⟩ := lower
  simp only [isHash, isHexText, Bool.and_eq_true, decide_eq_true_eq, List.all_eq_true, isHexUnit,
    Bool.or_eq_true]
  refine ⟨⟨length, head⟩, fun unit member => ?_⟩
  rcases digits unit member with digit | letter
  · exact Or.inl (Or.inl digit)
  · exact Or.inr letter

/-! ## Pages -/

theorem collect_records {store : IntentStore} {chainId : Option Int} {cursor : Option Hash}
    {limit : Nat} {reached : Bool} {page : List MempoolIntentRecord} {hashes : List Hash}
    (stored : ∀ record ∈ page, ∃ hash, store.get hash = some record) (short : page.length ≤ limit) :
    (∀ record ∈ (store.collect chainId cursor limit reached page hashes).1,
      ∃ hash, store.get hash = some record) ∧
      (store.collect chainId cursor limit reached page hashes).1.length ≤ limit := by
  fun_induction IntentStore.collect store chainId cursor limit reached page hashes with
  | case1 => exact ⟨stored, short⟩
  | case2 _ _ _ _ _ ih => exact ih stored short
  | case3 _ _ _ _ _ _ _ ih => exact ih stored short
  | case4 _ _ _ _ _ _ ih => exact ih stored short
  | case5 => exact ⟨stored, short⟩
  | case6 reached page hash rest record found _ _ free ih =>
      apply ih
      · intro other member
        rcases List.mem_append.mp member with member | member
        · exact stored other member
        · exact ⟨hash, List.mem_singleton.mp member ▸ found⟩
      · rw [List.length_append, List.length_singleton]
        omega

theorem list_records (store : IntentStore) (status : Option IntentStatus) (chainId : Option Int)
    (cursor : Option Hash) (limit : Nat) :
    (∀ record ∈ (store.list status chainId cursor limit).records, ∃ hash, store.get hash = some record) ∧
      (store.list status chainId cursor limit).records.length ≤ limit :=
  collect_records (fun _ member => absurd member List.not_mem_nil) (Nat.zero_le limit)

theorem parseLimit_le {limit : Option JsNumber} {parsed : Nat} (ok : parseLimit limit = .ok parsed) :
    parsed ≤ maxListLimit := by
  cases limit with
  | none =>
      cases ok
      decide
  | some n =>
      simp only [parseLimit, bind_ok, pure_ok, require_ok] at ok
      obtain ⟨limit, -, -, ⟨-, small⟩, rfl⟩ := ok
      omega

/-! ## What the server has checked -/

/-- `hashIntent` writes 32 bytes in lower-case hex. -/
def Hashes (options : Options) : Prop :=
  ∀ intent hash, options.hashIntent intent = some hash → isHashText hash = true

structure Checked (options : Options) (server : Server) : Prop where
  stored : ∀ hash record, server.store.get hash = some record →
    record.hash = hash ∧ isHashText hash = true ∧ record.intent.Narrow options.viem
  waiting : ∀ submission ∈ server.verifying, submission.intent.Narrow options.viem

section checked

variable {options : Options} {server server' : Server} {input : Input}

theorem validateSubmission_narrow {body : JsValue} {now : Int} {submission : Submission}
    (valid : validateSubmission options body now = .ok submission) :
    submission.intent.Narrow options.viem := by
  simp only [validateSubmission, bind_ok, require_ok] at valid
  obtain ⟨-, -, -, -, valid⟩ := valid
  split at valid
  · simp only [bind_ok, require_ok] at valid
    obtain ⟨signature, -, -, -, valid⟩ := valid
    split at valid
    · rename_i parsed narrowed
      simp only [bind_ok, pure_ok, require_ok] at valid
      obtain ⟨intent, same, -, -, rfl⟩ := valid
      cases same
      exact parseIntent_narrow narrowed
    · cases valid
  · cases valid

theorem next_verifying (stepped : next options server input = some server') {submission : Submission}
    (member : submission ∈ server'.verifying) :
    submission ∈ server.verifying ∨
      ∃ body now, validateSubmission options body now = .ok submission := by
  obtain ⟨⟨after, response⟩, handled, rfl⟩ := Option.map_eq_some_iff.mp stepped
  cases input with
  | submit body now =>
      simp only [handle, handleSubmitIntent, Option.some.injEq] at handled
      split at handled
      · cases handled
        exact Or.inl member
      · rename_i valid
        cases handled
        rcases List.mem_append.mp member with member | member
        · exact Or.inl member
        · rw [List.mem_singleton.mp member]
          exact Or.inr ⟨body, now, valid⟩
  | verified index signatureValid now =>
      obtain ⟨verified, -, finished⟩ := Option.map_eq_some_iff.mp handled
      left
      apply List.mem_of_mem_eraseIdx (i := index)
      unfold finishSubmission at finished
      split at finished
      · cases finished
        exact member
      · split at finished
        · cases finished
          exact member
        · cases finished
          exact member
  | updateStatus authorization rawHash body =>
      simp only [handle, handleUpdateStatus, Option.some.injEq] at handled
      left
      split at handled
      · cases handled
        exact member
      · cases handled
        exact member
  | sweep now =>
      cases handled
      exact Or.inl member

theorem Checked.step (hashes : Hashes options) (checked : Checked options server)
    (stepped : next options server input = some server') : Checked options server' := by
  constructor
  case stored =>
    intro hash record found
    cases next_origin stepped found with
    | kept _ before => exact checked.stored hash record before
    | updated _ _ _ status old _ _ before => exact checked.stored hash old before
    | written index now submission _ waiting hashed =>
        exact ⟨rfl, hashes _ _ hashed, checked.waiting _ (List.mem_of_getElem? waiting)⟩
  case waiting =>
    intro submission member
    rcases next_verifying stepped member with before | ⟨body, now, valid⟩
    · exact checked.waiting _ before
    · exact validateSubmission_narrow valid

theorem reachable_checked (hashes : Hashes options) (reach : (system options).Reachable server) :
    Checked options server := by
  apply reach.invariant
  · rintro _ ⟨maxSize, expiryGraceMs, rfl⟩
    constructor
    case stored =>
      intro hash record found
      cases found
    case waiting => exact fun _ member => absurd member List.not_mem_nil
  · intro _ _ _ _ checked stepped
    exact checked.step hashes stepped

/-! ## What clients get -/

/-- Every record and every page that the server answers with is parsed by the SDK. -/
structure Serves (options : Options) (server : Server) : Prop where
  record : ∀ rawHash record, handleGetIntent rawHash server = .ok record →
    ∃ parsed, parseIntentRecord options.viem record.json = .ok parsed
  page : ∀ query page, handleListIntents query server = .ok page →
    ∃ parsed, parseIntentRecordArray options.viem (page.json.field "records")
      defaultMaxIntentRecords = .ok parsed

theorem toLowerCase_isHashText {s : JsString} (lower : isHashText s = true) : toLowerCase s = s := by
  simp only [isHashText, Bool.and_eq_true, decide_eq_true_eq, List.all_eq_true, Bool.or_eq_true,
    isDigit, UInt16.le_iff_toNat_le, UInt16.reduceToNat] at lower
  obtain ⟨⟨-, head⟩, digits⟩ := lower
  have small : ∀ unit ∈ s, ¬ (65 ≤ unit.toNat ∧ unit.toNat ≤ 90) ∧ unit.toNat < 128 := by
    intro unit member
    rw [← List.take_append_drop 2 s, head] at member
    rcases List.mem_append.mp member with start | digit
    · have known : (js "0x").all (fun unit =>
          decide (¬ (65 ≤ unit.toNat ∧ unit.toNat ≤ 90) ∧ unit.toNat < 128)) = true := by decide
      exact of_decide_eq_true (List.all_eq_true.mp known unit start)
    · have range := digits unit digit
      omega
  unfold toLowerCase
  conv => rhs; rw [← List.map_id s]
  apply List.map_congr_left
  intro unit member
  obtain ⟨uncapital, ascii⟩ := small unit member
  have kelvin : unit ≠ 0x212A := by
    rintro rfl
    exact absurd ascii (by decide)
  simp only [UInt16.le_iff_toNat_le, UInt16.reduceToNat, if_neg uncapital, if_neg kelvin, id]

theorem serves_iff (checked : Checked options server) : Serves options server ↔
    ∀ hash record, server.store.get hash = some record → Readable record := by
  have parses {hash : Hash} {record : MempoolIntentRecord} (found : server.store.get hash = some record) :
      (∃ parsed, parseIntentRecord options.viem record.json = .ok parsed) ↔ Readable record := by
    obtain ⟨same, lower, narrow⟩ := checked.stored hash record found
    exact parseIntentRecord_json narrow (isHash_of_isHashText (same ▸ lower))
  constructor
  · intro serves hash record found
    apply (parses found).mp
    apply serves.record hash
    obtain ⟨-, lower, -⟩ := checked.stored hash record found
    simp only [handleGetIntent, parseHashParam, bind_ok, pure_ok, require_ok, expect_ok,
      toLowerCase_isHashText lower]
    exact ⟨hash, ⟨(), lower, rfl⟩, found⟩
  · intro readable
    constructor
    case record =>
      intro rawHash record got
      simp only [handleGetIntent, bind_ok, expect_ok] at got
      obtain ⟨hash, -, found⟩ := got
      exact (parses found).mpr (readable hash record found)
    case page =>
      intro query page got
      simp only [handleListIntents, bind_ok, pure_ok] at got
      obtain ⟨status, -, chainId, -, limit, limited, cursor, -, rfl⟩ := got
      obtain ⟨stored, short⟩ := list_records server.store status chainId cursor limit
      have few := parseLimit_le limited
      generalize server.store.list status chainId cursor limit = page at stored short
      have records : page.json.field "records" = .array (page.records.map MempoolIntentRecord.json) := rfl
      have bounded : ¬ defaultMaxIntentRecords < (page.records.map MempoolIntentRecord.json).length := by
        rw [List.length_map]
        have caps : maxListLimit ≤ defaultMaxIntentRecords := by decide
        omega
      rw [records, parseIntentRecordArray, if_neg bounded]
      apply mapM_exists
      intro value member
      obtain ⟨record, here, rfl⟩ := List.mem_map.mp member
      obtain ⟨hash, found⟩ := stored record here
      exact (parses found).mpr (readable hash record found)

/-! ## Runs -/

def AllReadable (server : Server) : Prop :=
  ∀ hash record, server.store.get hash = some record → Readable record

/-- The step stores no signature but one of 65 bytes, and marks no record as filled. -/
def KeepsReadable (options : Options) (server : Server) : Input → Prop
  | .verified index true now => ∀ submission, server.verifying[index]? = some submission →
      (options.hashIntent submission.intent).isSome →
      isSignature submission.signature = true ∧ inTimestampRange now = true
  | .updateStatus authorization rawHash body => ∀ hash record,
      validateUpdate options authorization rawHash body = .ok (hash, .filled) →
      server.store.get hash = some record → record.status.terminal = true
  | _ => True

theorem readable_step (readable : AllReadable server)
    (stepped : next options server input = some server') :
    AllReadable server' ↔ KeepsReadable options server input := by
  constructor
  · intro later
    cases input with
    | submit | sweep => trivial
    | verified index signatureValid now =>
        cases signatureValid with
        | false => trivial
        | true =>
            intro submission waiting hashed
            obtain ⟨hash, hashed⟩ := Option.isSome_iff_exists.mp hashed
            have record := later hash _ (written_get stepped waiting hashed)
            exact ⟨record.signature, record.createdAt⟩
    | updateStatus authorization rawHash body =>
        intro hash record valid found
        by_contra final
        have live : record.status.terminal = false := Bool.eq_false_of_not_eq_true final
        have marked : server'.store.get hash = some { record with status := .filled } := by
          simp only [next, handle, handleUpdateStatus, valid, Option.map_some, Option.some.injEq] at stepped
          rw [← stepped]
          dsimp only
          rw [IntentStore.updateStatus_get, found, Option.map_some, if_pos ⟨rfl, live⟩]
        exact (later hash _ marked).status rfl
  · intro keeps hash record found
    cases next_origin stepped found with
    | kept _ before => exact readable hash record before
    | updated authorization rawHash body status old called valid before live =>
        subst called
        have kept := readable hash old before
        refine ⟨?_, kept.signature, kept.createdAt⟩
        rintro rfl
        cases live.symm.trans (keeps hash old valid before)
    | written index now submission called waiting hashed =>
        subst called
        obtain ⟨signature, clock⟩ := keeps submission waiting (by rw [hashed]; rfl)
        exact ⟨by simp, signature, clock⟩

theorem readable_run {moves : List (Server × Input)} (readable : AllReadable server)
    (run : (system options).Run server moves server') :
    (∀ before after v, moves = before ++ after → (system options).Run server before v → AllReadable v) ↔
      ∀ m ∈ moves, KeepsReadable options m.1 m.2 := by
  constructor
  · intro served m member
    obtain ⟨before, after, rfl⟩ := List.append_of_mem member
    obtain ⟨v, first, stepped, -⟩ := run.cut
    have here := served before (m :: after) m.1 rfl first
    have there := served (before ++ [m]) after v (by simp) (first.snoc stepped)
    exact (readable_step here stepped).mp there
  · rintro keeps before after v rfl first
    have kept : ∀ m ∈ before, KeepsReadable options m.1 m.2 :=
      fun m member => keeps m (List.mem_append_left _ member)
    clear keeps run
    induction first with
    | nil => exact readable
    | @snoc moves w input w' _ stepped ih =>
        have here := ih fun m member => kept m (List.mem_append_left _ member)
        exact (readable_step here stepped).mpr (kept (w, input) (by simp))

/-- In a run of a new server clients can read every record and page in every state, exactly if
    every step stores what the SDK's parser takes. -/
theorem records_readable {moves : List (Server × Input)} (hashes : Hashes options)
    (created : (system options).init server) (run : (system options).Run server moves server') :
    (∀ before after v, moves = before ++ after → (system options).Run server before v →
      Serves options v) ↔ ∀ m ∈ moves, KeepsReadable options m.1 m.2 := by
  have empty : AllReadable server := by
    obtain ⟨maxSize, expiryGraceMs, rfl⟩ := created
    intro hash record found
    cases found
  rw [← readable_run empty run]
  have reach {before : List (Server × Input)} {v : Server} (first : (system options).Run server before v) :
      Checked options v := reachable_checked hashes (first.reachable (.init created))
  constructor
  · intro served before after v whole first
    exact (serves_iff (reach first)).mp (served before after v whole first)
  · intro readable before after v whole first
    exact (serves_iff (reach first)).mpr (readable before after v whole first)

end checked

namespace Sample

theorem hashes : Hashes options := by
  intro intent hash hashed
  obtain rfl := Option.some.inj hashed
  decide +kernel

def settlingMoves : List (Server × Input) := System.trail (next options) created settling

theorem created_init : (system options).init created := ⟨none, none, rfl⟩

theorem settled_run : (system options).Run created settlingMoves settled := by
  apply System.Run.of_replay (S := system options) (fun _ _ _ stepped => stepped)
  simp [settled]

def filling : List Input := [.submit body 1700000000, .verified 0 true 1700000001, report "filled"]

def filled : Server := (System.replay (next options) created filling).get (by decide +kernel)

/-- A contract wallet's signature of one byte. -/
def walletBody : JsValue := .object [(js "intent", intent), (js "signature", .string (js "0x11"))]

def signing : List Input := [.submit walletBody 1700000000, .verified 0 true 1700000001]

def signed : Server := (System.replay (next options) created signing).get (by decide +kernel)

theorem filled_reachable : (system options).Reachable filled := by
  apply (System.Reachable.init created_init).later
  apply System.Later.of_replay (S := system options) (fun _ _ _ stepped => stepped)
  show System.replay (next options) created filling = some filled
  simp [filled]

theorem signed_reachable : (system options).Reachable signed := by
  apply (System.Reachable.init created_init).later
  apply System.Later.of_replay (S := system options) (fun _ _ _ stepped => stepped)
  show System.replay (next options) created signing = some signed
  simp [signed]

end Sample

theorem records_readable_sample : Serves Sample.options Sample.settled := by
  refine (records_readable Sample.hashes Sample.created_init Sample.settled_run).mpr ?_
    Sample.settlingMoves [] Sample.settled (List.append_nil _).symm Sample.settled_run
  intro m member
  have input := System.input_of_trail member
  simp only [Sample.settling, List.mem_cons, List.not_mem_nil, or_false] at input
  rcases input with submitted | verified | reported
  · rw [submitted]
    trivial
  · rw [verified]
    intro submission waiting _
    have canonical : ∀ m ∈ Sample.settlingMoves,
        (m.1.verifying.all fun submission => isSignature submission.signature) = true := by
      decide +kernel
    exact ⟨List.all_eq_true.mp (canonical m member) submission (List.mem_of_getElem? waiting), by decide⟩
  · rw [reported]
    intro hash record valid
    have update : (validateUpdate Sample.options none Sample.hash
        (.object [(js "status", .string (js "settled"))])).toOption.map Prod.snd = some .settled := by
      decide +kernel
    rw [valid] at update
    cases update

/-- A filled record, and one with a contract wallet's signature, are records no client can read. -/
theorem records_unreadable :
    Hashes Sample.options ∧
      (system Sample.options).Reachable Sample.filled ∧ ¬ Serves Sample.options Sample.filled ∧
      (system Sample.options).Reachable Sample.signed ∧ ¬ Serves Sample.options Sample.signed := by
  have checked {server : Server} (reach : (system Sample.options).Reachable server) :=
    reachable_checked Sample.hashes reach
  refine ⟨Sample.hashes, Sample.filled_reachable, ?_, Sample.signed_reachable, ?_⟩
  · rw [serves_iff (checked Sample.filled_reachable)]
    intro readable
    have stored : (Sample.filled.store.get Sample.hash).any (·.status = .filled) = true := by
      decide +kernel
    obtain ⟨record, found, filled⟩ := (Option.any_eq_true _ _).mp stored
    exact (readable Sample.hash record found).status (of_decide_eq_true filled)
  · rw [serves_iff (checked Sample.signed_reachable)]
    intro readable
    have stored : (Sample.signed.store.get Sample.hash).any (!isSignature ·.signature) = true := by
      decide +kernel
    obtain ⟨record, found, short⟩ := (Option.any_eq_true _ _).mp stored
    rw [(readable Sample.hash record found).signature] at short
    cases short

end Perihelion.Mempool
