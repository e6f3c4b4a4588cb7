import Perihelion.Lib.Hex
import Perihelion.Mempool.Server

/-! # Terminal statuses

`updateStatus` never leaves a terminal status.  A submission that is written under the hash
of a stored record does: it puts a `pending` record in its place, whatever was there when
it was validated and whatever is there now.
-/

namespace Perihelion.Mempool

open Sdk Fallible Transition

/-- Where a record that is stored under a hash after a step came from. -/
inductive RecordOrigin (options : Options) (server : Server) (input : Input) (hash : Hash) :
    MempoolIntentRecord → Prop
  | kept (record) : server.store.get hash = some record → RecordOrigin options server input hash record
  | updated (authorization rawHash body status record) :
      input = .updateStatus authorization rawHash body →
      validateUpdate options authorization rawHash body = .ok (hash, status) →
      server.store.get hash = some record → record.status.terminal = false →
      RecordOrigin options server input hash { record with status }
  | written (index now submission) : input = .verified index true now →
      server.verifying[index]? = some submission → options.hashIntent submission.intent = some hash →
      RecordOrigin options server input hash
        ⟨hash, submission.intent, submission.signature, .pending, now⟩

/-- How one step moves the record under a hash. -/
inductive RecordMove (options : Options) (server : Server) (input : Input) (hash : Hash) :
    Option MempoolIntentRecord → Prop
  | kept : RecordMove options server input hash (server.store.get hash)
  | evicted : RecordMove options server input hash none
  | updated (record status) : server.store.get hash = some record → record.status.terminal = false →
      RecordMove options server input hash (some { record with status })
  | written (index now submission record) : input = .verified index true now →
      server.verifying[index]? = some submission → options.hashIntent submission.intent = some hash →
      record.status = .pending → RecordMove options server input hash (some record)

section move

variable {options : Options} {server server' : Server} {input : Input} {hash : Hash}
  {record : MempoolIntentRecord}

theorem RecordMove.found {record : Option MempoolIntentRecord} (same : record = server.store.get hash) :
    RecordMove options server input hash record :=
  same ▸ .kept

theorem finishSubmission_origin {submission : Submission} {index : Nat} {signatureValid : Bool} {now : Int}
    (waiting : server.verifying[index]? = some submission)
    (found : (finishSubmission options submission signatureValid now
      { server with verifying := server.verifying.eraseIdx index }).1.store.get hash = some record) :
    RecordOrigin options server (.verified index signatureValid now) hash record := by
  unfold finishSubmission at found
  split at found
  · exact .kept record found
  · rename_i valid
    obtain rfl : signatureValid = true := not_not.mp valid
    split at found
    · exact .kept record found
    · rename_i key hashed
      dsimp only at found
      by_cases here : hash = key
      · subst here
        rw [IntentStore.set_get_self] at found
        cases found
        exact .written index now submission rfl waiting hashed
      · rcases IntentStore.set_get_other server.store _ here with gone | same
        · cases gone.symm.trans found
        · exact .kept record (same.symm.trans found)

theorem handleUpdateStatus_origin {authorization : Option JsString} {rawHash : JsString} {body : JsValue}
    (found : (handleUpdateStatus options authorization rawHash body server).1.store.get hash =
      some record) :
    RecordOrigin options server (.updateStatus authorization rawHash body) hash record := by
  unfold handleUpdateStatus at found
  cases valid : validateUpdate options authorization rawHash body with
  | error refusal =>
      rw [valid] at found
      exact .kept record found
  | ok update =>
      obtain ⟨key, status⟩ := update
      rw [valid] at found
      dsimp only at found
      rw [IntentStore.updateStatus_get, Option.map_eq_some_iff] at found
      obtain ⟨old, known, same⟩ := found
      split at same
      · rename_i live
        obtain ⟨rfl, live⟩ := live
        exact same ▸ .updated authorization rawHash body status old rfl valid known live
      · exact .kept record (same ▸ known)

theorem next_origin (stepped : next options server input = some server')
    (found : server'.store.get hash = some record) : RecordOrigin options server input hash record := by
  obtain ⟨⟨after, response⟩, handled, rfl⟩ := Option.map_eq_some_iff.mp stepped
  cases input with
  | submit body now =>
      simp only [handle, handleSubmitIntent, Option.some.injEq] at handled
      split at handled
      · cases handled
        exact .kept record found
      · cases handled
        exact .kept record found
  | verified index signatureValid now =>
      obtain ⟨submission, waiting, finished⟩ := Option.map_eq_some_iff.mp handled
      apply finishSubmission_origin waiting
      rw [finished]
      exact found
  | updateStatus authorization rawHash body =>
      cases handled
      exact handleUpdateStatus_origin found
  | sweep now =>
      cases handled
      dsimp only at found
      rw [IntentStore.evictExpired_get, Option.filter_eq_some_iff] at found
      exact .kept record found.1

theorem next_move (stepped : next options server input = some server') (hash : Hash) :
    RecordMove options server input hash (server'.store.get hash) := by
  cases after : server'.store.get hash with
  | none => exact .evicted
  | some record =>
      cases next_origin stepped after with
      | kept _ found => exact .found found.symm
      | updated _ _ _ status old _ _ found live => exact .updated old status found live
      | written index now submission called waiting hashed =>
          exact .written index now submission _ called waiting hashed rfl

end move

/-! ## Runs -/

/-- No verified submission is written under the hash of a record whose status is terminal. -/
def SparesFinal (options : Options) (hash : Hash) (server : Server) : Input → Prop
  | .verified index true _ => ∀ submission, server.verifying[index]? = some submission →
      options.hashIntent submission.intent = some hash →
      ∀ record, server.store.get hash = some record → record.status.terminal = false
  | _ => True

/-- A terminal status at the start of a run is the status at its end, if the record stayed. -/
def StaysFinal (hash : Hash) (server : Server) (moves : List (Server × Input)) (server' : Server) : Prop :=
  ∀ record record', server.store.get hash = some record → record.status.terminal = true →
    (∀ m ∈ moves, (m.1.store.get hash).isSome) → server'.store.get hash = some record' →
    record'.status = record.status

section run

variable {options : Options} {server server' : Server} {hash : Hash}

/-- A verified submission is stored as pending. -/
theorem written_get {index : Nat} {now : Int} {submission : Submission}
    (stepped : next options server (.verified index true now) = some server')
    (waiting : server.verifying[index]? = some submission)
    (hashed : options.hashIntent submission.intent = some hash) :
    server'.store.get hash = some ⟨hash, submission.intent, submission.signature, .pending, now⟩ := by
  simp only [next, handle, waiting, Option.map_some, finishSubmission, not_true_eq_false, if_false,
    hashed, Option.some.injEq] at stepped
  rw [← stepped]
  exact IntentStore.set_get_self _ _ _

theorem final_step {input : Input} (stepped : next options server input = some server') :
    StaysFinal hash server [(server, input)] server' ↔ SparesFinal options hash server input := by
  constructor
  · intro stays
    cases input with
    | submit | updateStatus | sweep => trivial
    | verified index signatureValid now =>
        cases signatureValid with
        | false => trivial
        | true =>
            intro submission waiting hashed record found
            apply Bool.eq_false_of_not_eq_true
            intro final
            have written := written_get stepped waiting hashed
            have same := stays record _ found final (by simp [found]) written
            rw [← same] at final
            cases final
  · intro spares record record' found final _ found'
    have move := next_move stepped hash
    generalize server'.store.get hash = after at move found'
    cases move with
    | kept => rw [Option.some.inj (found.symm.trans found')]
    | evicted => cases found'
    | updated old status known live =>
        obtain rfl := Option.some.inj (found.symm.trans known)
        exact absurd (final.symm.trans live) (by simp)
    | written index now submission _ called waiting hashed =>
        subst called
        have live := spares submission waiting hashed record found
        exact absurd (final.symm.trans live) (by simp)

theorem final_run {moves : List (Server × Input)} (run : (system options).Run server moves server')
    (spares : ∀ m ∈ moves, SparesFinal options hash m.1 m.2) :
    StaysFinal hash server moves server' := by
  induction run with
  | nil =>
      intro record record' found _ _ found'
      rw [Option.some.inj (found.symm.trans found')]
  | @snoc moves v input v' _ last ih =>
      intro record record' found final present found'
      have earlier := ih fun m member => spares m (List.mem_append_left _ member)
      have stepped := (final_step last).mpr (spares (v, input) (by simp))
      obtain ⟨between, held⟩ := Option.isSome_iff_exists.mp (present (v, input) (by simp))
      have before := earlier record between found final
        (fun m member => present m (List.mem_append_left _ member)) held
      have after := stepped between record' held (before ▸ final) (by simp [held]) found'
      exact after.trans before

/-- In every stretch of a run the terminal status of a record that stays never changes, exactly
    if no verified submission is written over one. -/
theorem statuses_final {moves : List (Server × Input)}
    (run : (system options).Run server moves server') (hash : Hash) :
    (∀ before during after u v, moves = before ++ during ++ after →
      (system options).Run server before u → (system options).Run u during v →
      StaysFinal hash u during v) ↔
    ∀ m ∈ moves, SparesFinal options hash m.1 m.2 := by
  constructor
  · intro stays m member
    obtain ⟨before, after, rfl⟩ := List.append_of_mem member
    obtain ⟨v, first, stepped, -⟩ := run.cut
    have one : (system options).Run m.1 ([] ++ [(m.1, m.2)]) v := .snoc .nil stepped
    have stretch := stays before [(m.1, m.2)] after m.1 v (by simp) first one
    exact (final_step stepped).mp stretch
  · rintro spares before during after u v rfl - stretch
    apply final_run stretch
    intro m member
    exact spares m (List.mem_append_left _ (List.mem_append_right _ member))

end run

/-! ## A run

One intent is submitted, verified and reported as settled; then it is submitted again.
-/

namespace Sample

def hash : Hash := js "0xc5044497aae50b4712ffbe528161296b43fe3b08ca1944044ff7b251fae53f7e"

/-- Addresses without capital letters need no checksum. -/
def viem : Viem where
  isAddress s := s.length = 42 && s.take 2 = js "0x" &&
    (s.drop 2).all fun unit => isDigit unit || (97 ≤ unit && unit ≤ 102)
  toAddress s := BitVec.ofNat 160
    (((s.drop 2).filterMap Hex.value).foldl (fun n digit => 16 * n + digit) 0)

def options : Options := ⟨viem, none, fun _ => some hash⟩

def number (n : Nat) (small : n < 2 ^ 53) : JsValue :=
  .number (.integer ⟨n, natAbs_lt_of_small small.le, nearestDouble_natAbs small.le⟩)

def intent : JsValue := .object [
  (js "user", .string (js "0x0000000000000000000000000000000000005afe")),
  (js "destination", .string (js "GADQOBYHA4DQOBYHA4DQOBYHA4DQOBYHA4DQOBYHA4DQOBYHA4DQOZPI")),
  (js "sourceChainId", number 1 (by decide)),
  (js "sourceAsset", .string (js "0x00000000000000000000000000000000000070ce")),
  (js "sourceAmount", .string (js "100")),
  (js "destAsset", .string (js "native")),
  (js "minDestAmount", .string (js "90")),
  (js "deadline", number 1700010000 (by decide)),
  (js "nonce", .string (js "7")),
  (js "preferredSolver", .string zeroAddress)]

def body : JsValue := .object [
  (js "intent", intent),
  (js "signature", .string (js "0x" ++ List.replicate 130 49))]

def report (status : String) : Input :=
  .updateStatus none hash (.object [(js "status", .string (js status))])

def created : Server := ⟨.new none none, [], 0, 0⟩

def settling : List Input :=
  [.submit body 1700000000, .verified 0 true 1700000001, report "settled"]

def settled : Server := (System.replay (next options) created settling).get (by decide +kernel)

def late : List Input := [report "pending", .sweep 1700000030]

def swept : Server := (System.replay (next options) settled late).get (by decide +kernel)

def resubmitting : List Input := [.submit body 1700000040, .verified 0 true 1700000041]

def resubmitted : Server :=
  (System.replay (next options) settled resubmitting).get (by decide +kernel)

def lateMoves : List (Server × Input) := System.trail (next options) settled late

def resubmittingMoves : List (Server × Input) := System.trail (next options) settled resubmitting

theorem settled_reachable : (system options).Reachable settled := by
  have start : (system options).Reachable created := .init ⟨none, none, rfl⟩
  apply start.later
  apply System.Later.of_replay (S := system options) (fun _ _ _ stepped => stepped)
  show System.replay (next options) created settling = some settled
  simp [settled]

theorem swept_run : (system options).Run settled lateMoves swept := by
  apply System.Run.of_replay (S := system options) (fun _ _ _ stepped => stepped)
  simp [swept]

theorem resubmitted_run : (system options).Run settled resubmittingMoves resubmitted := by
  apply System.Run.of_replay (S := system options) (fun _ _ _ stepped => stepped)
  simp [resubmitted]

end Sample

theorem statuses_final_sample : StaysFinal Sample.hash Sample.settled Sample.lateMoves Sample.swept := by
  have stretches := statuses_final Sample.swept_run Sample.hash
  refine stretches.mpr ?_ [] Sample.lateMoves [] _ _ (by simp) .nil Sample.swept_run
  intro m member
  have input := System.input_of_trail member
  simp only [Sample.late, Sample.report, List.mem_cons, List.not_mem_nil, or_false] at input
  rcases input with reported | swept
  · rw [reported]
    trivial
  · rw [swept]
    trivial

/-- A submission of a settled intent makes it pending again. -/
theorem settled_status_reset :
    (system Sample.options).Reachable Sample.settled ∧
      (system Sample.options).Run Sample.settled Sample.resubmittingMoves Sample.resubmitted ∧
      (Sample.settled.store.get Sample.hash).map MempoolIntentRecord.status = some .settled ∧
      (∀ m ∈ Sample.resubmittingMoves, (m.1.store.get Sample.hash).isSome) ∧
      (Sample.resubmitted.store.get Sample.hash).map MempoolIntentRecord.status = some .pending := by
  obtain ⟨before, present, later⟩ :
      (Sample.settled.store.get Sample.hash).map MempoolIntentRecord.status = some .settled ∧
      (Sample.resubmittingMoves.all fun m => (m.1.store.get Sample.hash).isSome) = true ∧
      (Sample.resubmitted.store.get Sample.hash).map MempoolIntentRecord.status = some .pending := by
    decide +kernel
  exact ⟨Sample.settled_reachable, Sample.resubmitted_run, before, List.all_eq_true.mp present, later⟩

end Perihelion.Mempool
