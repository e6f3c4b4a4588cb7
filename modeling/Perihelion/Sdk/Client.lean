import Mathlib.Data.List.Destutter
import Mathlib.Data.List.Infix
import Perihelion.Lib.Logged
import Perihelion.Relayer.Text
import Perihelion.Sdk.Decimal
import Perihelion.Sdk.IntentRecord

/-! # The client of the mempool

`waitForSettlement` polls `getIntent` until a status is final, and `getIntent` tries again after
network errors and server errors.  What `fetch` comes to and what the clock says is given; what the
client does is logged.
-/

namespace Perihelion.Sdk

open Logged Fallible
open Relayer (toLowerCase)

namespace Client

/-! ## Exceptions -/

/-- What `fetch`, `text` or `json` may throw. -/
inductive Raised where
  /-- A `PerihelionTimeoutError`. -/
  | timeout (message : JsString)
  /-- Another `PerihelionError`. -/
  | perihelion (message : JsString)
  | error (name message : JsString)
  /-- Not an `Error`. -/
  | value (printed : JsString)

/-- `e instanceof Error ? e.message : String(e)`. -/
def Raised.text : Raised → JsString
  | .timeout message | .perihelion message | .error _ message => message
  | .value printed => printed

def Raised.isPerihelionError : Raised → Bool
  | .timeout _ | .perihelion _ => true
  | .error _ _ | .value _ => false

def isTimeoutError : Raised → Bool
  | .timeout _ => true
  | .error name message =>
      name = js "TimeoutError" || (name = js "AbortError" && js "timed out" <:+: toLowerCase message)
  | .perihelion _ | .value _ => false

def isAbortError : Raised → Bool
  | .timeout _ => true
  | .error name _ => name = js "AbortError" || name = js "TimeoutError"
  | .perihelion _ | .value _ => false

/-- What the client throws.  `raised` is passed on as it came. -/
inductive Failure where
  | timeout (message : JsString) (intentHash : Option JsString) (lastStatus : Option MempoolIntentStatus)
  | network (message operation : JsString)
  | http (operation : JsString) (status : Nat) (body : JsString)
  /-- `[Perihelion] <method>: hash must be a 32-byte 0x-prefixed hex string, got: <got as JSON>`. -/
  | hash (method got : JsString)
  | response (error : ResponseError)
  | raised (e : Raised)

/-- `isAbortError(e) || e instanceof PerihelionTimeoutError`. -/
def Failure.isTimeout : Failure → Bool
  | .timeout _ _ _ => true
  | .raised e => isAbortError e
  | .network _ _ | .http _ _ _ | .hash _ _ | .response _ => false

end Client

open Client

structure PerihelionClient where
  /-- The normalised URL of the mempool, without a slash at its end. -/
  base : JsString
  requestTimeoutMs : Nat
  maxRetries : Nat
  viem : Viem

namespace Client

structure Response where
  status : Nat
  text : Except Raised JsString
  json : Except Raised JsValue

def Response.ok (res : Response) : Bool := 200 ≤ res.status && res.status ≤ 299

inductive Effect where
  /-- With the timeouts, in milliseconds, of the signals that abort it: one that starts with the
      request, and one that has run since the poll began. -/
  | fetch (url : JsString) (perAttempt : Option Nat) (external : Option Int)
  | sleep (milliseconds : Int)
  | onStatus (status : MempoolIntentStatus) (record : IntentRecord)

abbrev Calling (α : Type) := Logged Effect Failure α

/-- `100 * 2 ** attempt`, and at most five seconds. -/
def backoff (attempt : Nat) : Nat := min (100 * 2 ^ attempt) 5000

variable (client : PerihelionClient)

/-- What `fetchWithRetry` throws on an exception, unless it tries again. -/
def refusal (operation : JsString) (e : Raised) : Failure :=
  if isAbortError e then
    if isTimeoutError e then
      .timeout (js "[Perihelion] " ++ operation ++ js " timed out after " ++
        decimal client.requestTimeoutMs ++ js "ms") none none
    else if e.isPerihelionError then .raised e
    else .network (js "[Perihelion] " ++ operation ++ js " aborted: " ++ e.text) operation
  else if e.isPerihelionError then .raised e
  else .network (js "[Perihelion] " ++ operation ++ js " network error: " ++ e.text) operation

/-- Whether a reply is worth another attempt. -/
def transient : Except Raised Response → Bool
  | .error e => !isAbortError e
  | .ok res => 500 ≤ res.status

def fetchWithRetry (operation url : JsString) (external : Option Int) :
    Nat → List (Except Raised Response) → Calling Response
  | _, [] => wait
  | attempt, reply :: replies => do
      note (.fetch url (if 0 < client.requestTimeoutMs then some client.requestTimeoutMs else none)
        external)
      if transient reply ∧ attempt < client.maxRetries then do
        note (.sleep (backoff attempt))
        fetchWithRetry operation url external (attempt + 1) replies
      else
        match reply with
        | .error e => fail (refusal client operation e)
        | .ok res => pure res

/-- `new URL` leaves such a path as it is. -/
def intentUrl (method hash : JsString) : Except Failure JsString := do
  require (isHash hash) (.hash method hash)
  return client.base ++ js "/intents/" ++ toLowerCase hash

def readRecord (res : Response) : Except Failure IntentRecord :=
  if res.ok then
    match res.json with
    | .error e =>
        .error (.network (js "[Perihelion] getIntent failed to parse JSON: " ++ e.text)
          (js "getIntent"))
    | .ok json => (parseIntentRecord client.viem json).mapError .response
  else
    match res.text with
    | .error e => .error (.raised e)
    | .ok body => .error (.http (js "getIntent") res.status body)

def getIntent (hash : JsString) (external : Option Int) (replies : List (Except Raised Response)) :
    Calling IntentRecord := do
  let url ← ofExcept (intentUrl client (js "getIntent") hash)
  let res ← fetchWithRetry client (js "getIntent") url external 0 replies
  ofExcept (readRecord client res)

/-! ## `waitForSettlement` -/

/-- The clock at the beginning of a poll and after it, and what the requests of it come to. -/
structure Poll where
  before : Int
  replies : List (Except Raised Response)
  after : Int

/-- The statuses that end the wait. -/
def terminal : MempoolIntentStatus → Bool
  | .settled | .refunded | .expired => true
  | .pending | .filled => false

def timedOut (hash : JsString) (lastStatus : Option MempoolIntentStatus) : Failure :=
  .timeout (js "[Perihelion] waitForSettlement timed out for " ++ hash ++ js " (last status: " ++
    (lastStatus.map MempoolIntentStatus.text).getD (js "unknown") ++ js ")") (some hash) lastStatus

/-- The `catch` around a poll. -/
def rethrow (hash : JsString) (lastStatus : Option MempoolIntentStatus) (failure : Failure) : Failure :=
  if failure.isTimeout then timedOut hash lastStatus else failure

/-- A call whose exceptions are caught and thrown again. -/
def caught {α : Type} (again : Failure → Failure) (call : Calling α) : Calling α :=
  match call.ending with
  | .failed failure => ⟨call.log, .failed (again failure)⟩
  | _ => call

/-- The signal of a poll: the shorter of the deadline and the timeout of a request. -/
def perRequest (remaining : Int) : Int :=
  if 0 < client.requestTimeoutMs then min remaining client.requestTimeoutMs else remaining

/-- A change of the status is told. -/
def tell (lastStatus : Option MempoolIntentStatus) (record : IntentRecord) : Calling PUnit :=
  if some record.status = lastStatus then pure ⟨⟩ else note (.onStatus record.status record)

/-- The pause before the next poll, unless the time is over. -/
def pause (interval remaining : Int) : Calling PUnit :=
  if 0 < remaining then note (.sleep (min interval remaining)) else pure ⟨⟩

/-- The `for (;;)`. -/
def polling (hash : JsString) (interval deadline : Int) :
    Option MempoolIntentStatus → List Poll → Calling IntentRecord
  | _, [] => wait
  | lastStatus, poll :: polls => do
      let remaining := deadline - poll.before
      if remaining ≤ 0 then fail (timedOut hash lastStatus)
      else do
        let record ← caught (rethrow hash lastStatus)
          (getIntent client hash (some (perRequest client remaining)) poll.replies)
        tell lastStatus record
        if terminal record.status then pure record
        else do
          pause interval (deadline - poll.after)
          polling hash interval deadline (some record.status) polls

/-- `started` is the clock's time when it is called. -/
def waitForSettlement (hash : JsString) (intervalMs timeoutMs : Option Int) (started : Int)
    (polls : List Poll) : Calling IntentRecord :=
  polling client hash (intervalMs.getD 3000) (started + timeoutMs.getD 300000) none polls

/-! ## One request -/

/-- How many requests are made. -/
def requests (log : List Effect) : Nat :=
  log.countP fun effect =>
    match effect with
    | .fetch _ _ _ => true
    | _ => false

/-- The statuses that the caller is told. -/
def heard (log : List Effect) : List MempoolIntentStatus :=
  log.filterMap fun effect =>
    match effect with
    | .onStatus status _ => some status
    | _ => none

@[simp] theorem requests_append (log more : List Effect) :
    requests (log ++ more) = requests log + requests more := List.countP_append

@[simp] theorem heard_append (log more : List Effect) : heard (log ++ more) = heard log ++ heard more :=
  List.filterMap_append

/-- A request for `url`, and `left` more, each after the back-off that it is due. -/
def tries (client : PerihelionClient) (url : JsString) (external : Option Int) : Nat → Nat → List Effect
  | _, 0 => [.fetch url (if 0 < client.requestTimeoutMs then some client.requestTimeoutMs else none)
      external]
  | attempt, left + 1 =>
      .fetch url (if 0 < client.requestTimeoutMs then some client.requestTimeoutMs else none) external ::
        .sleep (backoff attempt) :: tries client url external (attempt + 1) left

section request

variable {client : PerihelionClient} {operation url hash : JsString} {external : Option Int}
  {attempt : Nat} {replies : List (Except Raised Response)} {record : IntentRecord} {res : Response}

theorem fetchWithRetry_cons (reply : Except Raised Response) :
    fetchWithRetry client operation url external attempt (reply :: replies) =
      after [.fetch url (if 0 < client.requestTimeoutMs then some client.requestTimeoutMs else none)
          external]
        (if transient reply ∧ attempt < client.maxRetries then
          after [.sleep (backoff attempt)]
            (fetchWithRetry client operation url external (attempt + 1) replies)
        else
          match reply with
          | .error e => fail (refusal client operation e)
          | .ok res => pure res) := rfl

theorem fetchWithRetry_tries {left : Nat} (room : attempt + left = client.maxRetries) :
    (fetchWithRetry client operation url external attempt replies).log <+:
      tries client url external attempt left := by
  induction replies generalizing attempt left with
  | nil => exact List.nil_prefix
  | cons reply replies ih =>
      rw [fetchWithRetry_cons, log_after, List.singleton_append]
      cases left with
      | zero =>
          have spent : ¬ (transient reply = true ∧ attempt < client.maxRetries) := fun again => by omega
          rw [if_neg spent]
          refine (List.prefix_cons_inj _).mpr ?_
          split
          · exact List.nil_prefix
          · exact List.nil_prefix
      | succ left =>
          refine (List.prefix_cons_inj _).mpr ?_
          split
          · exact (List.prefix_cons_inj _).mpr (ih (by omega))
          · split
            · exact List.nil_prefix
            · exact List.nil_prefix

theorem tries_requests (client : PerihelionClient) (url : JsString) (external : Option Int)
    (attempt left : Nat) : requests (tries client url external attempt left) = left + 1 := by
  induction left generalizing attempt with
  | zero => rfl
  | succ left ih =>
      have more := ih (attempt + 1)
      unfold requests at more ⊢
      simp only [tries, List.countP_cons_of_pos, Bool.false_eq_true, not_false_eq_true,
        List.countP_cons_of_neg, more]

theorem tries_heard (client : PerihelionClient) (url : JsString) (external : Option Int)
    (attempt left : Nat) : heard (tries client url external attempt left) = [] := by
  induction left generalizing attempt with
  | zero => rfl
  | succ left ih => exact ih (attempt + 1)

/-- What is returned is the first reply that is not worth another attempt, or the last one. -/
theorem fetchWithRetry_returned
    (returned : (fetchWithRetry client operation url external attempt replies).ending = .returned res) :
    .ok res ∈ replies := by
  induction replies generalizing attempt with
  | nil => cases returned
  | cons reply replies ih =>
      rw [fetchWithRetry_cons, ending_after] at returned
      split at returned
      · exact List.mem_cons_of_mem _ (ih returned)
      · split at returned
        · cases returned
        · cases returned
          exact List.mem_cons_self

theorem readRecord_ok : readRecord client res = .ok record ↔
    res.ok = true ∧ ∃ json, res.json = .ok json ∧ parseIntentRecord client.viem json = .ok record := by
  unfold readRecord
  cases res.ok with
  | false =>
      simp only [Bool.false_eq_true, if_false, false_and, iff_false]
      split
      · exact fun impossible => by cases impossible
      · exact fun impossible => by cases impossible
  | true =>
      simp only [if_true, true_and]
      cases res.json with
      | error e => simp
      | ok json =>
          cases parsed : parseIntentRecord client.viem json with
          | error e => simp [parsed, Except.mapError]
          | ok r => simp [parsed, Except.mapError]

/-- One of the replies is a success whose body parses as the record. -/
def Reads (client : PerihelionClient) (replies : List (Except Raised Response)) (record : IntentRecord) :
    Prop :=
  ∃ res, .ok res ∈ replies ∧ res.ok = true ∧ ∃ json, res.json = .ok json ∧
    parseIntentRecord client.viem json = .ok record

theorem getIntent_returned (returned : (getIntent client hash external replies).ending = .returned record) :
    isHash hash = true ∧ Reads client replies record := by
  simp only [getIntent, bind_returned, ofExcept_returned] at returned
  obtain ⟨url, named, res, fetched, read⟩ := returned
  simp only [intentUrl, bind_ok, require_ok] at named
  obtain ⟨-, valid, -⟩ := named
  obtain ⟨ok, json, body, parsed⟩ := readRecord_ok.mp read
  exact ⟨valid, res, fetchWithRetry_returned fetched, ok, json, body, parsed⟩

/-- The path of the intent. -/
def intentPath (client : PerihelionClient) (hash : JsString) : JsString :=
  client.base ++ js "/intents/" ++ toLowerCase hash

theorem getIntent_log (client : PerihelionClient) (hash : JsString) (external : Option Int)
    (replies : List (Except Raised Response)) :
    (getIntent client hash external replies).log <+:
      tries client (intentPath client hash) external 0 client.maxRetries := by
  unfold getIntent
  cases named : intentUrl client (js "getIntent") hash with
  | error failure => exact List.nil_prefix
  | ok url =>
      have path : url = intentPath client hash := by
        simp only [intentUrl, bind_ok, require_ok, pure_ok] at named
        exact named.choose_spec.2.symm
      subst path
      have log : ((ofExcept (.ok (intentPath client hash)) : Calling JsString) >>= fun url => do
          let res ← fetchWithRetry client (js "getIntent") url external 0 replies
          ofExcept (readRecord client res)).log =
            (fetchWithRetry client (js "getIntent") (intentPath client hash) external 0 replies).log := by
        rw [bind_of_returned (a := intentPath client hash) rfl, log_after, log_ofExcept, List.nil_append]
        rcases log_bind (fetchWithRetry client (js "getIntent") (intentPath client hash) external 0 replies)
          fun res => ofExcept (readRecord client res) with same | ⟨res, -, same⟩
        · exact same
        · rw [same, log_ofExcept, List.append_nil]
      rw [log]
      exact fetchWithRetry_tries (Nat.zero_add _)

end request

/-! ## The whole wait -/

/-- The statuses that differ from the one before. -/
def changes : Option MempoolIntentStatus → List MempoolIntentStatus → List MempoolIntentStatus
  | _, [] => []
  | last, status :: rest =>
      if some status = last then changes last rest else status :: changes (some status) rest

theorem changes_some (status : MempoolIntentStatus) (rest : List MempoolIntentStatus) :
    status :: changes (some status) rest = rest.destutter' (· ≠ ·) status := by
  induction rest generalizing status with
  | nil => rfl
  | cons next rest ih =>
      rw [changes, List.destutter'_cons]
      by_cases same : next = status
      · subst same
        rw [if_pos rfl, if_neg (fun differs => differs rfl), ih]
      · rw [if_neg fun equal => same (Option.some.inj equal), if_pos (Ne.symm same), ih]

theorem changes_none (statuses : List MempoolIntentStatus) :
    changes none statuses = statuses.destutter (· ≠ ·) := by
  cases statuses with
  | nil => rfl
  | cons status rest =>
      rw [changes, if_neg (by simp), changes_some]
      rfl

/-- What a poll sets off: the tries of its request, then the news of a change, then the pause. -/
structure Asks (client : PerihelionClient) (hash : JsString) (interval deadline : Int) (poll : Poll)
    (events : List Effect) : Prop where
  begun : poll.before < deadline
  /-- The signal that has run since the poll began fires at the deadline or before it. -/
  fires : poll.before + perRequest client (deadline - poll.before) ≤ deadline
  parts : ∃ asked told paused, events = asked ++ told ++ paused ∧
    asked <+: tries client (intentPath client hash)
      (some (perRequest client (deadline - poll.before))) 0 client.maxRetries ∧
    (told = [] ∨ ∃ status record, told = [.onStatus status record]) ∧
    (paused = [] ∨ 0 < deadline - poll.after ∧
      paused = [.sleep (min interval (deadline - poll.after))])

/-- A wait that has read `records`, one from each of the first polls, and set off `logs`, one for
    each poll that began. -/
structure Waited (client : PerihelionClient) (hash : JsString) (interval deadline : Int)
    (polls : List Poll) (lastStatus : Option MempoolIntentStatus) (records : List IntentRecord)
    (logs : List (List Effect)) (call : Calling IntentRecord) : Prop where
  read : List.Forall₂ (fun poll record => poll.before < deadline ∧
    Reads client poll.replies record) (polls.take records.length) records
  /-- Only the last one can be final. -/
  unsettled : ∀ record ∈ records.dropLast, terminal record.status = false
  told : heard call.log = changes lastStatus (records.map fun record => record.status)
  returned : ∀ record, call.ending = .returned record ↔
    records.getLast? = some record ∧ terminal record.status = true
  expired : ∀ failure, call.ending = .failed failure → failure.isTimeout = true →
    failure = timedOut hash ((records.getLast?.map fun record => record.status).or lastStatus)
  logged : call.log = logs.flatten
  asks : List.Forall₂ (Asks client hash interval deadline) (polls.take logs.length) logs
  begun : records.length ≤ logs.length ∧ logs.length ≤ records.length + 1

section wait

variable {client : PerihelionClient} {hash : JsString} {interval deadline : Int} {poll : Poll}
  {polls : List Poll} {lastStatus : Option MempoolIntentStatus} {records : List IntentRecord}
  {logs : List (List Effect)} {record : IntentRecord}

theorem perRequest_le (client : PerihelionClient) (remaining : Int) :
    perRequest client remaining ≤ remaining := by
  unfold perRequest
  split
  · exact min_le_left _ _
  · exact le_refl _

theorem caught_log (again : Failure → Failure) (call : Calling IntentRecord) :
    (caught again call).log = call.log := by
  unfold caught
  split
  · rfl
  · rfl

theorem caught_returned (again : Failure → Failure) (call : Calling IntentRecord) :
    (caught again call).ending = .returned record ↔ call.ending = .returned record := by
  unfold caught
  split
  · rename_i failed
    rw [failed]
    simp
  · exact Iff.rfl

theorem caught_failed (again : Failure → Failure) (call : Calling IntentRecord) {failure : Failure}
    (failed : (caught again call).ending = .failed failure) : ∃ first, failure = again first := by
  unfold caught at failed
  split at failed
  · rename_i first _
    cases failed
    exact ⟨first, rfl⟩
  · rename_i unfailed
    exact absurd failed (unfailed failure)

theorem rethrow_isTimeout {failure : Failure}
    (timeout : (rethrow hash lastStatus failure).isTimeout = true) :
    rethrow hash lastStatus failure = timedOut hash lastStatus := by
  unfold rethrow at timeout ⊢
  split
  · rfl
  · rename_i other
    rw [if_neg other] at timeout
    exact absurd timeout other

theorem tell_returned (lastStatus : Option MempoolIntentStatus) (record : IntentRecord) :
    (tell lastStatus record).ending = .returned ⟨⟩ := by
  unfold tell
  split
  · rfl
  · rfl

theorem tell_log (lastStatus : Option MempoolIntentStatus) (record : IntentRecord) :
    ((tell lastStatus record).log = [] ∨
        ∃ status record', (tell lastStatus record).log = [.onStatus status record']) ∧
      heard (tell lastStatus record).log = changes lastStatus [record.status] := by
  unfold tell
  rw [changes]
  split
  · exact ⟨Or.inl rfl, rfl⟩
  · exact ⟨Or.inr ⟨_, _, rfl⟩, rfl⟩

theorem pause_returned (interval remaining : Int) :
    (pause interval remaining).ending = .returned ⟨⟩ := by
  unfold pause
  split
  · rfl
  · rfl

theorem pause_log (interval remaining : Int) :
    ((pause interval remaining).log = [] ∨
        0 < remaining ∧ (pause interval remaining).log = [.sleep (min interval remaining)]) ∧
      heard (pause interval remaining).log = [] := by
  unfold pause
  split
  · rename_i left
    exact ⟨Or.inr ⟨left, rfl⟩, rfl⟩
  · exact ⟨Or.inl rfl, rfl⟩

theorem changes_cons (lastStatus : Option MempoolIntentStatus) (status : MempoolIntentStatus)
    (rest : List MempoolIntentStatus) :
    changes lastStatus (status :: rest) =
      changes lastStatus [status] ++ changes (some status) rest := by
  rw [changes, changes]
  split
  · rename_i same
    rw [same]
    rfl
  · rfl

theorem asked_tries (client : PerihelionClient) (hash : JsString) (again : Failure → Failure)
    (external : Option Int) (replies : List (Except Raised Response)) :
    (caught again (getIntent client hash external replies)).log <+:
      tries client (intentPath client hash) external 0 client.maxRetries := by
  rw [caught_log]
  exact getIntent_log client hash external replies

/-- Of the tries the caller hears nothing. -/
theorem asked_heard (client : PerihelionClient) (hash : JsString) (again : Failure → Failure)
    (external : Option Int) (replies : List (Except Raised Response)) :
    heard (caught again (getIntent client hash external replies)).log = [] := by
  obtain ⟨more, whole⟩ := asked_tries client hash again external replies
  have silent := tries_heard client (intentPath client hash) external 0 client.maxRetries
  rw [← whole, heard_append] at silent
  exact (List.append_eq_nil_iff.mp silent).1

theorem asks_of_parts (again : Failure → Failure) (begun : poll.before < deadline) {told paused : List Effect}
    (news : told = [] ∨ ∃ status record, told = [.onStatus status record])
    (rest : paused = [] ∨ 0 < deadline - poll.after ∧
      paused = [.sleep (min interval (deadline - poll.after))]) :
    Asks client hash interval deadline poll ((caught again (getIntent client hash
      (some (perRequest client (deadline - poll.before))) poll.replies)).log ++ told ++ paused) where
  begun := begun
  fires := by
    have short := perRequest_le client (deadline - poll.before)
    omega
  parts := ⟨_, told, paused, rfl, asked_tries client hash again _ _, news, rest⟩

theorem Asks.requests_le {events : List Effect} (asks : Asks client hash interval deadline poll events) :
    requests events ≤ client.maxRetries + 1 := by
  obtain ⟨asked, told, paused, rfl, part, news, rest⟩ := asks.parts
  have few : requests asked ≤ requests (tries client (intentPath client hash)
      (some (perRequest client (deadline - poll.before))) 0 client.maxRetries) :=
    part.countP_le
  rw [tries_requests] at few
  have quiet : requests told = 0 ∧ requests paused = 0 := by
    constructor
    · rcases news with rfl | ⟨status, record, rfl⟩
      · rfl
      · rfl
    · rcases rest with rfl | ⟨-, rfl⟩
      · rfl
      · rfl
  rw [requests_append, requests_append, quiet.1, quiet.2]
  exact few

/-- Nothing is read any more: no poll is left, the time is over, or a poll has failed. -/
theorem Waited.stopped {call : Calling IntentRecord} (logged : call.log = logs.flatten)
    (asks : List.Forall₂ (Asks client hash interval deadline) (polls.take logs.length) logs)
    (few : logs.length ≤ 1) (told : heard call.log = [])
    (returned : ∀ record, call.ending ≠ .returned record)
    (expired : ∀ failure, call.ending = .failed failure → failure.isTimeout = true →
      failure = timedOut hash lastStatus) :
    Waited client hash interval deadline polls lastStatus [] logs call where
  read := .nil
  unsettled := fun _ member => by cases member
  told := told
  returned record := by simp [returned record]
  expired := expired
  logged := logged
  asks := asks
  begun := ⟨Nat.zero_le _, few⟩

/-- The record of this poll is final. -/
theorem Waited.final {events : List Effect} (begun : poll.before < deadline)
    (reads : Reads client poll.replies record) (final : terminal record.status = true)
    (told : heard events = changes lastStatus [record.status])
    (asks : Asks client hash interval deadline poll events) :
    Waited client hash interval deadline (poll :: polls) lastStatus [record] [events]
      (after events (pure record)) where
  read := .cons ⟨begun, reads⟩ .nil
  unsettled := fun _ member => by cases member
  told := by
    rw [log_after, log_pure, List.append_nil]
    exact told
  returned other := by
    constructor
    · intro same
      cases same
      exact ⟨rfl, final⟩
    · rintro ⟨last, -⟩
      cases last
      rfl
  expired failure failed := by cases failed
  logged := rfl
  asks := .cons asks .nil
  begun := ⟨Nat.le_refl 1, Nat.le_succ 1⟩

/-- It is not, and the wait goes on. -/
theorem Waited.again {rest : Calling IntentRecord} {events : List Effect}
    (begun : poll.before < deadline) (reads : Reads client poll.replies record)
    (open_ : terminal record.status = false) (told : heard events = changes lastStatus [record.status])
    (asks : Asks client hash interval deadline poll events)
    (later : Waited client hash interval deadline polls (some record.status) records logs rest) :
    Waited client hash interval deadline (poll :: polls) lastStatus (record :: records)
      (events :: logs) (after events rest) where
  read := .cons ⟨begun, reads⟩ later.read
  unsettled other member := by
    cases records with
    | nil => cases member
    | cons next records =>
        rw [List.dropLast_cons_cons] at member
        rcases List.mem_cons.mp member with rfl | member
        · exact open_
        · exact later.unsettled other member
  told := by
    rw [log_after, heard_append, told, later.told, List.map_cons,
      changes_cons lastStatus record.status (records.map fun record => record.status)]
  returned other := by
    rw [ending_after, later.returned]
    cases records with
    | nil =>
        constructor
        · rintro ⟨last, -⟩
          cases last
        · rintro ⟨last, final⟩
          rw [List.getLast?_singleton, Option.some_inj] at last
          rw [← last, open_] at final
          cases final
    | cons next records => rw [List.getLast?_cons_cons]
  expired failure failed timeout := by
    rw [later.expired failure failed timeout]
    cases records with
    | nil => rfl
    | cons next records =>
        rw [List.getLast?_cons_cons]
        cases last : (next :: records).getLast? with
        | none => simp at last
        | some record => rfl
  logged := by
    rw [log_after, later.logged, List.flatten_cons]
  asks := .cons asks later.asks
  begun := ⟨Nat.succ_le_succ later.begun.1, Nat.succ_le_succ later.begun.2⟩

theorem polling_cons : polling client hash interval deadline lastStatus (poll :: polls) =
    if deadline - poll.before ≤ 0 then fail (timedOut hash lastStatus)
    else caught (rethrow hash lastStatus) (getIntent client hash
        (some (perRequest client (deadline - poll.before))) poll.replies) >>= fun record =>
      tell lastStatus record >>= fun _ =>
        if terminal record.status then pure record
        else pause interval (deadline - poll.after) >>= fun _ =>
          polling client hash interval deadline (some record.status) polls := rfl

/-- By induction on the polls: each reads a record and goes on, or is the last one. -/
theorem polling_waited (client : PerihelionClient) (hash : JsString) (interval deadline : Int)
    (lastStatus : Option MempoolIntentStatus) (polls : List Poll) :
    ∃ records logs, Waited client hash interval deadline polls lastStatus records logs
      (polling client hash interval deadline lastStatus polls) := by
  induction polls generalizing lastStatus with
  | nil =>
      exact ⟨[], [], .stopped rfl .nil (Nat.zero_le 1) rfl (fun _ ended => by cases ended)
        (fun _ ended => by cases ended)⟩
  | cons poll polls ih =>
      rw [polling_cons]
      split
      case isTrue late =>
        refine ⟨[], [], .stopped rfl .nil (Nat.zero_le 1) rfl (fun _ ended => by cases ended) ?_⟩
        intro failure ended _
        cases ended
        rfl
      case isFalse within =>
        have begun : poll.before < deadline := by omega
        have silent := asked_heard client hash (rethrow hash lastStatus)
          (some (perRequest client (deadline - poll.before))) poll.replies
        have asks {told paused : List Effect} := @asks_of_parts client hash interval deadline poll
          (rethrow hash lastStatus) begun told paused
        generalize call : caught (rethrow hash lastStatus) (getIntent client hash
          (some (perRequest client (deadline - poll.before))) poll.replies) = asked at silent asks ⊢
        by_cases returned : ∃ record, asked.ending = .returned record
        · obtain ⟨record, returned⟩ := returned
          have reads : Reads client poll.replies record := by
            rw [← call, caught_returned] at returned
            exact (getIntent_returned returned).2
          obtain ⟨news, told⟩ := tell_log lastStatus record
          obtain ⟨rest, unheard⟩ := pause_log interval (deadline - poll.after)
          rw [bind_of_returned returned, bind_of_returned (tell_returned lastStatus record),
            after_after]
          cases final : terminal record.status with
          | true =>
              have whole := asks news (.inl rfl)
              rw [List.append_nil] at whole
              exact ⟨[record], [_], .final begun reads final (by rw [heard_append, silent, told]; rfl) whole⟩
          | false =>
              obtain ⟨records, logs, later⟩ := ih (some record.status)
              rw [if_neg Bool.false_ne_true,
                bind_of_returned (pause_returned interval (deadline - poll.after)), after_after]
              refine ⟨record :: records, _ :: logs, .again begun reads final ?_ (asks news rest) later⟩
              rw [heard_append, heard_append, silent, told, unheard, List.nil_append, List.append_nil]
        · have unreturned : ∀ record, asked.ending ≠ .returned record :=
            fun record ended => returned ⟨record, ended⟩
          rw [bind_of_unreturned unreturned]
          have whole := asks (.inl rfl) (.inl rfl)
          rw [List.append_nil, List.append_nil] at whole
          refine ⟨[], [asked.log], .stopped (List.append_nil _).symm (.cons whole .nil) (Nat.le_refl 1) silent
            unreturned ?_⟩
          intro failure ended timeout
          obtain ⟨first, rfl⟩ := caught_failed _ _ (call ▸ ended)
          exact rethrow_isTimeout timeout

end wait

/-- Whatever the requests come to and whatever the clock says, the caller hears of every change of
    the status and of nothing else, and is given the first final record that a poll has read, or
    the status last read when the time is over.  The log is that of the polls, one after the other:
    each sets off its own tries under a signal that fires by the deadline, and its own pause. -/
theorem settlement_awaited (client : PerihelionClient) (hash : JsString)
    (intervalMs timeoutMs : Option Int) (started : Int) (polls : List Poll) :
    let interval := intervalMs.getD 3000
    let deadline := started + timeoutMs.getD 300000
    let call := waitForSettlement client hash intervalMs timeoutMs started polls
    ∃ (records : List IntentRecord) (logs : List (List Effect)),
      List.Forall₂ (fun poll record => poll.before < deadline ∧ Reads client poll.replies record)
        (polls.take records.length) records ∧
      (∀ record ∈ records.dropLast, terminal record.status = false) ∧
      heard call.log = (records.map fun record => record.status).destutter (· ≠ ·) ∧
      (∀ record, call.ending = .returned record ↔
        records.getLast? = some record ∧ terminal record.status = true) ∧
      (∀ failure, call.ending = .failed failure → failure.isTimeout = true →
        failure = timedOut hash (records.getLast?.map fun record => record.status)) ∧
      call.log = logs.flatten ∧
      (records.length ≤ logs.length ∧ logs.length ≤ records.length + 1) ∧
      List.Forall₂ (fun poll events => Asks client hash interval deadline poll events ∧
        requests events ≤ client.maxRetries + 1) (polls.take logs.length) logs := by
  intro interval deadline call
  obtain ⟨records, logs, waited⟩ := polling_waited client hash interval deadline none polls
  refine ⟨records, logs, waited.read, waited.unsettled, ?_, waited.returned, ?_, waited.logged,
    waited.begun, waited.asks.imp fun _ _ asks => ⟨asks, asks.requests_le⟩⟩
  · rw [← changes_none]
    exact waited.told
  · intro failure failed timeout
    rw [waited.expired failure failed timeout, Option.or_none]

end Client

end Perihelion.Sdk
