import Perihelion.Lib.RecentlyUsed
import Perihelion.SolverNode.Tick

/-! # What the caches drop

`SeenLRU` and `RetryStateLRU` keep the order of use in the order of their maps.  Whatever is
called, what they hold are the hashes that were touched last.
-/

namespace Perihelion.SolverNode

open Sdk DeadlineCache

/-! ## The seen hashes -/

inductive SeenCall
  | add (hash : JsString) (deadlineMs : Int)
  | has (hash : JsString)
  | evictExpired

namespace SeenLRU

def call (seen : SeenLRU) (now : Int) : SeenCall → SeenLRU
  | .add hash deadlineMs => seen.add hash deadlineMs now
  | .has hash => (seen.has hash now).1
  | .evictExpired => seen.evictExpired now

/-- An `add`, or a `has` that has returned true. -/
def touched (seen : SeenLRU) (now : Int) : SeenCall → List JsString
  | .add hash _ => [hash]
  | .has hash => if (seen.has hash now).2 then [hash] else []
  | .evictExpired => []

/-- After some calls, each at a time. -/
def after (seen : SeenLRU) : List (Int × SeenCall) → SeenLRU
  | [] => seen
  | (now, call) :: rest => (SeenLRU.call seen now call).after rest

def touches (seen : SeenLRU) : List (Int × SeenCall) → List JsString
  | [] => []
  | (now, call) :: rest =>
      SeenLRU.touched seen now call ++ touches (SeenLRU.call seen now call) rest

/-- At no call an entry's deadline has passed. -/
def Unexpired (seen : SeenLRU) : List (Int × SeenCall) → Prop
  | [] => True
  | (now, call) :: rest => DeadlineCache.Fresh seen now ∧ Unexpired (SeenLRU.call seen now call) rest

instance decidableUnexpired (seen : SeenLRU) : (calls : List (Int × SeenCall)) →
    Decidable (SeenLRU.Unexpired seen calls)
  | [] => isTrue trivial
  | (now, call) :: rest =>
      have := decidableUnexpired (SeenLRU.call seen now call) rest
      inferInstanceAs (Decidable (_ ∧ _))

variable {seen : SeenLRU} {now : Int} {earlier : List JsString}

theorem call_remembers {last : JsString → Option Int} (remembers : seen.Remembers earlier last)
    (fresh : DeadlineCache.Fresh seen now) (positive : 1 ≤ seen.maxSize) (call : SeenCall) :
    (SeenLRU.call seen now call).maxSize = seen.maxSize ∧ ∃ last,
      (SeenLRU.call seen now call).Remembers (earlier ++ SeenLRU.touched seen now call) last := by
  cases call with
  | add hash deadlineMs => exact ⟨insert_maxSize .., _, remembers.insert positive hash now deadlineMs⟩
  | has hash => exact ⟨lookup_maxSize .., last, remembers.lookup fresh positive hash⟩
  | evictExpired =>
      have same : SeenLRU.call seen now .evictExpired = seen := fresh.dropExpired
      rw [same, SeenLRU.touched, List.append_nil]
      exact ⟨rfl, last, remembers⟩

theorem after_remembers {last : JsString → Option Int} (remembers : seen.Remembers earlier last)
    (positive : 1 ≤ seen.maxSize) {calls : List (Int × SeenCall)} (fresh : SeenLRU.Unexpired seen calls) :
    (SeenLRU.after seen calls).maxSize = seen.maxSize ∧ ∃ last,
      (SeenLRU.after seen calls).Remembers (earlier ++ SeenLRU.touches seen calls) last := by
  induction calls generalizing seen earlier last with
  | nil =>
      rw [SeenLRU.touches, List.append_nil]
      exact ⟨rfl, last, remembers⟩
  | cons first rest ih =>
      obtain ⟨here, later⟩ := fresh
      obtain ⟨size, last', next⟩ := call_remembers remembers here positive first.2
      have run := ih next (size ▸ positive) later
      rw [size, List.append_assoc] at run
      exact run

end SeenLRU

/-! ## The retries -/

inductive RetryCall
  | set (hash : JsString) (state : RetryState) (deadlineMs : Int)
  | get (hash : JsString)
  | evictExpired

namespace RetryStateLRU

def call (retryState : RetryStateLRU) (now : Int) : RetryCall → RetryStateLRU
  | .set hash state deadlineMs => retryState.set hash state deadlineMs
  | .get hash => (retryState.get hash now).1
  | .evictExpired => retryState.evictExpired now

def touched (retryState : RetryStateLRU) (now : Int) : RetryCall → List JsString
  | .set hash _ _ => [hash]
  | .get hash => if (retryState.get hash now).2.isSome then [hash] else []
  | .evictExpired => []

def after (retryState : RetryStateLRU) : List (Int × RetryCall) → RetryStateLRU
  | [] => retryState
  | (now, call) :: rest => (RetryStateLRU.call retryState now call).after rest

def touches (retryState : RetryStateLRU) : List (Int × RetryCall) → List JsString
  | [] => []
  | (now, call) :: rest =>
      RetryStateLRU.touched retryState now call ++ touches (RetryStateLRU.call retryState now call) rest

def Unexpired (retryState : RetryStateLRU) : List (Int × RetryCall) → Prop
  | [] => True
  | (now, call) :: rest =>
      DeadlineCache.Fresh retryState now ∧ Unexpired (RetryStateLRU.call retryState now call) rest

instance decidableUnexpired (retryState : RetryStateLRU) : (calls : List (Int × RetryCall)) →
    Decidable (RetryStateLRU.Unexpired retryState calls)
  | [] => isTrue trivial
  | (now, call) :: rest =>
      have := decidableUnexpired (RetryStateLRU.call retryState now call) rest
      inferInstanceAs (Decidable (_ ∧ _))

/-- The last state set for each hash, on top of what was set before. -/
def lastSet (before : JsString → Option RetryState) : List (Int × RetryCall) → JsString → Option RetryState
  | [] => before
  | (_, .set hash state _) :: rest => lastSet (fun other => if other = hash then some state else before other) rest
  | (_, .get _) :: rest | (_, .evictExpired) :: rest => lastSet before rest

variable {retryState : RetryStateLRU} {now : Int} {earlier : List JsString}

theorem after_remembers {last : JsString → Option RetryState} (remembers : retryState.Remembers earlier last)
    (positive : 1 ≤ retryState.maxSize) {calls : List (Int × RetryCall)}
    (fresh : RetryStateLRU.Unexpired retryState calls) :
    (RetryStateLRU.after retryState calls).maxSize = retryState.maxSize ∧
      (RetryStateLRU.after retryState calls).Remembers (earlier ++ RetryStateLRU.touches retryState calls)
        (lastSet last calls) := by
  induction calls generalizing retryState earlier last with
  | nil =>
      rw [RetryStateLRU.touches, List.append_nil]
      exact ⟨rfl, remembers⟩
  | cons first rest ih =>
      obtain ⟨now, call⟩ := first
      obtain ⟨here, later⟩ := fresh
      rw [RetryStateLRU.touches, ← List.append_assoc]
      cases call with
      | set hash state deadlineMs =>
          have size := retryState.insert_maxSize hash state deadlineMs
          have run := ih (remembers.insert positive hash state deadlineMs) (size ▸ positive) later
          rw [size] at run
          exact run
      | get hash =>
          have size := retryState.lookup_maxSize now hash
          have run := ih (remembers.lookup here positive hash) (size ▸ positive) later
          rw [size] at run
          exact run
      | evictExpired =>
          have same : RetryStateLRU.call retryState now .evictExpired = retryState := here.dropExpired
          rw [same] at later
          have run := ih remembers positive later
          rw [RetryStateLRU.after, same, RetryStateLRU.touched, List.append_nil]
          exact run

end RetryStateLRU

/-- Both caches are those of the least recent use, as long as nothing expires. -/
theorem least_recent_dropped {maxSize : Nat} (positive : 1 ≤ maxSize) :
    (∀ calls, SeenLRU.Unexpired (.empty maxSize) calls →
      (SeenLRU.after (.empty maxSize) calls).keys =
          lastDistinct maxSize (SeenLRU.touches (.empty maxSize) calls) ∧
        (SeenLRU.after (.empty maxSize) calls).size ≤ maxSize ∧
        ∀ hash now, DeadlineCache.Fresh (SeenLRU.after (.empty maxSize) calls) now →
          ((SeenLRU.has (SeenLRU.after (.empty maxSize) calls) hash now).2 = true ↔
            hash ∈ (SeenLRU.after (.empty maxSize) calls).keys)) ∧
    ∀ calls, RetryStateLRU.Unexpired (.empty maxSize) calls →
      (RetryStateLRU.after (.empty maxSize) calls).keys =
          lastDistinct maxSize (RetryStateLRU.touches (.empty maxSize) calls) ∧
        (RetryStateLRU.after (.empty maxSize) calls).size ≤ maxSize ∧
        ∀ hash now, DeadlineCache.Fresh (RetryStateLRU.after (.empty maxSize) calls) now →
          (RetryStateLRU.get (RetryStateLRU.after (.empty maxSize) calls) hash now).2 =
            if hash ∈ (RetryStateLRU.after (.empty maxSize) calls).keys then
              RetryStateLRU.lastSet (fun _ => none) calls hash
            else none := by
  constructor
  · intro calls fresh
    obtain ⟨size, last, remembers⟩ := SeenLRU.after_remembers
      (remembers_empty maxSize fun _ => none) positive fresh
    have keys := remembers.keys
    have few := remembers.length_le
    rw [size] at keys few
    refine ⟨keys, by rw [size_eq]; exact few, fun hash now still => ?_⟩
    constructor
    · intro found
      by_contra gone
      rw [SeenLRU.has, lookup_of_not_mem gone] at found
      cases found
    · intro held
      obtain ⟨value, -, found⟩ := remembers.lookup_held still held
      rw [SeenLRU.has]
      dsimp only
      rw [found]
      rfl
  · intro calls fresh
    obtain ⟨size, remembers⟩ := RetryStateLRU.after_remembers
      (remembers_empty maxSize fun _ => none) positive fresh
    have keys := remembers.keys
    have few := remembers.length_le
    rw [size] at keys few
    refine ⟨keys, by rw [size_eq]; exact few, fun hash now still => ?_⟩
    by_cases held : hash ∈ (RetryStateLRU.after (.empty maxSize) calls).keys
    · obtain ⟨state, set, found⟩ := remembers.lookup_held still held
      rw [if_pos held, set]
      exact found
    · rw [if_neg held, RetryStateLRU.get, lookup_of_not_mem held]

namespace Sample

/-- The second hash goes, as the first one has been looked up after it. -/
def seenCalls : List (Int × SeenCall) :=
  [(0, .add (js "0x01") 100), (1, .add (js "0x02") 100), (2, .has (js "0x01")), (3, .has (js "0x03")),
    (4, .evictExpired), (5, .add (js "0x04") 100)]

/-- The same with retries, and the first one is set again. -/
def retryCalls : List (Int × RetryCall) :=
  [(0, .set (js "0x01") ⟨1, 50⟩ 100), (1, .set (js "0x02") ⟨1, 50⟩ 100), (2, .get (js "0x01")),
    (3, .set (js "0x01") ⟨2, 80⟩ 100), (4, .evictExpired), (5, .set (js "0x04") ⟨1, 50⟩ 100)]

end Sample

theorem least_recent_dropped_sample :
    (SeenLRU.after (.empty 2) Sample.seenCalls).keys = [js "0x01", js "0x04"] ∧
      (SeenLRU.after (.empty 2) Sample.seenCalls).keys =
        lastDistinct 2 (SeenLRU.touches (.empty 2) Sample.seenCalls) ∧
      (RetryStateLRU.after (.empty 2) Sample.retryCalls).keys =
        lastDistinct 2 (RetryStateLRU.touches (.empty 2) Sample.retryCalls) ∧
      (RetryStateLRU.get (RetryStateLRU.after (.empty 2) Sample.retryCalls) (js "0x01") 6).2 =
        some ⟨2, 80⟩ := by
  have seen : SeenLRU.Unexpired (.empty 2) Sample.seenCalls := by decide +kernel
  have retries : RetryStateLRU.Unexpired (.empty 2) Sample.retryCalls := by decide +kernel
  have fresh : DeadlineCache.Fresh (RetryStateLRU.after (.empty 2) Sample.retryCalls) 6 := by
    decide +kernel
  have held : js "0x01" ∈ (RetryStateLRU.after (.empty 2) Sample.retryCalls).keys := by
    decide +kernel
  obtain ⟨ofSeen, ofRetries⟩ := @least_recent_dropped 2 (by decide)
  obtain ⟨kept, -, found⟩ := ofRetries Sample.retryCalls retries
  refine ⟨by decide +kernel, (ofSeen Sample.seenCalls seen).1, kept, ?_⟩
  rw [found (js "0x01") 6 fresh, if_pos held]
  rfl

end Perihelion.SolverNode
