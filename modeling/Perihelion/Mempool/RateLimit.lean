import Perihelion.Lib.InsertionMap
import Perihelion.Lib.SlidingWindow
import Perihelion.Sdk.Intent

/-! # The rate limits of the mempool server

Reads and writes of a client are limited apart from each other.  The server keeps for each of
the two when it has admitted something, and forgets what is older than the window whenever it
admits more.
-/

namespace Perihelion.Mempool

open Sdk (JsString js)
open SlidingWindow (Fades Keeps Spaced)

/-- Reads and writes draw on separate budgets. -/
inductive LimitKind
  | read
  | write
  deriving DecidableEq

def LimitKind.text : LimitKind → JsString
  | .read => js "read"
  | .write => js "write"

inductive Route
  | healthz
  | readyz
  | metrics
  | info
  | submitIntent
  | getIntent
  | listIntents
  | updateStatus
  /-- The 404 of a route or method that does not exist. -/
  | unmatched
  deriving DecidableEq

/-- The middleware in front of the handler. -/
def Route.limiter : Route → Option LimitKind
  | .info | .getIntent | .listIntents => some .read
  | .submitIntent | .updateStatus => some .write
  | .healthz | .readyz | .metrics | .unmatched => none

structure RateLimits where
  rateLimitWindowMs : Int
  writeRateLimit : Nat
  readRateLimit : Nat

def RateLimits.ofOptions (rateLimitWindowMs : Option Int) (writeRateLimit readRateLimit : Option Nat) :
    RateLimits where
  rateLimitWindowMs := rateLimitWindowMs.getD 60000
  writeRateLimit := writeRateLimit.getD 60
  readRateLimit := readRateLimit.getD 600

def RateLimits.limit (limits : RateLimits) : LimitKind → Nat
  | .read => limits.readRateLimit
  | .write => limits.writeRateLimit

/-- A request as the limiter sees it. -/
structure Request where
  route : Route
  /-- `req.ip`. -/
  ip : Option JsString
  now : Int

/-- Requests of no known address are those of one client. -/
def Request.client (req : Request) : JsString := req.ip.getD (js "unknown")

structure RateLimiter where
  rateLimitHits : InsertionMap JsString (List Int)
  rateLimitRejections : Nat

def hitKey (kind : LimitKind) (client : JsString) : JsString := kind.text ++ js ":" ++ client

def RateLimiter.hits (limiter : RateLimiter) (kind : LimitKind) (client : JsString) : List Int :=
  (limiter.rateLimitHits.get (hitKey kind client)).getD []

def RateLimits.recent (limits : RateLimits) (now t : Int) : Bool := now - t < limits.rateLimitWindowMs

/-- Whether `next()` is called, the answer being 429 where it is not. -/
def rateLimit (limits : RateLimits) (kind : LimitKind) (limiter : RateLimiter) (req : Request) :
    Bool × RateLimiter :=
  let hits := (limiter.hits kind req.client).filter (limits.recent req.now)
  if limits.limit kind ≤ hits.length then
    (false, { limiter with rateLimitRejections := limiter.rateLimitRejections + 1 })
  else
    (true, { limiter with
      rateLimitHits := limiter.rateLimitHits.set (hitKey kind req.client) (hits ++ [req.now]) })

def RateLimiter.handle (limits : RateLimits) (limiter : RateLimiter) (req : Request) : Bool × RateLimiter :=
  match req.route.limiter with
  | none => (true, limiter)
  | some kind => rateLimit limits kind limiter req

/-- The limiter, and every request so far with whether it has been admitted. -/
structure Served where
  limiter : RateLimiter
  log : List (Request × Bool)

def Served.next (limits : RateLimits) (served : Served) (req : Request) : Served where
  limiter := (served.limiter.handle limits req).2
  log := served.log ++ [(req, (served.limiter.handle limits req).1)]

def serve (limits : RateLimits) (requests : List Request) : Served :=
  requests.foldl (Served.next limits) ⟨⟨InsertionMap.empty, 0⟩, []⟩

/-- When requests of a client that are limited as a kind have been admitted. -/
def admitted (kind : LimitKind) (client : JsString) (log : List (Request × Bool)) : List Int :=
  (log.filter fun entry => entry.1.route.limiter = some kind ∧ entry.1.client = client ∧ entry.2).map
    fun entry => entry.1.now

theorem serve_snoc (limits : RateLimits) (requests : List Request) (req : Request) :
    serve limits (requests ++ [req]) = (serve limits requests).next limits req := by
  rw [serve, List.foldl_append]
  rfl

theorem hitKey_inj {kind kind' : LimitKind} {client client' : JsString} :
    hitKey kind client = hitKey kind' client' ↔ kind = kind' ∧ client = client' := by
  constructor
  · intro same
    cases kind with
    | read =>
        cases kind' with
        | read => exact ⟨rfl, List.append_cancel_left same⟩
        | write => cases same
    | write =>
        cases kind' with
        | read => cases same
        | write => exact ⟨rfl, List.append_cancel_left same⟩
  · rintro ⟨rfl, rfl⟩
    rfl

theorem RateLimits.recent_fades (limits : RateLimits) : Fades limits.recent := by
  intro now later t ahead still
  have recent := of_decide_eq_true still
  exact decide_eq_true (by omega)

theorem admitted_snoc (kind : LimitKind) (client : JsString) (log : List (Request × Bool)) (req : Request)
    (ok : Bool) :
    admitted kind client (log ++ [(req, ok)]) =
      if req.route.limiter = some kind ∧ req.client = client ∧ ok then
        admitted kind client log ++ [req.now]
      else admitted kind client log := by
  unfold admitted
  rw [List.filter_append, List.map_append]
  split
  · rename_i counted
    simp [counted]
  · rename_i other
    rw [List.filter_singleton, decide_eq_false other]
    simp

/-- At `now` the hits are as good as everything that has been admitted. -/
structure Tracks (limits : RateLimits) (now : Int) (served : Served) : Prop where
  keeps : ∀ kind client, Keeps limits.recent now (served.limiter.hits kind client)
    (admitted kind client served.log)
  spaced : ∀ kind client, Spaced limits.recent (limits.limit kind) (admitted kind client served.log)
  past : ∀ kind client, ∀ t ∈ admitted kind client served.log, t ≤ now

theorem RateLimiter.hits_set (limiter : RateLimiter) (rejections : Nat) (kind kind' : LimitKind)
    (client client' : JsString) (times : List Int) :
    ({ rateLimitHits := limiter.rateLimitHits.set (hitKey kind client) times
       rateLimitRejections := rejections } : RateLimiter).hits kind' client' =
      if kind' = kind ∧ client' = client then times else limiter.hits kind' client' := by
  unfold RateLimiter.hits
  dsimp only
  rw [InsertionMap.get_set]
  by_cases same : kind' = kind ∧ client' = client
  · rw [if_pos same, if_pos (hitKey_inj.mpr same), Option.getD_some]
  · rw [if_neg same, if_neg fun equal => same (hitKey_inj.mp equal)]

section serve

variable {limits : RateLimits} {now : Int} {served : Served} {req : Request}

theorem Tracks.start (limits : RateLimits) (now : Int) : Tracks limits now (serve limits []) where
  keeps _ _ _ _ := rfl
  spaced _ _ := .nil
  past _ _ _ member := by cases member

/-- Time passes. -/
theorem Tracks.later {next : Int} (tracks : Tracks limits now served) (ahead : now ≤ next) :
    Tracks limits next served where
  keeps kind client := (tracks.keeps kind client).later ahead
  spaced := tracks.spaced
  past kind client t member := Int.le_trans (tracks.past kind client t member) ahead

/-- What is answered without being admitted under a limit changes nothing that counts. -/
theorem Tracks.unlimited (tracks : Tracks limits now served) {ok : Bool} {limiter : RateLimiter}
    (hits : limiter.rateLimitHits = served.limiter.rateLimitHits)
    (free : req.route.limiter = none ∨ ok = false) :
    Tracks limits now ⟨limiter, served.log ++ [(req, ok)]⟩ := by
  have same (kind : LimitKind) (client : JsString) :
      admitted kind client (served.log ++ [(req, ok)]) = admitted kind client served.log := by
    rw [admitted_snoc, if_neg]
    rintro ⟨limited, -, admitted⟩
    rcases free with none | rejected
    · rw [none] at limited
      cases limited
    · rw [rejected] at admitted
      cases admitted
  constructor
  case keeps =>
    intro kind client
    rw [same, RateLimiter.hits, hits]
    exact tracks.keeps kind client
  case spaced =>
    intro kind client
    rw [same]
    exact tracks.spaced kind client
  case past =>
    intro kind client
    rw [same]
    exact tracks.past kind client

/-- What is counted is what has been admitted in the window. -/
theorem Tracks.count (tracks : Tracks limits req.now served) (kind : LimitKind) :
    (served.limiter.hits kind req.client).filter (limits.recent req.now) =
      (admitted kind req.client served.log).filter (limits.recent req.now) :=
  tracks.keeps kind req.client req.now (Int.le_refl _)

theorem Tracks.limited (tracks : Tracks limits req.now served) {kind : LimitKind}
    (limited : req.route.limiter = some kind)
    (few : ((served.limiter.hits kind req.client).filter (limits.recent req.now)).length <
      limits.limit kind) (rejections : Nat) :
    Tracks limits req.now
      ⟨⟨served.limiter.rateLimitHits.set (hitKey kind req.client)
          ((served.limiter.hits kind req.client).filter (limits.recent req.now) ++ [req.now]), rejections⟩,
        served.log ++ [(req, true)]⟩ := by
  have cases' (kind' : LimitKind) (client : JsString) :
      (kind' = kind ∧ client = req.client) ∧
          admitted kind' client (served.log ++ [(req, true)]) =
            admitted kind' client served.log ++ [req.now] ∨
        ¬ (kind' = kind ∧ client = req.client) ∧
          admitted kind' client (served.log ++ [(req, true)]) = admitted kind' client served.log := by
    rw [admitted_snoc, limited]
    by_cases here : kind' = kind ∧ client = req.client
    · obtain ⟨rfl, rfl⟩ := here
      exact .inl ⟨⟨rfl, rfl⟩, if_pos ⟨rfl, rfl, rfl⟩⟩
    · refine .inr ⟨here, if_neg ?_⟩
      rintro ⟨same, same', -⟩
      exact here ⟨(Option.some.inj same).symm, same'.symm⟩
  constructor
  case keeps =>
    intro kind' client
    rw [RateLimiter.hits_set]
    rcases cases' kind' client with ⟨here, log⟩ | ⟨there, log⟩
    · obtain ⟨rfl, rfl⟩ := here
      rw [if_pos ⟨rfl, rfl⟩, log]
      exact ((tracks.keeps kind' req.client).prune limits.recent_fades).push req.now
    · rw [if_neg there, log]
      exact tracks.keeps kind' client
  case spaced =>
    intro kind' client
    rcases cases' kind' client with ⟨here, log⟩ | ⟨_, log⟩
    · obtain ⟨rfl, rfl⟩ := here
      rw [log]
      rw [tracks.count] at few
      exact .snoc (tracks.spaced kind' req.client) (tracks.past kind' req.client) few
    · rw [log]
      exact tracks.spaced kind' client
  case past =>
    intro kind' client t member
    rcases cases' kind' client with ⟨_, log⟩ | ⟨_, log⟩
    · rw [log] at member
      rcases List.mem_append.mp member with earlier | last
      · exact tracks.past kind' client t earlier
      · exact Int.le_of_eq (List.mem_singleton.mp last)
    · rw [log] at member
      exact tracks.past kind' client t member

/-- One request.  If it is rejected, then because of what the window holds. -/
theorem Tracks.next (tracks : Tracks limits req.now served) :
    Tracks limits req.now (served.next limits req) ∧
      ((served.limiter.handle limits req).1 = false → ∃ kind, req.route.limiter = some kind ∧
        limits.limit kind ≤
          ((admitted kind req.client served.log).filter (limits.recent req.now)).length) := by
  unfold Served.next RateLimiter.handle
  cases limited : req.route.limiter with
  | none => exact ⟨tracks.unlimited rfl (.inl limited), nofun⟩
  | some kind =>
      simp only [rateLimit]
      split
      · rename_i full
        rw [tracks.count] at full
        exact ⟨tracks.unlimited rfl (.inr rfl), fun _ => ⟨kind, rfl, full⟩⟩
      · rename_i few
        exact ⟨tracks.limited limited (Nat.lt_of_not_le few) _, nofun⟩

theorem serve_tracks {requests : List Request} (ordered : requests.Pairwise fun a b => a.now ≤ b.now) :
    ∀ now, (∀ req ∈ requests, req.now ≤ now) → Tracks limits now (serve limits requests) := by
  induction requests using List.reverseRecOn with
  | nil => exact fun now _ => .start limits now
  | append_singleton requests req ih =>
      intro now before
      obtain ⟨earlier, -, order⟩ := List.pairwise_append.mp ordered
      have tracks : Tracks limits req.now (serve limits requests) :=
        ih earlier req.now fun other member => order other member req (List.mem_singleton_self req)
      rw [serve_snoc]
      exact tracks.next.1.later (before req (by simp))

theorem serve_rejected {requests : List Request} (ordered : requests.Pairwise fun a b => a.now ≤ b.now)
    {before after : List (Request × Bool)}
    (rejected : (serve limits requests).log = before ++ (req, false) :: after) :
    ∃ kind, req.route.limiter = some kind ∧
      limits.limit kind ≤ ((admitted kind req.client before).filter fun t =>
        req.now - limits.rateLimitWindowMs < t ∧ t ≤ req.now).length := by
  induction requests using List.reverseRecOn generalizing after with
  | nil => simp [serve] at rejected
  | append_singleton requests last ih =>
      obtain ⟨earlier, -, order⟩ := List.pairwise_append.mp ordered
      rw [serve_snoc, Served.next] at rejected
      cases after using List.reverseRecOn with
      | append_singleton after other =>
          rw [← List.cons_append, ← List.append_assoc] at rejected
          exact ih earlier (List.append_inj_left' rejected rfl)
      | nil =>
          obtain ⟨same, verdict⟩ := List.append_inj' rejected rfl
          obtain ⟨rfl, refused⟩ := Prod.mk.inj (List.head_eq_of_cons_eq verdict)
          have tracks : Tracks limits last.now (serve limits requests) :=
            serve_tracks earlier last.now fun other member => order other member last (List.mem_singleton_self last)
          obtain ⟨kind, limited, full⟩ := tracks.next.2 refused
          rw [same] at full
          refine ⟨kind, limited, Nat.le_trans full (Nat.le_of_eq (congrArg List.length ?_))⟩
          apply List.filter_congr
          intro t member
          have past := tracks.past kind last.client t (same ▸ member)
          simp only [RateLimits.recent]
          apply decide_eq_decide.mpr
          omega

end serve

/-- No half-open interval as long as the window holds more admitted requests of a client and a kind
    than the limit, and whatever is rejected finds as many in the window before it. -/
theorem rate_limited (limits : RateLimits) {requests : List Request}
    (ordered : requests.Pairwise fun a b => a.now ≤ b.now) :
    (∀ kind client start,
      ((admitted kind client (serve limits requests).log).filter fun t =>
        start ≤ t ∧ t < start + limits.rateLimitWindowMs).length ≤ limits.limit kind ∧
      ((admitted kind client (serve limits requests).log).filter fun t =>
        start < t ∧ t ≤ start + limits.rateLimitWindowMs).length ≤ limits.limit kind) ∧
    ∀ before req after, (serve limits requests).log = before ++ (req, false) :: after →
      ∃ kind, req.route.limiter = some kind ∧
        limits.limit kind ≤ ((admitted kind req.client before).filter fun t =>
          req.now - limits.rateLimitWindowMs < t ∧ t ≤ req.now).length := by
  constructor
  · intro kind client start
    obtain ⟨now, last⟩ : ∃ now, ∀ req ∈ requests, req.now ≤ now := by
      induction ordered with
      | nil => exact ⟨0, by simp⟩
      | @cons req rest _ _ ih =>
          obtain ⟨now, last⟩ := ih
          refine ⟨max req.now now, fun other member => ?_⟩
          rcases List.mem_cons.mp member with rfl | later
          · omega
          · have bound := last other later
            omega
    have spaced := (@serve_tracks limits _ ordered now last).spaced kind client
    constructor
    all_goals
      apply spaced.length_filter_le
      intro earlier t first second _
      have low := of_decide_eq_true first
      have high := of_decide_eq_true second
      exact decide_eq_true (by omega)
  · intro before req after rejected
    exact serve_rejected ordered rejected

namespace Sample

/-- Two writes every 100 ms. -/
def limits : RateLimits := .ofOptions (some 100) (some 2) none

def post (now : Int) : Request := ⟨.submitIntent, some (js "::1"), now⟩

/-- Reads do not count for the writes. -/
def requests : List Request := [post 0, ⟨.listIntents, some (js "::1"), 5⟩, post 40, post 99, post 100]

end Sample

theorem rate_limited_sample :
    (serve Sample.limits Sample.requests).log.map Prod.snd = [true, true, true, false, true] ∧
      ((admitted .write (js "::1") (serve Sample.limits Sample.requests).log).filter fun t =>
        0 ≤ t ∧ t < 0 + Sample.limits.rateLimitWindowMs).length ≤ 2 := by
  have ordered : Sample.requests.Pairwise fun a b => a.now ≤ b.now := by
    simp [Sample.requests, Sample.post]
  exact ⟨by decide +kernel, ((rate_limited Sample.limits ordered).1 .write (js "::1") 0).1⟩

end Perihelion.Mempool
