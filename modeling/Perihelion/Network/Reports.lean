import Perihelion.Escrow.IntentHash
import Perihelion.Mempool.Readable
import Perihelion.Network.Machine
import Perihelion.Network.Services

/-! # What the mempool's statuses mean

A user waits for `settled`, and asks for a refund unless the status says that there has been one.
Both statuses are written on reports only, and a report is made of an event of the escrow; so behind
each of them stands the payment, on Stellar or back to the user.
-/

namespace Perihelion.Network

open Transition TypedData
open Sdk (JsString js)
open Relayer (hexText)
open Relayer.RefundScan (Backed)
open SolverNode.Released (Listed)
open Mempool (Hash IntentStatus MempoolIntentRecord Server Arrival RecordOrigin)

/-! ## Hashes as texts -/

theorem toLowerCase_text {hashes : List Bytes32} {hash : JsString} (member : hash ∈ texts hashes) :
    Relayer.toLowerCase hash = hash := by
  obtain ⟨h, -, rfl⟩ := List.mem_map.mp member
  exact Mempool.toLowerCase_isHashText (Mempool.hexText_hash h)

theorem hexText_inj {h h' : Bytes32}
    (same : hexText (Bytes32.toBytes h) = hexText (Bytes32.toBytes h')) : h = h' := by
  have digits := List.append_cancel_left same
  have bytes := congrArg Hex.parse digits
  rw [Hex.parse_text, Hex.parse_text, Option.some.injEq] at bytes
  rw [← Bytes32.ofBytes_toBytes h, bytes, Bytes32.ofBytes_toBytes]

theorem mem_texts {hashes : List Bytes32} {h : Bytes32} :
    hexText (Bytes32.toBytes h) ∈ texts hashes ↔ h ∈ hashes :=
  List.mem_map_of_injective fun _ _ => hexText_inj

theorem texts_subset {hashes more : List Bytes32} (subset : hashes ⊆ more) : texts hashes ⊆ texts more :=
  List.map_subset _ subset

/-! ## The escrow's events -/

theorem mem_releases {w : World} {h : Bytes32} :
    h ∈ w.releases ↔ ∃ event ∈ w.bridge.escrow.events, event.closing = some (.release h) := by
  unfold World.releases
  rw [List.mem_filterMap]
  refine exists_congr fun event => and_congr_right fun _ => ?_
  unfold releasedHash
  split <;> simp_all

theorem mem_refundings {w : World} {h : Bytes32} :
    h ∈ w.refundings ↔ ∃ event ∈ w.bridge.escrow.events, event.closing = some (.refund h) := by
  unfold World.refundings
  rw [List.mem_filterMap]
  refine exists_congr fun event => and_congr_right fun _ => ?_
  unfold refundedHash
  split <;> simp_all

/-- The escrow's log only grows. -/
theorem bridge_events {link : Bridge.Link} {horizon : Nat} {b b' : Bridge.World} {input : Bridge.Input}
    (stepped : Bridge.next link horizon b input = some b') :
    b.escrow.events ⊆ b'.escrow.events := by
  have grows {e e' : Escrow.World} {input : Escrow.Input}
      (stepped : Escrow.next link.escrow e input = some e') : e.events ⊆ e'.events := by
    obtain ⟨entries, log, -⟩ := Escrow.next_tells stepped
    have more : e'.events = e.events ++ entries := log
    rw [more]
    exact List.subset_append_left _ _
  obtain ⟨-, ran, -⟩ := Bridge.next_ok.mp stepped
  cases input with
  | escrow input =>
      obtain ⟨e, moved, rfl⟩ := Option.map_eq_some_iff.mp ran
      exact grows moved
  | settlement tx =>
      obtain ⟨s, -, rfl⟩ := Option.map_eq_some_iff.mp ran
      exact List.Subset.refl _
  | toSettlement params nonce timestamp sequence host =>
      obtain ⟨s, -, rfl⟩ := Option.map_eq_some_iff.mp ran
      exact List.Subset.refl _
  | toEscrow params nonce value timestamp host =>
      obtain ⟨e, moved, rfl⟩ := Option.map_eq_some_iff.mp ran
      exact grows moved

/-! ## The invariant -/

/-- A status that reports a closing of the lock has an event behind it. -/
def Backs (w : World) (hash : JsString) : IntentStatus → Prop
  | .settled => hash ∈ texts w.releases
  | .refunded => hash ∈ texts w.refundings
  | .pending | .filled | .expired => True

/-- Nothing that has happened on the escrow is undone. -/
structure Grows (w w' : World) : Prop where
  releases : w.releases ⊆ w'.releases
  refundings : w.refundings ⊆ w'.refundings

theorem Grows.of_events {w w' : World}
    (events : w.bridge.escrow.events ⊆ w'.bridge.escrow.events) : Grows w w' where
  releases := List.filterMap_subset _ events
  refundings := List.filterMap_subset _ events

theorem Backs.grows {w w' : World} {hash : JsString} {status : IntentStatus}
    (backs : Backs w hash status) (grows : Grows w w') : Backs w' hash status := by
  cases status with
  | settled => exact texts_subset grows.releases backs
  | refunded => exact texts_subset grows.refundings backs
  | pending | filled | expired => trivial

/-- The server asks for the hash in lower case. -/
theorem Backs.lower {w : World} {hash : JsString} {status : IntentStatus}
    (backs : Backs w hash status) : Backs w (Relayer.toLowerCase hash) status := by
  cases status with
  | settled =>
      have same : Relayer.toLowerCase hash = hash := toLowerCase_text backs
      rw [same]
      exact backs
  | refunded =>
      have same : Relayer.toLowerCase hash = hash := toLowerCase_text backs
      rw [same]
      exact backs
  | pending | filled | expired => trivial

/-- Whatever the services hold, report or have had written goes back to an event of the escrow. -/
structure Sound (n : Setting) (w : World) : Prop where
  bridge : (Bridge.system n.link n.horizon).Reachable w.bridge
  server : n.mempool.system.Reachable w.server
  listed : Listed (fun event => event.intentHash ∈ texts w.releases) w.released
  backed : Backed (fun event => event.intentHash ∈ w.refundings) n.link.escrow.keccak256 w.refunds
    w.refunds.phase.pending
  reports : ∀ report ∈ w.reports, Backs w report.intentHash report.status
  statuses : ∀ hash record, w.server.store.get hash = some record → Backs w hash record.status

section invariant

variable {n : Setting} {w w' : World}

theorem Start.sound (start : Start n w) : Sound n w where
  bridge := .init start.bridge
  server := .init start.server
  listed := by
    rw [start.released]
    exact .create
  backed := by
    obtain ⟨maxBlockRange, chain, begun, shown⟩ := start.refunds
    rw [begun]
    exact Relayer.RefundScan.Backed.start shown
  reports := by
    rw [start.reports]
    exact fun _ member => by cases member
  statuses := by
    obtain ⟨maxSize, expiryGraceMs, fresh⟩ := start.server
    rw [fresh]
    exact fun _ _ found => by cases found

/-- The escrow has gone on, and the rest is as it was. -/
theorem Sound.bridged (sound : Sound n w) {b : Bridge.World}
    (reach : (Bridge.system n.link n.horizon).Reachable b)
    (events : w.bridge.escrow.events ⊆ b.escrow.events) : Sound n { w with bridge := b } := by
  have grows : Grows w { w with bridge := b } := .of_events events
  constructor
  case bridge => exact reach
  case server => exact sound.server
  case listed => exact sound.listed.mono fun event there => texts_subset grows.releases there
  case backed => exact sound.backed.mono fun event there => grows.refundings there
  case reports => exact fun report member => (sound.reports report member).grows grows
  case statuses => exact fun hash record found => (sound.statuses hash record found).grows grows

/-- More is reported, all of it of what has happened. -/
theorem Sound.reporting (sound : Sound n w) {reports : List Report}
    (new : ∀ report ∈ reports, Backs w report.intentHash report.status) :
    ∀ report ∈ w.reports ++ reports, Backs w report.intentHash report.status := by
  intro report member
  rcases List.mem_append.mp member with old | added
  · exact sound.reports report old
  · exact new report added

theorem backs_asked {released : SolverNode.Released.World}
    (listed : Listed (fun event => event.intentHash ∈ texts w.releases) released) :
    ∀ report ∈ asked released, Backs w report.intentHash report.status := by
  intro report member
  obtain ⟨poll, there, asks⟩ := List.mem_filterMap.mp member
  split at asks
  · rename_i head first last event rest waits
    cases asks
    have inside : event ∈ SolverNode.Released.listed poll.frame := by
      rw [waits]
      exact List.mem_cons_self
    exact listed poll there event inside
  · cases asks

/-- An update that the server takes is a report. -/
theorem Sound.served (sound : Sound n w) {arrival : Arrival n.link.escrow} {server : Server}
    (authorized : w.Authorizes n arrival) (stepped : n.mempool.next w.server arrival = some server)
    {hash : Hash} {record : MempoolIntentRecord} (found : server.store.get hash = some record) :
    Backs w hash record.status := by
  cases Mempool.next_origin stepped found with
  | kept _ before => exact sound.statuses hash record before
  | updated authorization rawHash body status old called valid before live =>
      cases arrival with
      | submit | verified | sweep => cases called
      | updateStatus authorization' rawHash' body' =>
          cases called
          have taken : (hash, status) ∈
              (Mempool.validateUpdate n.mempool.options authorization rawHash body).toOption := by
            rw [valid]
            rfl
          obtain ⟨report, member, same⟩ := authorized _ taken
          cases same
          exact (sound.reports report member).lower
  | written => trivial

theorem Sound.step {input : Input n.link.escrow} (sound : Sound n w)
    (stepped : next n w input = some w') : Sound n w' := by
  cases input with
  | bridge input =>
      obtain ⟨b, moved, rfl⟩ := Option.map_eq_some_iff.mp stepped
      exact sound.bridged (.step sound.bridge moved) (bridge_events moved)
  | released input =>
      simp only [next] at stepped
      split at stepped
      · rename_i answers
        obtain ⟨released, moved, rfl⟩ := Option.map_eq_some_iff.mp stepped
        have listed : Listed (fun event => event.intentHash ∈ texts w.releases) released := by
          refine sound.listed.next ?_ moved
          rintro k events rfl
          exact answers
        exact {
          bridge := sound.bridge
          server := sound.server
          listed := listed
          backed := sound.backed
          reports := sound.reporting (backs_asked listed)
          statuses := sound.statuses }
      · cases stepped
  | refunds input =>
      simp only [next] at stepped
      split at stepped
      · rename_i shows
        obtain ⟨refunds, moved, rfl⟩ := Option.map_eq_some_iff.mp stepped
        have backed : Backed (fun event => event.intentHash ∈ w.refundings) n.link.escrow.keccak256
            refunds refunds.phase.pending := by
          refine sound.backed.next ?_ moved
          rintro chain rfl
          exact shows
        refine {
          bridge := sound.bridge
          server := sound.server
          listed := sound.listed
          backed := backed
          reports := sound.reporting ?_
          statuses := sound.statuses }
        intro report member
        obtain ⟨observation, passed, rfl⟩ := List.mem_map.mp member
        obtain ⟨event, holds, rfl⟩ := backed.passed observation (List.mem_of_mem_drop passed)
        exact mem_texts.mpr holds
      · cases stepped
  | reportFilled hash =>
      cases stepped
      refine {
        bridge := sound.bridge
        server := sound.server
        listed := sound.listed
        backed := sound.backed
        reports := sound.reporting ?_
        statuses := sound.statuses }
      intro report member
      cases List.mem_singleton.mp member
      trivial
  | server arrival =>
      simp only [next] at stepped
      split at stepped
      · rename_i authorized
        obtain ⟨server, moved, rfl⟩ := Option.map_eq_some_iff.mp stepped
        exact {
          bridge := sound.bridge
          server := .step sound.server moved
          listed := sound.listed
          backed := sound.backed
          reports := sound.reports
          statuses := fun hash record found => sound.served authorized moved found }
      · cases stepped

theorem sound_of_reachable (reach : (system n).Reachable w) : Sound n w := by
  refine reach.invariant (P := Sound n) ?_ ?_
  · exact fun w start => start.sound
  · exact fun w input w' _ sound stepped => sound.step stepped

end invariant

/-! ## The promise -/

/-- The same intent, or a collision of keccak on two strings that were hashed. -/
def SameIntent (d : Escrow.Deployment) (intent intent' : Escrow.Intent) : Prop :=
  intent.typed = intent'.typed ∨
    Collide d.keccak256 (Escrow.hashedFor d intent) (Escrow.hashedFor d intent')

theorem same_of_hash {d : Escrow.Deployment} {intent intent' : Escrow.Intent}
    (same : Escrow.hashIntent d intent = Escrow.hashIntent d intent') : SameIntent d intent intent' := by
  rw [Escrow.hashIntent_typed, Escrow.hashIntent_typed] at same
  rcases hashTypedData_binds same with ⟨-, intents⟩ | collide
  · exact Or.inl intents
  · exact Or.inr collide

/-- What stands behind a record that the mempool serves, and behind its status. -/
structure Meant (n : Setting) (w : World) (hash : Hash) (record : MempoolIntentRecord)
    (message : Escrow.Intent) : Prop where
  encoded : Sdk.toMessage n.mempool.viem record.intent = some message
  /-- It stands under the escrow's hash of its own intent, and names this hash itself. -/
  key : hash = hexText (Bytes32.toBytes (Escrow.hashIntent n.link.escrow message))
  named : record.hash = hash
  /-- The recipient has been paid on Stellar, and the solver by the escrow. -/
  settled : record.status = .settled → ∃ intent row,
    Bridge.Fulfilled n.link w.bridge (Escrow.hashIntent n.link.escrow message) intent row ∧
      SameIntent n.link.escrow message intent
  /-- The user has been paid back, once and all that was locked. -/
  refunded : record.status = .refunded → ∃ intent,
    Escrow.Opened n.link.escrow w.bridge.escrow (Escrow.hashIntent n.link.escrow message) intent ∧
      SameIntent n.link.escrow message intent ∧
      w.bridge.escrow.funds.payouts (Escrow.hashIntent n.link.escrow message) =
        [⟨.refund (Escrow.hashIntent n.link.escrow message), intent.sourceAsset, intent.user,
          (w.bridge.escrow.locks (Escrow.hashIntent n.link.escrow message)).amount⟩]

section promise

variable {n : Setting} {w : World} {hash : Hash} {record : MempoolIntentRecord}

/-- A record stands under the hash of its own intent. -/
theorem stored_named (fits : n.mempool.Fits) (reach : n.mempool.system.Reachable w.server)
    (stored : w.server.store.get hash = some record) :
    record.hash = hash ∧ ∃ message, Sdk.toMessage n.mempool.viem record.intent = some message ∧
      hash = hexText (Bytes32.toBytes (Escrow.hashIntent n.link.escrow message)) := by
  have ran : ∃ first moves, n.mempool.system.init first ∧
      n.mempool.system.Run first moves w.server := by
    refine reach.invariant (P := fun server => ∃ first moves, n.mempool.system.init first ∧
      n.mempool.system.Run first moves server) ?_ ?_
    · exact fun server init => ⟨server, [], init, .nil⟩
    · intro server arrival server' _ before stepped
      obtain ⟨first, moves, init, run⟩ := before
      exact ⟨first, _, init, run.snoc stepped⟩
  obtain ⟨first, moves, init, run⟩ := ran
  obtain ⟨named, hashed, -⟩ := Mempool.stored_verified init run hash record stored
  obtain ⟨message, encoded, given⟩ := Mempool.stored_message reach hashed stored
  exact ⟨named, message, given, Mempool.hashIntent_onchain fits encoded hashed⟩

theorem Sound.released (sound : Sound n w) (early : n.horizon < uint64) {h : Bytes32}
    (settled : h ∈ w.releases) : (w.bridge.escrow.locks h).released = true := by
  obtain ⟨event, member, closing⟩ := mem_releases.mp settled
  exact Escrow.released_of_event (Bridge.coherent_of_reachable early sound.bridge).escrow member closing

theorem Sound.refunded (sound : Sound n w) (early : n.horizon < uint64) {h : Bytes32}
    (refunded : h ∈ w.refundings) :
    ∃ intent, Escrow.Opened n.link.escrow w.bridge.escrow h intent ∧
      w.bridge.escrow.funds.payouts h =
        [⟨.refund h, intent.sourceAsset, intent.user, (w.bridge.escrow.locks h).amount⟩] := by
  have reach := (Bridge.coherent_of_reachable early sound.bridge).escrow
  obtain ⟨event, member, closing⟩ := mem_refundings.mp refunded
  obtain ⟨flag, payouts⟩ := Escrow.refunded_of_event reach member closing
  have recorded : (w.bridge.escrow.locks h).user ≠ 0 := by
    intro vacant
    have live := (Escrow.accounted_of_reachable reach h).vacant vacant
    have final : (w.bridge.escrow.locks h).finalized = true := by simp [Escrow.Lock.finalized, flag]
    exact Bool.noConfusion (final.symm.trans live)
  obtain ⟨intent, opened⟩ := Escrow.opened_of_reachable reach recorded
  refine ⟨intent, opened, ?_⟩
  rw [← opened.asset, ← opened.user]
  exact payouts

theorem Sound.meant (sound : Sound n w) (early : n.horizon < uint64) (fits : n.mempool.Fits)
    (stored : w.server.store.get hash = some record) : ∃ message, Meant n w hash record message := by
  obtain ⟨named, message, encoded, onchain⟩ := stored_named fits sound.server stored
  have backs := sound.statuses hash record stored
  rw [onchain] at backs
  refine ⟨message, encoded, onchain, named, ?_, ?_⟩
  · intro settled
    rw [settled] at backs
    have repaid := Bridge.repaid_of_reachable early sound.bridge _
      (sound.released early (mem_texts.mp backs))
    obtain ⟨intent, row, fulfilled⟩ := repaid.fulfilled (Bridge.coherent_of_reachable early sound.bridge)
      (Bridge.named_of_reachable early sound.bridge)
    exact ⟨intent, row, fulfilled, same_of_hash fulfilled.commissioned.hash.symm⟩
  · intro refunded
    rw [refunded] at backs
    obtain ⟨intent, opened, payouts⟩ := sound.refunded early (mem_texts.mp backs)
    exact ⟨intent, opened, same_of_hash opened.hash.symm, payouts⟩

/-- In every state that the network can reach, a record shown as settled is of an intent whose
    recipient has been paid, and one shown as refunded of an intent whose user has. -/
theorem statuses_mean (early : n.horizon < uint64) (fits : n.mempool.Fits)
    (reach : (system n).Reachable w) (stored : w.server.store.get hash = some record) :
    ∃ message, Meant n w hash record message :=
  (sound_of_reachable reach).meant early fits stored

end promise

namespace Sample

def setting : Setting where
  link := Bridge.Sample.link
  horizon := Bridge.Sample.lastSecond
  watching := ⟨some 5, 2000⟩
  confirmations := 12
  mempool := Mempool.Sample.settings

theorem none_mined : ∀ event ∈ ([] : List Relayer.RefundScan.RefundEvent), event.blockNumber ≤ 0 :=
  fun _ member => by cases member

def start : World where
  bridge := Bridge.Sample.start
  released := .create ⟨some 5, 2000⟩
  refunds := .start 12 none ⟨0, [], none_mined⟩
  server := Mempool.Sample.created
  reports := []

theorem start_start : Start setting start where
  bridge := Bridge.Sample.start_start
  released := rfl
  refunds := ⟨none, ⟨0, [], none_mined⟩, rfl, fun _ member => by cases member⟩
  server := ⟨none, none, rfl⟩
  reports := rfl

def repaying : List Bridge.Input :=
  Bridge.Sample.run Escrow.Sample.intent Settlement.Sample.solverEvm 1700000100 1700000200 1700000300 ++
    [.toEscrow (Bridge.Sample.confirmation Escrow.Sample.intentHash Settlement.Sample.solverEvm) 1 0
      1700000400 Escrow.Sample.host]

/-- The intent is stored, carried out and repaid; the watcher sees the release and reports it. -/
def inputs : List (Input setting.link.escrow) :=
  Mempool.Sample.arrivals.map .server ++ repaying.map .bridge ++
    [.released .start, .released (.resume 0 (.head 5)),
      .released (.resume 0 (.events [⟨Mempool.Sample.hash, 5, 0⟩])),
      .server (.updateStatus none Mempool.Sample.hash
        (.object [(js "status", .string (js "settled"))]))]

def settled : World := (System.replay (next setting) start inputs).get (by decide +kernel)

theorem settled_reachable : (system setting).Reachable settled := by
  have replayed : System.replay (next setting) start inputs = some settled := by
    simp [settled]
  exact (System.Reachable.init start_start).later
    (.of_replay (fun _ _ _ stepped => stepped) replayed)

theorem settled_stored : ∃ record, settled.server.store.get Mempool.Sample.hash = some record ∧
    record.status = .settled := by
  have found : (settled.server.store.get Mempool.Sample.hash).map MempoolIntentRecord.status =
      some .settled := by
    decide +kernel
  exact Option.map_eq_some_iff.mp found

end Sample

theorem statuses_mean_sample :
    ∃ record, Sample.settled.server.store.get Mempool.Sample.hash = some record ∧
      record.status = .settled ∧ ∃ message, Meant Sample.setting Sample.settled Mempool.Sample.hash record message := by
  obtain ⟨record, stored, status⟩ := Sample.settled_stored
  exact ⟨record, stored, status,
    statuses_mean (by decide) Mempool.Sample.settings_fits Sample.settled_reachable stored⟩

end Perihelion.Network
