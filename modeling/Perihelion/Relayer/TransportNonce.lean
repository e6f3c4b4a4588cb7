import Mathlib.Data.List.Perm.Subperm
import Perihelion.Lib.Numbering
import Perihelion.Lib.Transition
import Perihelion.Relayer.EvmWatcher

/-! # One key for each log

The relayer counts its attempts by key, and the nonce is part of the key.  A nonce that comes
out of the receipt belongs to the log as long as it is that of its own packet.  One that comes
out of the counter is new each time, so that it belongs to the log only if the log is polled
once.
-/

namespace Perihelion.Relayer.Evm

open BigEndian Numbering Transition
open Escrow (LockedEvent addressWord)
open Sdk (JsString js nearestDouble nearestDouble_small)

structure Session where
  watcher : Watcher
  /-- What each poll that has not failed has returned. -/
  polls : List (List Observation)

def Session.poll (source : Source) (config : EVMSourceWatcherConfig) (s : Session)
    (replies : PollReplies) : Session :=
  let (messages, w) := Evm.poll source config replies s.watcher
  { watcher := w, polls := s.polls ++ messages.toOption.toList }

/-- The counter may have been in use before. -/
def system (source : Source) (config : EVMSourceWatcherConfig) : System Session PollReplies where
  init s := s.polls = []
  step s replies s' := s' = s.poll source config replies

/-- One key for each log, one nonce for no two, and a retry counter that outlives the poll. -/
structure Consistent (polls : List (List Observation)) : Prop where
  same : ∀ a ∈ polls.flatten, ∀ b ∈ polls.flatten, a.1 = b.1 → a.2.message.key = b.2.message.key
  apart : ∀ a ∈ polls.flatten, ∀ b ∈ polls.flatten, a.1 ≠ b.1 →
    a.2.message.nonce ≠ b.2.message.nonce
  carried : ∀ p ∈ polls, ∀ q ∈ polls, ∀ a ∈ p, (∃ b ∈ q, a.1 = b.1) → ∀ memory : Memory,
    (memory.prune (q.map fun b => b.2.relayed)).attempts a.2.message.key =
      memory.attempts a.2.message.key

/-- The receipt is there, and the first packet of the endpoint in it has this nonce. -/
def OwnPacket (source : Source) (endpointAddress : JsString) (nonce : Nat)
    (receipt : Option (List ReceiptLog)) : Prop :=
  ∃ before packet after, receipt = some (before ++ packet :: after) ∧
    (∀ receiptLog ∈ before, packetNonce source (toLowerCase endpointAddress) receiptLog = none) ∧
    packetNonce source (toLowerCase endpointAddress) packet = some nonce

/-- With an endpoint configured each log is resolved from its own packet, whose nonce a number
    can hold.  Without one no log is polled twice, and the counter does not run out of numbers. -/
def Reliable (own : Log → Nat) (source : Source) (config : EVMSourceWatcherConfig) (s : Session)
    (replies : PollReplies) : Prop :=
  let logs := getLogs source replies.fromBlock replies.head
  match config.endpointAddress with
  | some endpointAddress => ∀ log ∈ logs, log.transactionHash.isSome ∧
      OwnPacket source endpointAddress (own log) (replies.receipt log) ∧ own log ≤ 2 ^ 53
  | none => (∀ log ∈ logs, ∀ a ∈ s.polls.flatten, a.1 ≠ log) ∧
      config.nextNonce^[logs.length] s.watcher.counter ≤ 2 ^ 53

/-! ## What a scan observes -/

section Scan

variable {source : Source} {config : EVMSourceWatcherConfig}
  {receipt : Log → Option (List ReceiptLog)}

theorem mem_getLogs {fromBlock toBlock : Nat} {log : Log} :
    log ∈ getLogs source fromBlock toBlock ↔
      log ∈ source.logs ∧
        ∃ block, log.blockNumber = some block ∧ fromBlock ≤ block ∧ block ≤ toBlock := by
  simp [getLogs, Option.any_eq_true]

theorem getLogs_mono {first first' last last' : Nat} (lower : first ≤ first') (upper : last' ≤ last)
    {log : Log} (member : log ∈ getLogs source first' last') : log ∈ getLogs source first last := by
  obtain ⟨known, block, mined, low, high⟩ := mem_getLogs.mp member
  exact mem_getLogs.mpr ⟨known, block, mined, by omega, by omega⟩

theorem getLogs_next {fromBlock toBlock head : Nat} {log : Log}
    (earlier : log ∈ getLogs source fromBlock toBlock) :
    log ∉ getLogs source (toBlock + 1) head := by
  intro later
  obtain ⟨-, block, mined, -, upper⟩ := mem_getLogs.mp earlier
  obtain ⟨-, block', mined', lower, -⟩ := mem_getLogs.mp later
  rw [mined] at mined'
  cases mined'
  omega

theorem decodeLockedLogWithNonce_ok {log : Log} {answer : Option (List ReceiptLog)}
    {counter counter' : Nat} {pending : PendingMessage}
    (ran : decodeLockedLogWithNonce source config answer log counter =
      (.ok (some pending), counter')) :
    ∃ base, decodeLockedLog source.decodeData config log = .ok (some base) ∧
      pending = base.withNonce (resolveTransportNonce source config answer log counter).1 ∧
      counter' = (resolveTransportNonce source config answer log counter).2 := by
  unfold decodeLockedLogWithNonce at ran
  split at ran
  · cases ran
  · cases ran
  · rename_i base decoded
    cases ran
    exact ⟨base, decoded, rfl, rfl⟩

/-- The observations of a scan in order, with the counter before and after. -/
inductive Issued (source : Source) (config : EVMSourceWatcherConfig)
    (receipt : Log → Option (List ReceiptLog)) : Nat → List Observation → Nat → Prop
  | nil {counter} : Issued source config receipt counter [] counter
  | cons {log pending rest counter between counter'} :
      decodeLockedLogWithNonce source config (receipt log) log counter =
        (.ok (some pending), between) →
      Issued source config receipt between rest counter' →
      Issued source config receipt counter ((log, pending) :: rest) counter'

theorem Issued.append {counter between counter' : Nat} {observed more : List Observation}
    (first : Issued source config receipt counter observed between)
    (second : Issued source config receipt between more counter') :
    Issued source config receipt counter (observed ++ more) counter' := by
  induction first with
  | nil => exact second
  | cons decoded _ ih => exact .cons decoded (ih second)

theorem decodeLogs_issued {logs : List Log} {counter counter' : Nat} {observed : List Observation}
    (ran : decodeLogs source config receipt logs counter = (.ok observed, counter')) :
    Issued source config receipt counter observed counter' ∧ observed.map Prod.fst = logs := by
  induction logs generalizing counter observed with
  | nil =>
      cases ran
      exact ⟨.nil, rfl⟩
  | cons log rest ih =>
      rw [decodeLogs] at ran
      split at ran
      · cases ran
      · cases ran
      · rename_i pending between decoded
        cases others : decodeLogs source config receipt rest between with
        | mk messages last =>
            rw [others] at ran
            cases messages with
            | error message => cases ran
            | ok tail =>
                cases ran
                obtain ⟨issued, same⟩ := ih others
                exact ⟨.cons decoded issued, congrArg (log :: ·) same⟩

theorem decodeLockedLogWithNonce_resolved {log : Log} {answer : Option (List ReceiptLog)}
    {base : PendingMessage} {counter nonce counter' : Nat}
    (decoded : decodeLockedLog source.decodeData config log = .ok (some base))
    (resolved : resolveTransportNonce source config answer log counter = (nonce, counter')) :
    decodeLockedLogWithNonce source config answer log counter =
      (.ok (some (base.withNonce nonce)), counter') := by
  rw [decodeLockedLogWithNonce, decoded]
  dsimp only
  rw [resolved]

theorem Issued.ran {counter counter' : Nat} {observed : List Observation}
    (issued : Issued source config receipt counter observed counter') :
    decodeLogs source config receipt (observed.map Prod.fst) counter = (.ok observed, counter') := by
  induction issued with
  | nil => rfl
  | cons decoded _ ih =>
      rw [List.map_cons, decodeLogs, decoded]
      dsimp only
      rw [ih]
      rfl

/-- Observations of the logs of a range, none of them twice. -/
structure Within (source : Source) (fromBlock toBlock : Nat) (observed : List Observation) :
    Prop where
  logs : ∀ a ∈ observed, a.1 ∈ getLogs source fromBlock toBlock
  once : source.logs.Nodup → (observed.map Prod.fst).Nodup

theorem Within.nil {fromBlock toBlock : Nat} : Within source fromBlock toBlock [] :=
  ⟨by simp, fun _ => .nil⟩

theorem Within.of_logs {fromBlock toBlock : Nat} {observed : List Observation}
    (same : observed.map Prod.fst = getLogs source fromBlock toBlock) :
    Within source fromBlock toBlock observed where
  logs a member := by
    rw [← same]
    exact List.mem_map_of_mem member
  once distinct := by
    rw [same]
    exact List.filter_sublist.nodup distinct

theorem Within.append {fromBlock toBlock head : Nat} {observed more : List Observation}
    (first : Within source fromBlock toBlock observed) (rest : Within source (toBlock + 1) head more)
    (ahead : fromBlock ≤ toBlock + 1) (behind : toBlock ≤ head) :
    Within source fromBlock head (observed ++ more) where
  logs a member := by
    rcases List.mem_append.mp member with member | member
    · exact getLogs_mono (Nat.le_refl _) behind (first.logs a member)
    · exact getLogs_mono ahead (Nat.le_refl _) (rest.logs a member)
  once distinct := by
    rw [List.map_append]
    refine List.Nodup.append (first.once distinct) (rest.once distinct) ?_
    intro log earlier later
    obtain ⟨b, right, rfl⟩ := List.mem_map.mp later
    obtain ⟨a, left, same⟩ := List.mem_map.mp earlier
    have logged := first.logs a left
    rw [same] at logged
    exact getLogs_next logged (rest.logs b right)

/-- A scan observes the logs of its range. -/
theorem scan_issued {head : Nat} {replies : List LogsReply} {w w' : Watcher} {scanHead : Nat}
    {observed : List Observation}
    (ran : scan source config receipt head replies w scanHead = (.ok observed, w')) :
    Issued source config receipt w.counter observed w'.counter ∧
      Within source scanHead head observed := by
  induction replies generalizing w scanHead observed with
  | nil =>
      rw [scan] at ran
      split at ran
      · cases ran
        exact ⟨.nil, .nil⟩
      · cases ran
  | cons reply replies ih =>
      rw [scan] at ran
      split at ran
      · cases ran
        exact ⟨.nil, .nil⟩
      · rename_i ahead
        cases reply with
        | failed message => cases ran
        | rangeError message =>
            dsimp only at ran
            split at ran
            · cases ran
            · have shrunk := ih ran
              exact shrunk
        | logs =>
            dsimp only at ran
            split at ran
            · cases ran
            · rename_i here counter decoded
              obtain ⟨issued, same⟩ := decodeLogs_issued decoded
              cases others : scan source config receipt head replies { w with counter := counter }
                  (min (scanHead + w.maxBlockRange - 1) head + 1) with
              | mk messages last =>
                  rw [others] at ran
                  cases messages with
                  | error message => cases ran
                  | ok more =>
                      cases ran
                      obtain ⟨rest, within⟩ := ih others
                      have earlier := Within.of_logs same
                      exact ⟨issued.append rest, earlier.append within (by omega) (by omega)⟩

theorem poll_issued {replies : PollReplies} {w w' : Watcher} {observed : List Observation}
    (ran : poll source config replies w = (.ok observed, w')) :
    Issued source config replies.receipt w.counter observed w'.counter ∧
      Within source replies.fromBlock replies.head observed := by
  unfold poll at ran
  cases scanned : scan source config replies.receipt replies.head replies.logs w replies.fromBlock with
  | mk messages last =>
      rw [scanned] at ran
      cases failed : replies.failure with
      | some message =>
          rw [failed] at ran
          cases messages <;> cases ran
      | none =>
          rw [failed] at ran
          cases ran
          exact scan_issued scanned

/-! ## From a receipt -/

theorem decodePacketNonce_header {nonce : Nat} (fits : nonce < 256 ^ 8) (version : UInt8)
    (rest : Bytes) :
    decodePacketNonce (hexText ([version] ++ encode 8 nonce ++ rest)) = some nonce := by
  have digits : ((Hex.text ([version] ++ encode 8 nonce ++ rest)).take 18).drop 2 =
      Hex.text (encode 8 nonce) := by
    have width : (Hex.text [version] ++ Hex.text (encode 8 nonce)).length = 18 := by simp
    have version : (Hex.text [version]).length = 2 := by simp
    rw [Hex.text_append, Hex.text_append, List.take_append_of_le_length (by omega),
      List.take_of_length_le (by omega), List.drop_append_of_le_length (by omega),
      List.drop_of_length_le (by omega), List.nil_append]
  simp only [decodePacketNonce, hexText, strip0x_prefixed, packetNonceOffset, packetNonceWidth]
  rw [if_neg (by simp; omega)]
  simp only [Nat.reduceAdd, Nat.reduceMul, digits, Hex.parse_text, Option.map_some, decode_encode]
  rw [Nat.mod_eq_of_lt fits]

theorem OwnPacket.found {endpointAddress : JsString} {nonce : Nat} {answer : Option (List ReceiptLog)}
    (packet : OwnPacket source endpointAddress nonce answer) :
    fetchPacketSentNonce source endpointAddress answer = some nonce := by
  obtain ⟨before, packet, after, rfl, others, first⟩ := packet
  have skipped : before.findSome? (packetNonce source (toLowerCase endpointAddress)) = none :=
    List.findSome?_eq_none_iff.mpr others
  simp only [fetchPacketSentNonce, Option.bind_some, List.findSome?_append, skipped,
    List.findSome?_cons, first, Option.none_or]

theorem resolveTransportNonce_own {endpointAddress : JsString} {log : Log} {nonce : Nat}
    {answer : Option (List ReceiptLog)} (configured : config.endpointAddress = some endpointAddress)
    (hash : log.transactionHash.isSome) (packet : OwnPacket source endpointAddress nonce answer)
    (small : nonce ≤ 2 ^ 53) (counter : Nat) :
    resolveTransportNonce source config answer log counter = (nonce, counter) := by
  obtain ⟨transactionHash, known⟩ := Option.isSome_iff_exists.mp hash
  simp only [resolveTransportNonce, configured, known, Option.bind_some, packet.found]
  rw [nearestDouble_small small]

/-- What an observation of the log is, where the log is resolved from its packet. -/
def Resolved (own : Log → Nat) (source : Source) (config : EVMSourceWatcherConfig)
    (a : Observation) : Prop :=
  a.1 ∈ source.logs ∧ ∃ base, decodeLockedLog source.decodeData config a.1 = .ok (some base) ∧
    a.2 = base.withNonce (own a.1)

theorem Issued.resolved {own : Log → Nat} {endpointAddress : JsString} {counter counter' : Nat}
    {observed : List Observation} (issued : Issued source config receipt counter observed counter')
    (configured : config.endpointAddress = some endpointAddress)
    (reliable : ∀ a ∈ observed, a.1 ∈ source.logs ∧ a.1.transactionHash.isSome ∧
      OwnPacket source endpointAddress (own a.1) (receipt a.1) ∧ own a.1 ≤ 2 ^ 53) :
    ∀ a ∈ observed, Resolved own source config a := by
  induction issued with
  | nil => simp
  | cons decoded _ ih =>
      rw [List.forall_mem_cons] at reliable ⊢
      obtain ⟨⟨known, hash, packet, small⟩, others⟩ := reliable
      obtain ⟨base, isBase, rfl, -⟩ := decodeLockedLogWithNonce_ok decoded
      rw [resolveTransportNonce_own configured hash packet small]
      exact ⟨⟨known, base, isBase, rfl⟩, ih others⟩

theorem Resolved.same {own : Log → Nat} {a b : Observation} (left : Resolved own source config a)
    (right : Resolved own source config b) (same : a.1 = b.1) : a.2 = b.2 := by
  obtain ⟨-, base, isBase, left⟩ := left
  obtain ⟨-, base', isBase', right⟩ := right
  rw [same, isBase'] at isBase
  cases isBase
  rw [left, right, same]

theorem Resolved.nonce {own : Log → Nat} {a : Observation} (resolved : Resolved own source config a) :
    a.2.message.nonce = own a.1 := by
  obtain ⟨-, base, -, same⟩ := resolved
  rw [same]
  rfl

/-! ## From the counter -/

section Counter

variable (rising : ∀ next ∈ config.nonceCounter, ∀ n, n < next n)
include rising

theorem lt_nextNonce (counter : Nat) : counter < config.nextNonce counter := by
  unfold EVMSourceWatcherConfig.nextNonce
  cases given : config.nonceCounter with
  | none => exact Nat.lt_succ_self counter
  | some next => exact rising next given counter

theorem nextNonce_iterate_mono {fewer more : Nat} (fits : fewer ≤ more) (counter : Nat) :
    config.nextNonce^[fewer] counter ≤ config.nextNonce^[more] counter := by
  induction fits with
  | refl => exact Nat.le_refl _
  | step _ ih =>
      rw [Function.iterate_succ_apply']
      exact Nat.le_trans ih (Nat.le_of_lt (lt_nextNonce rising _))

theorem resolveTransportNonce_le (log : Log) (answer : Option (List ReceiptLog)) (counter : Nat) :
    counter ≤ (resolveTransportNonce source config answer log counter).2 := by
  unfold resolveTransportNonce
  dsimp only
  split
  · exact Nat.le_refl _
  · exact Nat.le_of_lt (lt_nextNonce rising counter)

theorem decodeLockedLogWithNonce_le (log : Log) (answer : Option (List ReceiptLog)) (counter : Nat) :
    counter ≤ (decodeLockedLogWithNonce source config answer log counter).2 := by
  unfold decodeLockedLogWithNonce
  split
  · exact Nat.le_refl _
  · exact Nat.le_refl _
  · exact resolveTransportNonce_le rising log answer counter

theorem decodeLogs_le (logs : List Log) (counter : Nat) :
    counter ≤ (decodeLogs source config receipt logs counter).2 := by
  induction logs generalizing counter with
  | nil => exact Nat.le_refl _
  | cons log rest ih =>
      have here : counter ≤ (decodeLockedLogWithNonce source config (receipt log) log counter).2 :=
        decodeLockedLogWithNonce_le rising log (receipt log) counter
      rw [decodeLogs]
      split
      all_goals
        rename_i decoded
        rw [decoded] at here
      · exact here
      · exact here
      · exact Nat.le_trans here (ih _)

theorem scan_le (head : Nat) (replies : List LogsReply) (w : Watcher) (scanHead : Nat) :
    w.counter ≤ (scan source config receipt head replies w scanHead).2.counter := by
  induction replies generalizing w scanHead with
  | nil =>
      rw [scan]
      split <;> exact Nat.le_refl _
  | cons reply replies ih =>
      rw [scan]
      split
      · exact Nat.le_refl _
      · cases reply with
        | failed message => exact Nat.le_refl _
        | rangeError message =>
            dsimp only
            split
            · exact Nat.le_refl _
            · have shrunk := ih { w with maxBlockRange := max 1 (w.maxBlockRange / 2) } scanHead
              exact shrunk
        | logs =>
            have here : w.counter ≤ (decodeLogs source config receipt
                (getLogs source scanHead (min (scanHead + w.maxBlockRange - 1) head)) w.counter).2 :=
              decodeLogs_le rising _ w.counter
            dsimp only
            split
            all_goals
              rename_i counter decoded
              rw [decoded] at here
            · exact here
            · have rest := ih { w with counter := counter }
                (min (scanHead + w.maxBlockRange - 1) head + 1)
              exact Nat.le_trans here rest

theorem poll_le (replies : PollReplies) (w : Watcher) :
    w.counter ≤ (poll source config replies w).2.counter := by
  have scanned : w.counter ≤ (scan source config replies.receipt replies.head replies.logs w
      replies.fromBlock).2.counter :=
    scan_le rising replies.head replies.logs w replies.fromBlock
  unfold poll
  cases replies.failure <;> exact scanned

theorem Issued.numbered {counter counter' : Nat} {observed : List Observation}
    (issued : Issued source config receipt counter observed counter')
    (unset : config.endpointAddress = none) (small : counter' ≤ 2 ^ 53) :
    Numbered (fun a : Observation => a.2.message.nonce) counter counter' observed := by
  induction issued with
  | nil => exact .nil (Nat.le_refl _)
  | @cons log pending rest counter between counter' decoded _ ih =>
      have others := ih small
      obtain ⟨base, -, rfl, rfl⟩ := decodeLockedLogWithNonce_ok decoded
      have later := lt_nextNonce rising counter
      have next : resolveTransportNonce source config (receipt log) log counter =
          (nearestDouble (config.nextNonce counter), config.nextNonce counter) := by
        simp only [resolveTransportNonce, unset, Option.bind_none]
        rw [if_neg (by omega)]
      rw [next] at others ⊢
      have fits := others.ordered
      have exact : nearestDouble (config.nextNonce counter) = config.nextNonce counter :=
        nearestDouble_small (by omega)
      have first : Numbered (fun a : Observation => a.2.message.nonce) counter
          (config.nextNonce counter)
          [(log, base.withNonce (nearestDouble (config.nextNonce counter)))] := by
        refine .single ?_ ?_
        · simpa [PendingMessage.withNonce, exact] using later
        · simp [PendingMessage.withNonce, exact]
      exact first.append others

omit rising in
theorem Issued.iterate {counter counter' : Nat} {observed : List Observation}
    (issued : Issued source config receipt counter observed counter')
    (unset : config.endpointAddress = none) :
    counter' = config.nextNonce^[observed.length] counter := by
  induction issued with
  | nil => rfl
  | cons decoded _ ih =>
      obtain ⟨base, -, -, rfl⟩ := decodeLockedLogWithNonce_ok decoded
      rw [ih]
      simp [resolveTransportNonce, unset]

end Counter

end Scan

/-! ## Over a run -/

theorem Consistent.of_nonces {polls : List (List Observation)}
    (same : ∀ a ∈ polls.flatten, ∀ b ∈ polls.flatten, a.1 = b.1 → a.2 = b.2)
    (apart : ∀ a ∈ polls.flatten, ∀ b ∈ polls.flatten, a.1 ≠ b.1 →
      a.2.message.nonce ≠ b.2.message.nonce) :
    Consistent polls where
  same := by
    intro a left b right log
    rw [same a left b right log]
  apart := apart
  carried := by
    intro p first q second a member again memory
    obtain ⟨b, observed, log⟩ := again
    have known := same a (List.mem_flatten_of_mem first member) b
      (List.mem_flatten_of_mem second observed) log
    have kept : (q.map fun b => b.2.relayed).any (fun pending => pending.key == a.2.message.key) =
        true := by
      refine List.any_eq_true.mpr ⟨b.2.relayed, List.mem_map_of_mem observed, ?_⟩
      rw [known]
      exact beq_self_eq_true b.2.message.key
    exact if_pos kept

section Run

variable {source : Source} {config : EVMSourceWatcherConfig} {own : Log → Nat}

theorem Session.poll_cases (s : Session) (replies : PollReplies) :
    (∃ observed w, Evm.poll source config replies s.watcher = (.ok observed, w) ∧
      s.poll source config replies = ⟨w, s.polls ++ [observed]⟩) ∨
    (∃ message w, Evm.poll source config replies s.watcher = (.error message, w) ∧
      s.poll source config replies = ⟨w, s.polls⟩) := by
  unfold Session.poll
  cases polled : Evm.poll source config replies s.watcher with
  | mk messages w =>
      cases messages with
      | ok observed => exact .inl ⟨observed, w, rfl, rfl⟩
      | error message => exact .inr ⟨message, w, rfl, by simp [Except.toOption]⟩

theorem resolved_poll {s : Session} {replies : PollReplies} {endpointAddress : JsString}
    (configured : config.endpointAddress = some endpointAddress)
    (reliable : Reliable own source config s replies)
    (before : ∀ a ∈ s.polls.flatten, Resolved own source config a) :
    ∀ a ∈ (s.poll source config replies).polls.flatten, Resolved own source config a := by
  simp only [Reliable, configured] at reliable
  obtain ⟨observed, w, polled, ran⟩ | ⟨message, w, -, ran⟩ := s.poll_cases replies
  · rw [ran]
    obtain ⟨issued, within⟩ := poll_issued polled
    have here : ∀ a ∈ observed, Resolved own source config a := by
      refine issued.resolved configured ?_
      intro a member
      have logged := within.logs a member
      exact ⟨(mem_getLogs.mp logged).1, reliable a.1 logged⟩
    intro a member
    rw [List.flatten_append, List.flatten_singleton, List.mem_append] at member
    rcases member with member | member
    · exact before a member
    · exact here a member
  · rw [ran]
    exact before

/-- Every log so far has been polled once, and has the next number. -/
structure Counted (s : Session) : Prop where
  once : (s.polls.flatten.map Prod.fst).Nodup
  numbered : ∃ first, Numbered (fun a : Observation => a.2.message.nonce) first s.watcher.counter
    s.polls.flatten

theorem counted_poll {s : Session} {replies : PollReplies}
    (rising : ∀ next ∈ config.nonceCounter, ∀ n, n < next n) (distinct : source.logs.Nodup)
    (unset : config.endpointAddress = none) (reliable : Reliable own source config s replies)
    (before : Counted s) : Counted (s.poll source config replies) := by
  simp only [Reliable, unset] at reliable
  obtain ⟨unseen, small⟩ := reliable
  obtain ⟨first, numbered⟩ := before.numbered
  obtain ⟨observed, w, polled, ran⟩ | ⟨message, w, polled, ran⟩ := s.poll_cases replies
  · rw [ran]
    obtain ⟨issued, within⟩ := poll_issued polled
    have few : observed.length ≤ (getLogs source replies.fromBlock replies.head).length := by
      have known : observed.map Prod.fst ⊆ getLogs source replies.fromBlock replies.head := by
        intro log member
        obtain ⟨a, here, rfl⟩ := List.mem_map.mp member
        exact within.logs a here
      have fits := (List.subperm_of_subset (within.once distinct) known).length_le
      rwa [List.length_map] at fits
    have bound : w.counter ≤ 2 ^ 53 := by
      rw [issued.iterate unset]
      exact Nat.le_trans (nextNonce_iterate_mono rising few _) small
    refine ⟨?_, first, ?_⟩
    · rw [List.flatten_append, List.flatten_singleton, List.map_append]
      refine List.Nodup.append before.once (within.once distinct) ?_
      intro log earlier later
      obtain ⟨a, left, rfl⟩ := List.mem_map.mp earlier
      obtain ⟨b, right, same⟩ := List.mem_map.mp later
      exact unseen b.1 (within.logs b right) a left same.symm
    · rw [List.flatten_append, List.flatten_singleton]
      exact numbered.append (issued.numbered rising unset bound)
  · rw [ran]
    have kept : s.watcher.counter ≤ (Evm.poll source config replies s.watcher).2.counter :=
      poll_le rising replies s.watcher
    rw [polled] at kept
    exact ⟨before.once, first, by simpa using numbered.append (.nil kept)⟩

theorem Counted.consistent {s : Session} (counted : Counted s) : Consistent s.polls := by
  obtain ⟨first, numbered⟩ := counted.numbered
  refine .of_nonces ?_ ?_
  · intro a left b right log
    rw [List.inj_on_of_nodup_map counted.once left right log]
  · intro a left b right logs same
    exact logs (congrArg Prod.fst (numbered.inj left right same))

/-- Under the condition no key changes and no nonce repeats, in whatever way the ranges overlap. -/
theorem keys_consistent
    (numbers : ∀ a ∈ source.logs, ∀ b ∈ source.logs, own a = own b → a = b)
    (distinct : source.logs.Nodup) (rising : ∀ next ∈ config.nonceCounter, ∀ n, n < next n)
    {s : Session}
    (reach : ((system source config).under (Reliable own source config)).Reachable s) :
    Consistent s.polls := by
  cases endpoint : config.endpointAddress with
  | some endpointAddress =>
      have resolved : ∀ a ∈ s.polls.flatten, Resolved own source config a := by
        induction reach with
        | init start => simp [show _ = [] from start]
        | step _ last ih =>
            obtain ⟨rfl, reliable⟩ := last
            exact resolved_poll endpoint reliable ih
      refine .of_nonces ?_ ?_
      · intro a left b right log
        exact (resolved a left).same (resolved b right) log
      · intro a left b right logs same
        rw [(resolved a left).nonce, (resolved b right).nonce] at same
        exact logs (numbers a.1 (resolved a left).1 b.1 (resolved b right).1 same)
  | none =>
      have counted : Counted s := by
        induction reach with
        | @init s start =>
            have empty : s.polls = [] := start
            refine ⟨?_, s.watcher.counter, ?_⟩
            · simp [empty]
            · rw [empty]
              exact .nil (Nat.le_refl _)
        | step _ last ih =>
            obtain ⟨rfl, reliable⟩ := last
            exact counted_poll rising distinct endpoint reliable ih
      exact counted.consistent

end Run

/-! ## Two locks

Of the same data, in one transaction or in two.
-/

namespace Sample

def endpointAddress : JsString := hexText (encode 20 Escrow.Sample.endpoint.toNat)

def configured : EVMSourceWatcherConfig := { config with endpointAddress := some endpointAddress }

/-- The packet of the endpoint around the message of the lock. -/
def encodedPacket (nonce : Nat) : Bytes :=
  [1] ++ encode 8 nonce ++ encode 4 30101 ++ addressWord Escrow.Sample.deployment.this ++
    encode 4 30600 ++ Bytes32.toBytes Escrow.Sample.peer ++ encode 32 nonce ++
    Escrow.encodeFillInstruction Escrow.Sample.deployment Escrow.Sample.intentHash
      Escrow.Sample.intent Escrow.Sample.solver

/-- `abi.encode(encodedPayload, options, sendLibrary)`, with no options. -/
def packetSentData (nonce : Nat) : Bytes :=
  let encodedPayload := abiString (encodedPacket nonce)
  encode 32 96 ++ encode 32 (96 + encodedPayload.length) ++ addressWord 0x11B ++ encodedPayload ++
    abiString []

def packetSent (nonce : Nat) : ReceiptLog :=
  ⟨endpointAddress, [js "PacketSent"], hexText (packetSentData nonce)⟩

/-- The event of the sample under the hash of another intent. -/
def eventOf (intentHash : Bytes32) : LockedEvent := { lockedEvent with intentHash := intentHash }

def firstLog : Log :=
  lockedLog Escrow.Sample.deployment (eventOf Escrow.Sample.intentHash) 19000000 (js "0xabc")

def secondLog (block : Nat) (transactionHash : JsString) : Log :=
  lockedLog Escrow.Sample.deployment (eventOf 0x5EC0DE) (block + 1) transactionHash

def source (logs : List Log) : Source where
  logs := logs
  decodeData := decodeData
  decodePacketSent data :=
    if data = hexText (packetSentData 7) then some (hexText (encodedPacket 7))
    else if data = hexText (packetSentData 8) then some (hexText (encodedPacket 8))
    else none

theorem encodedPacket_nonce {nonce : Nat} (fits : nonce < 256 ^ 8) :
    decodePacketNonce (hexText (encodedPacket nonce)) = some nonce := by
  unfold encodedPacket
  simp only [List.append_assoc ([1] ++ encode 8 _)]
  exact decodePacketNonce_header fits 1 _

theorem packetNonce_seven (logs : List Log) :
    packetNonce (source logs) (toLowerCase endpointAddress) (packetSent 7) = some 7 := by
  have nonce := @encodedPacket_nonce 7 (by decide)
  simp [packetNonce, source, packetSent, nonce]

theorem packetNonce_eight (logs : List Log) :
    packetNonce (source logs) (toLowerCase endpointAddress) (packetSent 8) = some 8 := by
  have nonce := @encodedPacket_nonce 8 (by decide)
  have other : hexText (packetSentData 8) ≠ hexText (packetSentData 7) := by decide +kernel
  simp [packetNonce, source, packetSent, nonce, other]

theorem firstLog_ne (block : Nat) (transactionHash : JsString) :
    firstLog ≠ secondLog block transactionHash := by
  intro same
  have topics := congrArg Log.topics same
  simp only [firstLog, secondLog, lockedLog, List.cons.injEq] at topics
  have hash := topics.2.1
  revert hash
  decide +kernel

theorem log_decoded {config : EVMSourceWatcherConfig} (same : config.stellarEid = 30600)
    (intentHash : Bytes32) (block : Nat) (transactionHash : JsString) :
    ∃ base, decodeLockedLog decodeData config
      (lockedLog Escrow.Sample.deployment (eventOf intentHash) (block + 1) transactionHash) =
        .ok (some base) := by
  have checks : Escrow.StaticChecks Escrow.Sample.intent 1700000100 := by
    constructor <;> decide +kernel
  have eid : Escrow.Sample.deployment.stellarEid = config.stellarEid := same.symm
  have encoded := @canonicalFillInstruction_eq Escrow.Sample.deployment intentHash
    Escrow.Sample.intent Escrow.Sample.solver _ _ _ checks decodes.recipient decodes.asset
  rw [← addressWord_topic, eid] at encoded
  have data : lockedData (eventOf intentHash) = lockedData lockedEvent := rfl
  have decoded := decodes.data
  rw [← data] at decoded
  obtain ⟨base, isBase, -⟩ := @decodeLockedLog_ok _ config Escrow.Sample.deployment
    (eventOf intentHash) _ _ block transactionHash decoded encoded
  exact ⟨base, isBase⟩

theorem firstLog_decoded {config : EVMSourceWatcherConfig} (same : config.stellarEid = 30600) :
    ∃ base, decodeLockedLog decodeData config firstLog = .ok (some base) :=
  log_decoded same Escrow.Sample.intentHash 18999999 (js "0xabc")

theorem secondLog_decoded {config : EVMSourceWatcherConfig} (same : config.stellarEid = 30600)
    (block : Nat) (transactionHash : JsString) :
    ∃ base, decodeLockedLog decodeData config (secondLog block transactionHash) = .ok (some base) :=
  log_decoded same 0x5EC0DE block transactionHash

def start : Session := ⟨⟨2000, 0⟩, []⟩

def replies (fromBlock : Nat) (receipt : Log → Option (List ReceiptLog)) : PollReplies :=
  ⟨fromBlock, 19000010, [.logs], receipt, none⟩

theorem poll_replies {source : Source} {config : EVMSourceWatcherConfig} {fromBlock : Nat}
    {receipt : Log → Option (List ReceiptLog)} {counter counter' : Nat} {observed : List Observation}
    (early : 19000000 ≤ fromBlock) (late : fromBlock ≤ 19000010)
    (logs : getLogs source fromBlock 19000010 = observed.map Prod.fst)
    (issued : Issued source config receipt counter observed counter')
    (polls : List (List Observation)) :
    Session.poll source config ⟨⟨2000, counter⟩, polls⟩ (replies fromBlock receipt) =
      ⟨⟨2000, counter'⟩, polls ++ [observed]⟩ := by
  have whole : min (fromBlock + 2000 - 1) 19000010 = 19000010 := by omega
  have ahead : ¬ 19000010 < fromBlock := by omega
  have ran := issued.ran
  rw [← logs] at ran
  simp only [Session.poll, Evm.poll, replies, scan, if_neg ahead, whole, ran]
  simp [Except.map, Except.toOption]

/-! One log polled twice, without an endpoint. -/

def polledTwice : Session :=
  (start.poll (source [firstLog]) config (replies 19000000 fun _ => none)).poll (source [firstLog])
    config (replies 19000000 fun _ => none)

theorem polledTwice_polls : ∃ base : PendingMessage, polledTwice.polls =
    [[(firstLog, base.withNonce 1)], [(firstLog, base.withNonce 2)]] := by
  obtain ⟨base, decoded⟩ := @firstLog_decoded config rfl
  have logs : getLogs (source [firstLog]) 19000000 19000010 = [firstLog] := by
    simp [getLogs, source, firstLog, lockedLog]
  have issued {counter : Nat} (small : counter < 2 ^ 53) :
      Issued (source [firstLog]) config (fun _ => none) counter
        [(firstLog, base.withNonce (counter + 1))] (counter + 1) := by
    have exact : nearestDouble (counter + 1) = counter + 1 := nearestDouble_small small
    have next : resolveTransportNonce (source [firstLog]) config none firstLog counter =
        (counter + 1, counter + 1) := by
      simp [resolveTransportNonce, config, EVMSourceWatcherConfig.nextNonce, exact]
    exact .cons (decodeLockedLogWithNonce_resolved decoded next) .nil
  refine ⟨base, ?_⟩
  rw [polledTwice, start, poll_replies (by decide) (by decide) logs (issued (by decide)),
    poll_replies (by decide) (by decide) logs (issued (by decide))]
  rfl

/-! Two locks of one transaction, with its receipt. -/

def together : Source := source [firstLog, secondLog 18999999 (js "0xabc")]

def polledTogether : Session :=
  start.poll together configured (replies 19000000 fun _ => some [packetSent 7, packetSent 8])

theorem polledTogether_polls : ∃ first second : PendingMessage, polledTogether.polls =
    [[(firstLog, first.withNonce 7), (secondLog 18999999 (js "0xabc"), second.withNonce 7)]] := by
  obtain ⟨first, isFirst⟩ := @firstLog_decoded configured rfl
  obtain ⟨second, isSecond⟩ := @secondLog_decoded configured rfl 18999999 (js "0xabc")
  have logs : getLogs together 19000000 19000010 = [firstLog, secondLog 18999999 (js "0xabc")] := by
    simp [getLogs, together, source, firstLog, secondLog, lockedLog]
  have packet : OwnPacket together endpointAddress 7 (some [packetSent 7, packetSent 8]) :=
    ⟨[], packetSent 7, [packetSent 8], rfl, by simp, packetNonce_seven _⟩
  have seven {log : Log} (hash : log.transactionHash.isSome) (counter : Nat) :
      resolveTransportNonce together configured (some [packetSent 7, packetSent 8]) log counter =
        (7, counter) := resolveTransportNonce_own rfl hash packet (by decide) counter
  have here : firstLog.transactionHash.isSome := rfl
  have there : (secondLog 18999999 (js "0xabc")).transactionHash.isSome := rfl
  have issued : Issued together configured (fun _ => some [packetSent 7, packetSent 8]) 0
      [(firstLog, first.withNonce 7), (secondLog 18999999 (js "0xabc"), second.withNonce 7)] 0 :=
    .cons (decodeLockedLogWithNonce_resolved isFirst (seven here 0))
      (.cons (decodeLockedLogWithNonce_resolved isSecond (seven there 0)) .nil)
  refine ⟨first, second, ?_⟩
  rw [polledTogether, start, poll_replies (by decide) (by decide) logs issued]
  rfl

/-! Two locks of two transactions. -/

def apart : Source := source [firstLog, secondLog 19000001 (js "0xdef")]

def own (log : Log) : Nat := if log.blockNumber = some 19000000 then 7 else 8

def receipt (log : Log) : Option (List ReceiptLog) := some [packetSent (own log)]

def polledApart : Session :=
  (start.poll apart configured (replies 19000000 receipt)).poll apart configured
    (replies 19000001 receipt)

theorem own_packet (log : Log) : OwnPacket apart endpointAddress (own log) (receipt log) := by
  refine ⟨[], packetSent (own log), [], rfl, by simp, ?_⟩
  unfold own
  split
  · exact packetNonce_seven _
  · exact packetNonce_eight _

theorem own_le (log : Log) : own log ≤ 2 ^ 53 := by
  unfold own
  split <;> decide

theorem reliable (s : Session) (fromBlock : Nat) :
    Reliable own apart configured s (replies fromBlock receipt) := by
  intro log member
  refine ⟨?_, own_packet log, own_le log⟩
  have known := (mem_getLogs.mp member).1
  simp only [apart, source, List.mem_cons, List.not_mem_nil, or_false] at known
  rcases known with rfl | rfl <;> rfl

end Sample

theorem keys_consistent_sample : Consistent Sample.polledApart.polls := by
  have reach : ((system Sample.apart Sample.configured).under
      (Reliable Sample.own Sample.apart Sample.configured)).Reachable Sample.polledApart :=
    .step (.step (.init (s := Sample.start) rfl) ⟨rfl, Sample.reliable Sample.start 19000000⟩)
      ⟨rfl, Sample.reliable _ 19000001⟩
  have numbers : ∀ a ∈ Sample.apart.logs, ∀ b ∈ Sample.apart.logs,
      Sample.own a = Sample.own b → a = b := by
    simp [Sample.apart, Sample.source, Sample.own, Sample.firstLog, Sample.secondLog, lockedLog]
  have distinct : Sample.apart.logs.Nodup := by
    simp [Sample.apart, Sample.source, Sample.firstLog_ne]
  exact keys_consistent numbers distinct (by simp [Sample.configured, Sample.config]) reach

/-- The counter gives a log a second key, and a receipt two logs of its transaction one nonce. -/
theorem nonce_repeats :
    ((system (Sample.source [Sample.firstLog]) Sample.config).Reachable Sample.polledTwice ∧
      Sample.polledTwice.polls.map (·.map fun a => a.2.message.nonce) = [[1], [2]] ∧
      ¬ Consistent Sample.polledTwice.polls) ∧
    ((system Sample.together Sample.configured).Reachable Sample.polledTogether ∧
      Sample.polledTogether.polls.map (·.map fun a => a.2.message.nonce) = [[7, 7]] ∧
      ¬ Consistent Sample.polledTogether.polls) := by
  obtain ⟨base, twice⟩ := Sample.polledTwice_polls
  obtain ⟨first, second, together⟩ := Sample.polledTogether_polls
  refine ⟨⟨?_, ?_, ?_⟩, ?_, ?_, ?_⟩
  · exact .step (.step (.init (s := Sample.start) rfl) rfl) rfl
  · rw [twice]
    rfl
  · intro consistent
    rw [twice] at consistent
    have keys := consistent.same (Sample.firstLog, base.withNonce 1) (by simp)
      (Sample.firstLog, base.withNonce 2) (by simp) rfl
    cases congrArg MessageKey.nonce keys
  · exact .step (.init (s := Sample.start) rfl) rfl
  · rw [together]
    rfl
  · intro consistent
    rw [together] at consistent
    exact consistent.apart (Sample.firstLog, first.withNonce 7) (by simp)
      (Sample.secondLog 18999999 (js "0xabc"), second.withNonce 7) (by simp)
      (Sample.firstLog_ne _ _) rfl

end Perihelion.Relayer.Evm
