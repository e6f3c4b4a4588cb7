import Mathlib.Data.List.Infix
import Perihelion.Lib.ChunkedScan
import Perihelion.Relayer.TransportNonce

/-! # The chunks of a poll

A poll asks for the logs of one range of blocks after the other, and halves the range where the
provider refuses it.  The ranges that it has read leave out nothing and read nothing twice.
-/

namespace Perihelion.Relayer.Evm

open ChunkedScan (Request requests served gaveUp Adjoin)
open Sdk (JsString js)

/-! ## Errors of the provider -/

/-- `err instanceof Error`, or not. -/
inductive ProviderError
  | error (message : JsString)
  | other (text : JsString)

def ProviderError.text : ProviderError → JsString
  | .error message => message
  | .other text => text

def isProviderRangeError : ProviderError → Bool
  | .other _ => false
  | .error message =>
      let msg := toLowerCase message
      js "range" <:+: msg || js "too large" <:+: msg || js "limit" <:+: msg

/-- A call of `getLogs`. -/
inductive GetLogs
  | returns
  | throws (err : ProviderError)

def GetLogs.reply : GetLogs → LogsReply
  | .returns => .logs
  | .throws err => if isProviderRangeError err then .rangeError err.text else .failed err.text

def LogsReply.chunk : LogsReply → ChunkedScan.Reply JsString
  | .logs => .served
  | .rangeError message => .tooLong message
  | .failed message => .failed message

/-- The loop over the ranges of `scanRefunds`, with what becomes of the range.  What is passed on
    is left out. -/
def scanRefunds (head : Nat) : List LogsReply → Nat → Nat → Except JsString Unit × Nat
  | [], maxBlockRange, scanHead =>
      if head < scanHead then (.ok (), maxBlockRange) else (.error (js "no reply"), maxBlockRange)
  | reply :: replies, maxBlockRange, scanHead =>
      if head < scanHead then (.ok (), maxBlockRange)
      else
        let toBlock := min (scanHead + maxBlockRange - 1) head
        match reply with
        | .failed message => (.error message, maxBlockRange)
        | .rangeError message =>
            if maxBlockRange ≤ 1 then (.error message, maxBlockRange)
            else scanRefunds head replies (max 1 (maxBlockRange / 2)) scanHead
        | .logs => scanRefunds head replies maxBlockRange (toBlock + 1)

section scan

variable {source : Source} {config : EVMSourceWatcherConfig}
  {receipt : Log → Option (List ReceiptLog)} {head : Nat}

/-- What is asked for, as long as the logs can be decoded. -/
def asked (head : Nat) (replies : List LogsReply) (maxBlockRange scanHead : Nat) :
    List (Request × ChunkedScan.Reply JsString) :=
  requests head (replies.map LogsReply.chunk) maxBlockRange scanHead

/-- The logs of the ranges that are read, range by range. -/
def readLogs (source : Source) (chunks : List Request) : List Log :=
  chunks.flatMap fun r => getLogs source r.first r.last

theorem decodeLogs_cons {log : Log} {rest : List Log} {counter between : Nat} {pending : PendingMessage}
    (decoded : decodeLockedLogWithNonce source config (receipt log) log counter =
      (.ok (some pending), between)) :
    decodeLogs source config receipt (log :: rest) counter =
      ((decodeLogs source config receipt rest between).1.map fun messages => (log, pending) :: messages,
        (decodeLogs source config receipt rest between).2) := by
  rw [decodeLogs, decoded]

theorem decodeLogs_append {logs : List Log} {counter between : Nat} {observed : List Observation}
    (decoded : decodeLogs source config receipt logs counter = (.ok observed, between)) (more : List Log) :
    (decodeLogs source config receipt (logs ++ more) counter).1 =
      (decodeLogs source config receipt more between).1.map fun messages => observed ++ messages := by
  obtain ⟨issued, rfl⟩ := decodeLogs_issued decoded
  clear decoded
  induction issued with
  | nil =>
      rw [List.map_nil, List.nil_append]
      cases (decodeLogs source config receipt more _).1 <;> rfl
  | cons first _ ih =>
      rw [List.map_cons, List.cons_append, decodeLogs_cons first, ih]
      cases (decodeLogs source config receipt more _).1 <;> rfl

/-- The first log that cannot be decoded ends the loop. -/
theorem decodeLogs_append_error {logs : List Log} {counter between : Nat} {message : JsString}
    (failed : decodeLogs source config receipt logs counter = (.error message, between))
    (more : List Log) :
    decodeLogs source config receipt (logs ++ more) counter = (.error message, between) := by
  induction logs generalizing counter with
  | nil => cases failed
  | cons log rest ih =>
      rw [List.cons_append]
      rw [decodeLogs] at failed ⊢
      split at failed
      · exact failed
      · exact failed
      · rename_i pending next decoded
        cases others : decodeLogs source config receipt rest next with
        | mk messages last =>
            rw [others] at failed
            cases messages with
            | ok tail => cases failed
            | error first =>
                cases failed
                dsimp only
                rw [ih others]
                rfl

theorem asked_past {replies : List LogsReply} {maxBlockRange scanHead : Nat} (past : head < scanHead) :
    asked head replies maxBlockRange scanHead = [] :=
  ChunkedScan.requests_past _ past

theorem scan_past (replies : List LogsReply) {w : Watcher} {scanHead : Nat} (past : head < scanHead) :
    scan source config receipt head replies w scanHead = (.ok [], w) := by
  cases replies with
  | nil => rw [scan, if_pos past]
  | cons reply replies => rw [scan, if_pos past]

theorem scan_failed {replies : List LogsReply} {w : Watcher} {scanHead : Nat} (message : JsString)
    (open' : ¬ head < scanHead) :
    scan source config receipt head (.failed message :: replies) w scanHead = (.error message, w) := by
  rw [scan, if_neg open']

theorem scan_refused {replies : List LogsReply} {w : Watcher} {scanHead : Nat} (message : JsString)
    (open' : ¬ head < scanHead) (one : w.maxBlockRange ≤ 1) :
    scan source config receipt head (.rangeError message :: replies) w scanHead = (.error message, w) := by
  rw [scan, if_neg open']
  exact if_pos one

theorem scan_halved {replies : List LogsReply} {w : Watcher} {scanHead : Nat} (message : JsString)
    (open' : ¬ head < scanHead) (more : ¬ w.maxBlockRange ≤ 1) :
    scan source config receipt head (.rangeError message :: replies) w scanHead =
      scan source config receipt head replies { w with maxBlockRange := max 1 (w.maxBlockRange / 2) }
        scanHead := by
  rw [scan, if_neg open']
  exact if_neg more

/-- The scan is the decoding of the logs of its ranges, and then what made it give up. -/
theorem scan_eq {replies : List LogsReply} {w : Watcher} {scanHead : Nat} (ranged : 1 ≤ w.maxBlockRange)
    (enough : head + 1 - scanHead + w.maxBlockRange ≤ replies.length) :
    (scan source config receipt head replies w scanHead).1 =
      (decodeLogs source config receipt
        (readLogs source (served (asked head replies w.maxBlockRange scanHead))) w.counter).1.bind
        fun observed =>
          match gaveUp (asked head replies w.maxBlockRange scanHead) with
          | some message => .error message
          | none => .ok observed := by
  induction replies generalizing w scanHead with
  | nil =>
      rw [List.length_nil] at enough
      omega
  | cons reply replies ih =>
      rw [List.length_cons] at enough
      by_cases past : head < scanHead
      · rw [scan_past _ past, asked_past past]
        rfl
      · rw [asked, List.map_cons]
        cases reply with
        | failed message =>
            rw [LogsReply.chunk, requests, if_neg past, scan_failed message past]
            rfl
        | rangeError message =>
            rw [LogsReply.chunk, requests, if_neg past]
            by_cases one : w.maxBlockRange ≤ 1
            · rw [if_pos one, scan_refused message past one]
              simp [served, gaveUp, ChunkedScan.request, one, readLogs, decodeLogs, Except.bind]
            · rw [if_neg one, scan_halved message past one,
                ih (by dsimp only; omega) (by dsimp only; omega)]
              simp [served, gaveUp, ChunkedScan.request, one, asked]
        | logs =>
            have ahead := ChunkedScan.request_bounds ranged (Nat.le_of_not_lt past)
            rw [LogsReply.chunk, requests, if_neg past, scan, if_neg past]
            have chunk : readLogs source (served ((ChunkedScan.request head w.maxBlockRange scanHead, .served) ::
                requests head (replies.map LogsReply.chunk) w.maxBlockRange
                  ((ChunkedScan.request head w.maxBlockRange scanHead).last + 1))) =
                getLogs source scanHead (min (scanHead + w.maxBlockRange - 1) head) ++
                  readLogs source (served (asked head replies w.maxBlockRange
                    (min (scanHead + w.maxBlockRange - 1) head + 1))) := rfl
            rw [chunk]
            dsimp only
            split
            · rename_i message counter decoded
              rw [decodeLogs_append_error decoded]
              rfl
            · rename_i observed counter decoded
              dsimp only [ChunkedScan.request] at ahead
              have later := @ih { w with counter := counter }
                (min (scanHead + w.maxBlockRange - 1) head + 1) ranged (by dsimp only; omega)
              rw [decodeLogs_append decoded]
              dsimp only at later ⊢
              rw [later]
              generalize (decodeLogs source config receipt _ counter).1 = rest
              cases rest with
              | error message => rfl
              | ok more =>
                  have same : gaveUp ((ChunkedScan.request head w.maxBlockRange scanHead, .served) ::
                      requests head (replies.map LogsReply.chunk) w.maxBlockRange
                        ((ChunkedScan.request head w.maxBlockRange scanHead).last + 1)) =
                      gaveUp (asked head replies w.maxBlockRange
                        (min (scanHead + w.maxBlockRange - 1) head + 1)) := rfl
                  rw [same]
                  generalize gaveUp (asked head replies w.maxBlockRange _) = ending
                  cases ending <;> rfl

/-- The replies after the last request are not read. -/
theorem scan_ends {replies : List LogsReply} {w : Watcher} {scanHead : Nat} (ranged : 1 ≤ w.maxBlockRange)
    (enough : head + 1 - scanHead + w.maxBlockRange ≤ replies.length) (more : List LogsReply) :
    scan source config receipt head
        (replies.take (asked head replies w.maxBlockRange scanHead).length ++ more) w scanHead =
      scan source config receipt head replies w scanHead := by
  induction replies generalizing w scanHead with
  | nil =>
      rw [List.length_nil] at enough
      omega
  | cons reply replies ih =>
      rw [List.length_cons] at enough
      by_cases past : head < scanHead
      · rw [scan_past _ past, scan_past _ past]
      · rw [asked, List.map_cons]
        cases reply with
        | failed message =>
            rw [LogsReply.chunk, requests, if_neg past, List.length_cons, List.take_succ_cons,
              List.cons_append, scan_failed message past, scan_failed message past]
        | rangeError message =>
            rw [LogsReply.chunk, requests, if_neg past]
            by_cases one : w.maxBlockRange ≤ 1
            · rw [if_pos one, List.length_cons, List.take_succ_cons, List.cons_append,
                scan_refused message past one, scan_refused message past one]
            · have later := @ih { w with maxBlockRange := max 1 (w.maxBlockRange / 2) } scanHead
                (by dsimp only; omega) (by dsimp only; omega)
              rw [if_neg one, List.length_cons, List.take_succ_cons, List.cons_append,
                scan_halved message past one, scan_halved message past one]
              exact later
        | logs =>
            have ahead := ChunkedScan.request_bounds ranged (Nat.le_of_not_lt past)
            rw [LogsReply.chunk, requests, if_neg past, List.length_cons, List.take_succ_cons, List.cons_append,
              scan, scan, if_neg past, if_neg past]
            dsimp only
            split
            · rfl
            · rename_i observed counter decoded
              have later := @ih { w with counter := counter }
                ((ChunkedScan.request head w.maxBlockRange scanHead).last + 1) ranged (by dsimp only; omega)
              dsimp only [asked, ChunkedScan.request] at later ⊢
              rw [later]

/-- A range stays a range, and only shrinks. -/
theorem scan_range {replies : List LogsReply} {w : Watcher} {scanHead : Nat}
    (ranged : 1 ≤ w.maxBlockRange) :
    1 ≤ (scan source config receipt head replies w scanHead).2.maxBlockRange ∧
      (scan source config receipt head replies w scanHead).2.maxBlockRange ≤ w.maxBlockRange := by
  induction replies generalizing w scanHead with
  | nil =>
      rw [scan]
      split <;> exact ⟨ranged, Nat.le_refl _⟩
  | cons reply replies ih =>
      rw [scan]
      split
      · exact ⟨ranged, Nat.le_refl _⟩
      · cases reply with
        | failed message => exact ⟨ranged, Nat.le_refl _⟩
        | rangeError message =>
            dsimp only
            split
            · exact ⟨ranged, Nat.le_refl _⟩
            · have smaller := @ih { w with maxBlockRange := max 1 (w.maxBlockRange / 2) } scanHead
                (by dsimp only; omega)
              dsimp only at smaller
              exact ⟨smaller.1, by omega⟩
        | logs =>
            dsimp only
            split
            · exact ⟨ranged, Nat.le_refl _⟩
            · rename_i observed counter _
              exact @ih { w with counter := counter } _ ranged

/-- The scan for refunds asks for what a scan that finds no logs asks for. -/
theorem scanRefunds_eq (source : Source) (replies : List LogsReply) (w : Watcher) (scanHead : Nat) :
    scanRefunds head replies w.maxBlockRange scanHead =
      ((scan { source with logs := [] } config receipt head replies w scanHead).1.map fun _ => (),
        (scan { source with logs := [] } config receipt head replies w scanHead).2.maxBlockRange) := by
  induction replies generalizing w scanHead with
  | nil =>
      rw [scanRefunds, scan]
      split <;> rfl
  | cons reply replies ih =>
      rw [scanRefunds, scan]
      split
      · rfl
      · cases reply with
        | failed message => rfl
        | rangeError message =>
            dsimp only
            split
            · rfl
            · exact ih { w with maxBlockRange := max 1 (w.maxBlockRange / 2) } scanHead
        | logs =>
            have none (first last : Nat) : getLogs { source with logs := [] } first last = [] := rfl
            have later := ih w (min (scanHead + w.maxBlockRange - 1) head + 1)
            dsimp only
            rw [none, decodeLogs, later]
            dsimp only
            generalize scan { source with logs := [] } config receipt head replies w _ = rest
            obtain ⟨messages, w'⟩ := rest
            cases messages <;> rfl

/-! ## A whole poll -/

/-- What comes of a scan from `fromBlock` to `head`. -/
structure Scanned (source : Source) (config : EVMSourceWatcherConfig)
    (receipt : Log → Option (List ReceiptLog)) (head : Nat) (replies : List LogsReply) (w : Watcher)
    (fromBlock : Nat) : Prop where
  few : (asked head replies w.maxBlockRange fromBlock).length ≤ head + 1 - fromBlock + w.maxBlockRange
  /-- It has ended by then. -/
  ends : ∀ more, scan source config receipt head
      (replies.take (asked head replies w.maxBlockRange fromBlock).length ++ more) w fromBlock =
    scan source config receipt head replies w fromBlock
  keeps : 1 ≤ (scan source config receipt head replies w fromBlock).2.maxBlockRange
  /-- Also of a scan that throws. -/
  adjacent : ∃ reached ≤ head + 1,
    Adjoin fromBlock (served (asked head replies w.maxBlockRange fromBlock)) reached
  returns : ∀ observed, (scan source config receipt head replies w fromBlock).1 = .ok observed →
    Adjoin fromBlock (served (asked head replies w.maxBlockRange fromBlock)) (head + 1) ∧
      observed.map Prod.fst = readLogs source (served (asked head replies w.maxBlockRange fromBlock)) ∧
      (observed.map Prod.fst).Perm (getLogs source fromBlock head)
  /-- Only a log that cannot be decoded throws then. -/
  through : (∀ r message, (r, .failed message) ∉ asked head replies w.maxBlockRange fromBlock) →
    (∀ r message, (r, .tooLong message) ∈ asked head replies w.maxBlockRange fromBlock → 1 < r.size) →
    (scan source config receipt head replies w fromBlock).1 =
      (decodeLogs source config receipt
        (readLogs source (served (asked head replies w.maxBlockRange fromBlock))) w.counter).1
  refused : ∀ r message, (r, .tooLong message) ∈ asked head replies w.maxBlockRange fromBlock →
    r.size ≤ 1 → r.first = r.last ∧
      (scan source config receipt head replies w fromBlock).1 =
        (decodeLogs source config receipt
          (readLogs source (served (asked head replies w.maxBlockRange fromBlock))) w.counter).1.bind
          fun _ => .error message

theorem readLogs_perm {chunks : List Request} {fromBlock : Nat}
    (adjoin : Adjoin fromBlock chunks (head + 1)) :
    (readLogs source chunks).Perm (getLogs source fromBlock head) := by
  have perm := adjoin.perm source.logs (·.blockNumber)
  simp only [Nat.lt_succ_iff] at perm
  exact perm

theorem scan_scanned {replies : List LogsReply} {w : Watcher} {fromBlock : Nat} (ranged : 1 ≤ w.maxBlockRange)
    (forward : fromBlock ≤ head) (enough : head + 1 - fromBlock + w.maxBlockRange ≤ replies.length) :
    Scanned source config receipt head replies w fromBlock where
  few := ChunkedScan.requests_length_le _ ranged
  ends := scan_ends ranged enough
  keeps := (scan_range ranged).1
  adjacent := ChunkedScan.requests_adjoin _ ranged (by omega)
  returns observed returned := by
    rw [scan_eq ranged enough] at returned
    cases decoded : decodeLogs source config receipt
      (readLogs source (served (asked head replies w.maxBlockRange fromBlock))) w.counter with
    | mk messages counter =>
        rw [decoded] at returned
        cases messages with
        | error message => cases returned
        | ok messages =>
            simp only [Except.bind] at returned
            split at returned
            · cases returned
            · rename_i through
              cases returned
              have adjoin : Adjoin fromBlock (served (asked head replies w.maxBlockRange fromBlock)) (head + 1) :=
                ChunkedScan.requests_complete ranged (by omega) (by rwa [List.length_map]) through
              have logs := (decodeLogs_issued decoded).2
              exact ⟨adjoin, logs, by rw [logs]; exact readLogs_perm adjoin⟩
  through failed refused := by
    rw [scan_eq ranged enough, ChunkedScan.gaveUp_eq_none.mpr ⟨failed, refused⟩]
    cases (decodeLogs source config receipt
      (readLogs source (served (asked head replies w.maxBlockRange fromBlock))) w.counter).1 <;> rfl
  refused r message member one := by
    refine ⟨ChunkedScan.requests_single ranged member one, ?_⟩
    have ending : gaveUp (asked head replies w.maxBlockRange fromBlock) = some message :=
      ChunkedScan.gaveUp_refused member one
    rw [scan_eq ranged enough, ending]

end scan

/-- A poll's scan for messages, and the scan for refunds with the range that it leaves. -/
theorem poll_scanned {source : Source} {config : EVMSourceWatcherConfig}
    {receipt : Log → Option (List ReceiptLog)} {w : Watcher} (ranged : 1 ≤ w.maxBlockRange)
    {fromBlock head : Nat} (forward : fromBlock ≤ head) {calls : List GetLogs}
    (enough : head + 1 - fromBlock + w.maxBlockRange ≤ calls.length) :
    poll source config ⟨fromBlock, head, calls.map GetLogs.reply, receipt, none⟩ w =
        scan source config receipt head (calls.map GetLogs.reply) w fromBlock ∧
      Scanned source config receipt head (calls.map GetLogs.reply) w fromBlock ∧
      ∀ (maxBlockRange start : Nat) (refundCalls : List GetLogs), maxBlockRange =
          (scan source config receipt head (calls.map GetLogs.reply) w fromBlock).2.maxBlockRange →
        head + 1 - start + maxBlockRange ≤ refundCalls.length →
          ∃ last ≤ head + 1 - start + maxBlockRange, ∀ more,
            scanRefunds head ((refundCalls.map GetLogs.reply).take last ++ more) maxBlockRange start =
              scanRefunds head (refundCalls.map GetLogs.reply) maxBlockRange start := by
  have scanned : Scanned source config receipt head (calls.map GetLogs.reply) w fromBlock :=
    scan_scanned ranged forward (by rwa [List.length_map])
  refine ⟨rfl, scanned, ?_⟩
  rintro _ start refundCalls rfl long
  have kept := scanned.keeps
  generalize (scan source config receipt head (calls.map GetLogs.reply) w fromBlock).2 = w' at kept long ⊢
  refine ⟨_, ChunkedScan.requests_length_le ((refundCalls.map GetLogs.reply).map LogsReply.chunk) kept,
    fun more => ?_⟩
  have ends := @scan_ends { source with logs := [] } config receipt head (refundCalls.map GetLogs.reply) w'
    start kept (by rwa [List.length_map]) more
  rw [@scanRefunds_eq config receipt head source, @scanRefunds_eq config receipt head source, ← ends]
  rfl

namespace Sample

/-- The provider takes no four blocks, and not the third block with another. -/
def calls : List GetLogs :=
  [.throws (.error (js "Block range is too wide")), .returns,
    .throws (.error (js "query returned more than the limit"))] ++ List.replicate 4 .returns

def twoLogs : Source := source [firstLog, secondLog 19000001 (js "0xdef")]

end Sample

theorem poll_scanned_sample :
    served (asked 19000002 (Sample.calls.map GetLogs.reply) 4 19000000) =
        [⟨2, 19000000, 19000001⟩, ⟨1, 19000002, 19000002⟩] ∧
      Scanned Sample.twoLogs Sample.config (fun _ => none) 19000002 (Sample.calls.map GetLogs.reply) ⟨4, 0⟩
        19000000 := by
  have scanned := @poll_scanned Sample.twoLogs Sample.config (fun _ => none) ⟨4, 0⟩ (by decide) 19000000
    19000002 (by decide) Sample.calls (by decide)
  exact ⟨by decide +kernel, scanned.2.1⟩

end Perihelion.Relayer.Evm
