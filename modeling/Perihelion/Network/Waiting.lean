import Perihelion.Network.Reports
import Perihelion.Sdk.Client

/-! # What a waiting user learns

`waitForSettlement` asks the mempool until it shows a final status.  Where the mempool is the
network's, what the user is given is what has happened to the money.
-/

namespace Perihelion.Network

open Transition
open Sdk (JsString IntentRecord PerihelionClient)
open Sdk.Client (Poll Reads waitForSettlement terminal)
open Mempool (MempoolIntentRecord handleGetIntent)

/-- Each success among the replies is the mempool's answer in some state of the network. -/
def Answered (n : Setting) (hash : JsString) (polls : List Poll) : Prop :=
  ∀ poll ∈ polls, ∀ res, .ok res ∈ poll.replies → res.ok = true → ∀ json, res.json = .ok json →
    ∃ w record, (system n).Reachable w ∧
      handleGetIntent (Relayer.toLowerCase hash) w.server = .ok record ∧ json = record.json

/-- A record keeps its hash and its status on the way to the client. -/
theorem parsed_json {viem : Sdk.Viem} {record : MempoolIntentRecord} {parsed : IntentRecord}
    (ok : Sdk.parseIntentRecord viem record.json = .ok parsed) :
    parsed.hash = record.hash ∧ parsed.status = record.status.wire := by
  obtain ⟨-, -, hashed, status, -, -, -⟩ := Sdk.parseIntentRecord_ok.mp ok
  obtain ⟨given, -⟩ := Sdk.asHexText_ok.mp hashed
  have same : record.hash = parsed.hash := Sdk.JsValue.string.inj given
  exact ⟨same.symm, ((Sdk.asStatus_text _ _).mp status).1.symm⟩

/-- The record that ends the wait was read in one of the polls. -/
theorem returned_read {client : PerihelionClient} {hash : JsString} {intervalMs timeoutMs : Option Int}
    {started : Int} {polls : List Poll} {record : IntentRecord}
    (returned : (waitForSettlement client hash intervalMs timeoutMs started polls).ending =
      .returned record) :
    terminal record.status = true ∧ ∃ poll ∈ polls, Reads client poll.replies record := by
  obtain ⟨records, logs, waited⟩ := Sdk.Client.polling_waited client hash (intervalMs.getD 3000)
    (started + timeoutMs.getD 300000) none polls
  obtain ⟨last, final⟩ := (waited.returned record).mp returned
  obtain ⟨before, rfl⟩ := List.getLast?_eq_some_iff.mp last
  refine ⟨final, ?_⟩
  obtain ⟨poll, _, ⟨-, reads⟩, -, here⟩ :=
    List.forall₂_cons_right_iff.mp (List.forall₂_drop_append _ _ _ waited.read)
  have member : poll ∈ (polls.take (before ++ [record]).length).drop before.length :=
    here ▸ List.mem_cons_self
  exact ⟨poll, List.mem_of_mem_take (List.mem_of_mem_drop member), reads⟩

/-- The user is told `settled` of an intent only when its recipient has been paid, and `refunded`
    only when its own money is back. -/
theorem awaited_means {n : Setting} (early : n.horizon < uint64) (fits : n.mempool.Fits)
    {client : PerihelionClient} {hash : JsString} {intervalMs timeoutMs : Option Int} {started : Int}
    {polls : List Poll} {record : IntentRecord} (answered : Answered n hash polls)
    (returned : (waitForSettlement client hash intervalMs timeoutMs started polls).ending =
      .returned record) :
    ∃ w stored message, (system n).Reachable w ∧
      handleGetIntent (Relayer.toLowerCase hash) w.server = .ok stored ∧
      Meant n w (Relayer.toLowerCase hash) stored message ∧
      record.hash = stored.hash ∧ record.status = stored.status.wire ∧
      terminal record.status = true := by
  obtain ⟨final, poll, here, res, among, ok, json, body, parsed⟩ := returned_read returned
  obtain ⟨w, stored, reach, served, rfl⟩ := answered poll here res among ok json body
  have shown := served
  simp only [handleGetIntent, Mempool.parseHashParam, Relayer.toLowerCase_toLowerCase,
    Fallible.bind_ok, Fallible.require_ok, Fallible.expect_ok, Fallible.pure_ok, exists_const] at shown
  obtain ⟨key, ⟨-, rfl⟩, found⟩ := shown
  obtain ⟨message, meant⟩ := (sound_of_reachable reach).meant early fits found
  obtain ⟨sameHash, sameStatus⟩ := parsed_json parsed
  exact ⟨w, stored, message, reach, served, meant, sameHash, sameStatus, final⟩

namespace Sample

def client : PerihelionClient :=
  ⟨Sdk.js "http://localhost:3000", 10000, 3, Mempool.Sample.settings.viem⟩

theorem stored_isSome : (settled.server.store.get Mempool.Sample.hash).isSome = true := by
  obtain ⟨record, stored, -⟩ := settled_stored
  rw [stored]
  rfl

def stored : MempoolIntentRecord :=
  (settled.server.store.get Mempool.Sample.hash).get stored_isSome

/-- The first request meets a server that is restarting. -/
def poll : Poll :=
  ⟨0, [.ok ⟨503, .ok [], .ok .undefined⟩, .ok ⟨200, .ok [], .ok stored.json⟩], 250⟩

theorem answered : Answered setting Mempool.Sample.hash [poll] := by
  intro p here res among ok json body
  cases List.mem_singleton.mp here
  rcases List.mem_cons.mp among with refused | among
  · cases refused
    cases ok
  · cases List.mem_singleton.mp among
    cases body
    refine ⟨settled, stored, settled_reachable, ?_, rfl⟩
    rw [handleGetIntent, Fallible.bind_ok]
    exact ⟨Mempool.Sample.hash, rfl, (Fallible.expect_ok _ _ _).mpr (by simp [stored])⟩

theorem returned : ∃ record, (waitForSettlement client Mempool.Sample.hash none none 0 [poll]).ending =
    .returned record ∧ record.status = .settled := by
  have shown : (waitForSettlement client Mempool.Sample.hash none none 0 [poll]).ending.result.map
      (fun record => record.status) = some .settled := by
    decide +kernel
  obtain ⟨record, ended, status⟩ := Option.map_eq_some_iff.mp shown
  exact ⟨record, Logged.Ending.result_eq.mp ended, status⟩

end Sample

theorem awaited_means_sample : ∃ record : IntentRecord, record.status = .settled ∧
    ∃ w stored message, (system Sample.setting).Reachable w ∧
      handleGetIntent (Relayer.toLowerCase Mempool.Sample.hash) w.server = .ok stored ∧
      Meant Sample.setting w (Relayer.toLowerCase Mempool.Sample.hash) stored message ∧
      record.hash = stored.hash ∧
      record.status = stored.status.wire ∧ terminal record.status = true := by
  obtain ⟨record, returned, settled⟩ := Sample.returned
  exact ⟨record, settled,
    awaited_means (by decide) Mempool.Sample.settings_fits Sample.answered returned⟩

end Perihelion.Network
