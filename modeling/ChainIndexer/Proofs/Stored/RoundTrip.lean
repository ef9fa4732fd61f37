import ChainIndexer.Stored.Task
import ChainIndexer.Proofs.Stored.Records

/-
  What is stored is found again.

  A value `Survives` if its stored text is a document from which the value is read. Amounts, logs,
  events, transactions, blocks and holdings survive if their numbers fit their widths. A response
  does exactly if its payload is nested no deeper than a reader of any form goes and each binary
  number in it is read as itself (`survives_iff`): whatever becomes of the payload, nothing else of
  a response is lost (`ofJson_form`).
-/

namespace ChainIndexer

open Json

/-- Whether a value is read from the text that stores it. -/
def Survives (write : α → Json) (read : Json → Except Fault α) (a : α) : Prop :=
  (Json.read? (write a).toText).map read = some (.ok a)

theorem survives_iff_reread {write : α → Json} {read : Json → Except Fault α} {a : α} :
    Survives write read a ↔ read (write a).reread = .ok a := by
  unfold Survives
  rw [Json.read?_toText, Option.map_some, Option.some.injEq]

namespace TaskResponse

/-! ## Responses -/

/-- The number of a response fits, and its payload is settled. -/
structure Fits (r : TaskResponse) : Prop where
  order : r.order ≤ Text.maxWord64
  payload : r.payload.Settled

@[simp] theorem valuesOf_payloadField (name : String) (v : Json) :
    valuesOf name (payloadField v) =
      if "payload" = name then (payloadField v).map Prod.snd else [] :=
  valuesOf_of_names (by unfold payloadField; split <;> simp [field]) name

variable {form : Json → Json} (h : Form form)
include h

theorem readTaskError_form (text : String) :
    readTaskError (form (taskErrorJson text)) = .ok text := by
  unfold readTaskError taskErrorJson
  refine h.readRecord fun gs shows => ?_
  exact gives_required shows (by simp) (h.readText text)

theorem result_payload {fields gs : List (String × Json)} (shows : Shows form fields gs) {v : Json}
    (hv : valuesOf "payload" fields = (payloadField v).map Prod.snd) {k : Nat} :
    ∃ i, (Parts.defaulted (.named gs) k "payload" .null readAny).result
      = (readAny (form v)).mapError (i, ·) := by
  by_cases hn : v = .null
  · subst hn
    have hg : (Parts.defaulted (.named gs) k "payload" .null readAny).Gives .null :=
      gives_default shows hv
    rw [h.null]
    exact ⟨0, hg⟩
  · have hs : valuesOf "payload" gs = [form v] := by
      refine shows.single (hv.trans ?_)
      unfold payloadField
      split
      · exact absurd rfl hn
      · rfl
    rw [← map_snd_found "payload" k] at hs
    obtain ⟨⟨i, w⟩, hf, hw⟩ := List.map_eq_singleton_iff.1 hs
    unfold Parts.defaulted
    rw [hf, show w = form v from hw]
    exact ⟨i, rfl⟩

/-- A response is read with the payload that a reader of any form finds. -/
theorem ofJson_form {r : TaskResponse} (fits : r.order ≤ Text.maxWord64) :
    ofJson (form r.toJson) = (readAny (form r.payload)).map fun p => { r with payload := p } := by
  obtain ⟨id, kind, order, payload, error, isFinal⟩ := r
  obtain ⟨gs, hg, shows⟩ := h.shows (Json.field "id" (.text id) ++ Json.field "type" (.text kind)
    ++ Json.field "order" (.nat order) ++ payloadField payload
    ++ Json.optionField "error" (error.map taskErrorJson) ++ Json.field "final" (.bool isFinal))
  have hid : (Parts.required (.named gs) (recordOf "TaskResponse" 6) 0 "id" readText).Gives id :=
    gives_required shows (by simp) (h.readText id)
  have hkind :
      (Parts.required (.named gs) (recordOf "TaskResponse" 6) 1 "type" readText).Gives kind :=
    gives_required shows (by simp) (h.readText kind)
  have horder :
      (Parts.required (.named gs) (recordOf "TaskResponse" 6) 2 "order" readNat64).Gives order :=
    gives_required shows (by simp) (h.readNat64 fits)
  have herror :
      (Parts.defaulted (.named gs) 4 "error" none (readOption readTaskError)).Gives error :=
    gives_optionField shows (by simp) (fun t _ => readTaskError_form h t) fun t _ => h.object_ne _
  have hfinal :
      (Parts.required (.named gs) (recordOf "TaskResponse" 6) 5 "final" readBool).Gives isFinal :=
    gives_required shows (by simp) (h.readBool isFinal)
  obtain ⟨i, hp⟩ := result_payload h (v := payload) (k := 3) shows (by simp)
  have hfront := ((hid.map TaskResponse.mk).seq hkind).seq horder
  unfold toJson
  dsimp only
  rw [hg]
  unfold ofJson readRecord
  dsimp only
  rw [hfinal.result_seq_left, herror.result_seq_left, hfront.result_seq, hp]
  cases readAny (form payload) with
  | ok p => rfl
  | error e => rfl

omit h in
/-- A response survives exactly if a reader of any form finds its payload again. -/
theorem survives_iff {r : TaskResponse} (fits : r.Fits) :
    Survives toJson ofJson r ↔ r.payload.depth ≤ nestingLimit ∧ Recovered r.payload.floats := by
  rw [survives_iff_reread, ofJson_form form_reread fits.order, ← readAny_reread fits.payload]
  obtain ⟨id, kind, order, payload, error, isFinal⟩ := r
  cases readAny payload.reread with
  | ok p => simp [Except.map]
  | error e => simp [Except.map]

end TaskResponse

/-! ## All stored values -/

/-- Every stored value whose numbers fit is found again behind its text, and a response exactly if
its payload is nested no deeper than a reader of any form goes and the binary numbers in it are
recovered. -/
theorem stored_values_survive :
    (∀ a : Amount, a.Fits → Survives Amount.toJson Amount.ofJson a) ∧
    (∀ log : MessageLog, log.Fits → Survives MessageLog.toJson MessageLog.ofJson log) ∧
    (∀ e : Event, e.Fits → Survives Event.toJson Event.ofJson e) ∧
    (∀ e : TransactionEvent, e.Fits → Survives TransactionEvent.toJson TransactionEvent.ofJson e) ∧
    (∀ t : Transaction, t.Fits → Survives Transaction.toJson Transaction.ofJson t) ∧
    (∀ b : Block, b.Fits → Survives Block.toJson Block.ofJson b) ∧
    (∀ r : Rewards, r.Fits → Survives Rewards.toJson Rewards.ofJson r) ∧
    (∀ b : Balances, b.Fits → Survives Balances.toJson Balances.ofJson b) ∧
    (∀ d : Delegations, d.Fits → Survives Delegations.toJson Delegations.ofJson d) ∧
    (∀ r : TaskResponse, r.Fits → (Survives TaskResponse.toJson TaskResponse.ofJson r ↔
      r.payload.depth ≤ nestingLimit ∧ Recovered r.payload.floats)) := by
  refine ⟨?_, ?_, ?_, ?_, ?_, ?_, ?_, ?_, ?_, ?_⟩
  · exact fun a fits => survives_iff_reread.2 (Amount.ofJson_form form_reread fits)
  · exact fun log fits => survives_iff_reread.2 (MessageLog.ofJson_form form_reread fits)
  · exact fun e fits => survives_iff_reread.2 (Event.ofJson_form form_reread fits)
  · exact fun e fits => survives_iff_reread.2 (TransactionEvent.ofJson_form form_reread fits)
  · exact fun t fits => survives_iff_reread.2 (Transaction.ofJson_form form_reread fits)
  · exact fun b fits => survives_iff_reread.2 (Block.ofJson_form form_reread fits)
  · exact fun r fits => survives_iff_reread.2 (Rewards.ofJson_form form_reread fits)
  · exact fun b fits => survives_iff_reread.2 (Balances.ofJson_form form_reread fits)
  · exact fun d fits => survives_iff_reread.2 (Delegations.ofJson_form form_reread fits)
  · exact fun r fits => TaskResponse.survives_iff fits

/-! ## One value of each kind -/

/-- The binary number that a value is. -/
def Json.binary? : Json → Option Number.Binary64
  | .number (.binary x) => some x
  | _ => none

theorem Json.eq_of_binary? {v : Json} {x : Number.Binary64} (h : v.binary? = some x) :
    v = .number (.binary x) := by
  unfold Json.binary? at h
  split at h
  · rw [Option.some.inj h]
  · exact absurd h nofun

/-- A response with a payload. -/
def TaskResponse.carrying (payload : Json) : TaskResponse :=
  ⟨"task-1", "Block", 0, payload, none, false⟩

namespace Stored.Sample

/-- A negative amount of more than 64 bits. -/
def amount : Amount :=
  ⟨"-73786976294838206465", -73786976294838206465, 6, "uatom"⟩

/-- A log without a text. -/
def log : MessageLog :=
  ⟨4294967295, "", [⟨"transfer", [⟨"sender", "a\n\"b\""⟩]⟩]⟩

/-- An event with an account that has details, and with an error. -/
def event : Event :=
  ⟨["send"], "bank", [⟨⟨"a", some ⟨"Ann", "", "", ""⟩⟩, [amount]⟩], [], .single "v" [.plain "a"],
    .single "fee" amount, .empty, .single "memo" ["x", "y"], some "broken"⟩

/-- A leap second with a fraction. -/
def time : Instant :=
  ⟨1483228799, 1500000000, by decide⟩

/-- A transaction with raw bytes. -/
def transaction : Transaction :=
  ⟨7, "h", "b", "hub-1", time, 5, 3, [amount], "", [0, 255, 16, 3], [65], [⟨"0", "send", [event]⟩]⟩

/-- A share on its way back without a time. -/
def delegations : Delegations :=
  ⟨7, [⟨"a", "v", amount, amount⟩], [⟨"a", "v", [⟨-1, none, amount, amount⟩]⟩]⟩

/-- The number 0.5. -/
def half : Number.Binary64 :=
  ⟨false, 4503599627370496, -53, by decide⟩

theorem fits_amount : amount.Fits :=
  ⟨by decide, by decide⟩

theorem fits_amounts : ∀ a ∈ [amount], a.Fits := by
  rintro a (_ | ⟨_, ⟨⟩⟩)
  exact fits_amount

theorem fits_event : event.Fits where
  senders := by
    rintro t (_ | ⟨_, ⟨⟩⟩)
    exact fits_amounts
  recipients := nofun
  amounts := by
    rintro x (_ | ⟨_, ⟨⟩⟩)
    exact fits_amount
  transfers := nofun

theorem fits_events : ∀ e ∈ [event], e.Fits := by
  rintro e (_ | ⟨_, ⟨⟩⟩)
  exact fits_event

end Stored.Sample

open Stored in
/-- A value of each kind that fits is found again. -/
theorem samples_survive :
    Survives Amount.toJson Amount.ofJson Sample.amount ∧
    Survives MessageLog.toJson MessageLog.ofJson Sample.log ∧
    Survives Event.toJson Event.ofJson Sample.event ∧
    Survives TransactionEvent.toJson TransactionEvent.ofJson ⟨"0", "send", [Sample.event]⟩ ∧
    Survives Transaction.toJson Transaction.ofJson Sample.transaction ∧
    Survives Block.toJson Block.ofJson ⟨"b", 7, Sample.time, "hub-1", 1⟩ ∧
    Survives Rewards.toJson Rewards.ofJson ⟨7, .single "v" [Sample.amount]⟩ ∧
    Survives Balances.toJson Balances.ofJson ⟨7, [Sample.amount]⟩ ∧
    Survives Delegations.toJson Delegations.ofJson Sample.delegations ∧
    Survives TaskResponse.toJson TaskResponse.ofJson
      (.carrying (.object [("n", .int (-1)), ("x", .array [.number (.binary Sample.half)])])) := by
  obtain ⟨amounts, logs, events, transactionEvents, transactions, blocks, rewards, balances,
    delegations, responses⟩ := stored_values_survive
  refine ⟨amounts _ Sample.fits_amount, logs _ ?_, events _ Sample.fits_event,
    transactionEvents _ Sample.fits_events, transactions _ ?_, blocks _ ?_, rewards _ ?_,
    balances _ ?_, delegations _ ?_, (responses _ ?_).2 ⟨by decide, ?_⟩⟩
  · show 4294967295 ≤ Text.maxWord32
    decide
  · refine ⟨by decide, by decide, by decide, Sample.fits_amounts, ?_⟩
    rintro e (_ | ⟨_, ⟨⟩⟩)
    exact Sample.fits_events
  · exact ⟨by decide, by decide⟩
  · refine ⟨by decide, ?_⟩
    rintro x (_ | ⟨_, ⟨⟩⟩)
    exact Sample.fits_amounts
  · exact ⟨by decide, Sample.fits_amounts⟩
  · refine ⟨by decide, ?_, ?_⟩
    · rintro d (_ | ⟨_, ⟨⟩⟩)
      exact ⟨Sample.fits_amount, Sample.fits_amount⟩
    · rintro u (_ | ⟨_, ⟨⟩⟩) e (_ | ⟨_, ⟨⟩⟩)
      exact ⟨by decide, Sample.fits_amount, Sample.fits_amount⟩
  · refine ⟨by decide, ?_, ⟨by decide, by decide⟩, ⟨trivial, trivial⟩, trivial⟩
    exact .cons (fun e he => by rw [List.mem_singleton.1 he]; decide) (.cons nofun .nil)
  · rintro x (_ | ⟨_, ⟨⟩⟩)
    exact eq_of_binary? (by decide +kernel)

/-! ## Payloads that are lost -/

/-- Nothing, in a number of lists one within the other. -/
def Json.nested : Nat → Json
  | 0 => .null
  | n + 1 => .array [nested n]

theorem Json.depth_nested (n : Nat) : (nested n).depth = n := by
  induction n with
  | zero => rfl
  | succ n ih => rw [nested, depth, itemsDepth, ih, itemsDepth, Nat.max_zero]

theorem Json.settled_nested (n : Nat) : (nested n).Settled := by
  induction n with
  | zero => trivial
  | succ n ih => exact ⟨ih, trivial⟩

/-- The number next above 91.3. -/
def Number.Binary64.above913 : Number.Binary64 :=
  ⟨false, 6424666343420724, -46, by decide⟩

example : Number.Binary64.above913.text = "91.30000000000001" := by decide +kernel

theorem not_recovered_above913 : ¬Recovered [Number.Binary64.above913] := by
  intro hr
  have hb : (JsonNumber.binary Number.Binary64.above913).reread.binary?
      = some ⟨false, 6424666343420723, -46, by decide⟩ := by decide +kernel
  rw [hr _ List.mem_cons_self] at hb
  exact absurd hb (by decide)

namespace TaskResponse

theorem fits_deep : (carrying (.nested 127)).Fits :=
  ⟨by decide, settled_nested 127⟩

theorem not_survives_deep : ¬Survives toJson ofJson (carrying (.nested 127)) := by
  intro hs
  have hn := ((survives_iff fits_deep).1 hs).1
  rw [carrying, depth_nested] at hn
  exact absurd hn (by decide)

theorem fits_inexact : (carrying (.number (.binary .above913))).Fits :=
  ⟨by decide, trivial⟩

theorem not_survives_inexact :
    ¬Survives toJson ofJson (carrying (.number (.binary .above913))) :=
  fun hs => not_recovered_above913 ((survives_iff fits_inexact).1 hs).2

end TaskResponse

/-- Two responses that are not found again: the payload of one is nested a level too deep, and that
of the other is a number that is read as its neighbour. -/
theorem payload_not_found_again :
    ((TaskResponse.carrying (.nested 127)).Fits ∧
      ¬Survives TaskResponse.toJson TaskResponse.ofJson (.carrying (.nested 127))) ∧
    ((TaskResponse.carrying (.number (.binary .above913))).Fits ∧
      ¬Survives TaskResponse.toJson TaskResponse.ofJson
        (.carrying (.number (.binary .above913)))) :=
  ⟨⟨TaskResponse.fits_deep, TaskResponse.not_survives_deep⟩,
    TaskResponse.fits_inexact, TaskResponse.not_survives_inexact⟩

end ChainIndexer
