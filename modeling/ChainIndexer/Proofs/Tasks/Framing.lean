import ChainIndexer.Proofs.Tasks.Moves

/-
  The responses that a consumer receives.

  A `Content` is a response without its number. What the consumer has received, what is in the
  channel, what waits, and what is still to come with the numbers from the next one on are together
  all contents with the numbers from 0 on: every action keeps this, except for the end of the time
  (`framed_step`). So a consumer of any speed has a beginning of these responses and at the end all
  of them (`received_of_uncut`): the data of the handler, an error if it failed, and the end.
-/

namespace ChainIndexer.Tasks

/-! ## Numbers -/

/-- A response without its number and the task that it answers. -/
structure Content where
  kind : String
  payload : Json
  error : Option String
  isFinal : Bool

/-- The response with a number. -/
def Content.respond (c : Content) (id : String) (order : Nat) : TaskResponse :=
  ⟨id, c.kind, order, c.payload, c.error, c.isFinal⟩

/-- Responses with the numbers from `order` on. -/
def numberedFrom (id : String) : Nat → List Content → List TaskResponse
  | _, [] => []
  | order, c :: rest => c.respond id order :: numberedFrom id (order + 1) rest

/-- A data response. -/
def Body.content (b : Body) : Content :=
  ⟨b.kind.name, b.payload, none, false⟩

/-- The response that tells of a failure. -/
def failureContent (e : Error) : Content :=
  ⟨ResponseType.error.name, .null, some e.message, false⟩

/-- The response that ends a stream. -/
def endContent (text : Option String) : Content :=
  ⟨endKind, .null, text, true⟩

/-- What follows the data of a handler. -/
def closing : Outcome → List Content
  | .done => [endContent none]
  | .failed e => [failureContent e, endContent none]
  | .overflow => []

/-- The failure that a handler ends with. -/
def Outcome.failure? : Outcome → Option Error
  | .failed e => some e
  | .done => none
  | .overflow => none

theorem closing_of_ne_overflow {o : Outcome} (h : o ≠ .overflow) :
    closing o = o.failure?.toList.map failureContent ++ [endContent none] := by
  cases o with
  | done => rfl
  | failed e => rfl
  | overflow => exact absurd rfl h

/-- All responses of a handler that nothing cuts off. -/
def Course.contents (c : Course) : List Content :=
  c.data.map Body.content ++ closing c.outcome

namespace Stream

variable {s t : Stream} {a : Action}

/-- The responses that are not produced yet, if nothing cuts the handler off. -/
def toCome (s : Stream) : List Content :=
  match s.stage with
  | .working => s.rest.map Body.content ++ closing s.outcome
  | .failing e => [failureContent e, endContent none]
  | .ending text => [endContent text]
  | .closed => []

/-- The responses that have been produced and not lost. -/
def sent (s : Stream) : List TaskResponse :=
  s.received ++ s.channel ++ s.waiting.toList

theorem toCome_afterHandler (h : t.stage = afterHandler s.outcome) :
    t.toCome = closing s.outcome := by
  unfold toCome
  rw [h]
  cases s.outcome with
  | done => rfl
  | failed e => rfl
  | overflow => rfl

/-! ## What every action keeps -/

/-- What was sent and what is to come are all contents, in their order and numbered. -/
def Framed (id : String) (contents : List Content) (s : Stream) : Prop :=
  s.id = id ∧ s.sent ++ numberedFrom id s.order s.toCome = numberedFrom id 0 contents

theorem framed_start (id : String) (c : Course) : Framed id c.contents (start id c) :=
  ⟨rfl, rfl⟩

theorem framed_refused (id text : String) :
    Framed id [endContent (some text)] (refused id text) :=
  ⟨rfl, rfl⟩

theorem sent_propose (h : s.waiting = none) (r : TaskResponse) :
    (s.propose r).sent = s.sent ++ [r] := by
  unfold sent
  rw [h]
  simp only [propose, Option.toList, List.append_nil]

theorem sent_push {r : TaskResponse} (h : s.waiting = some r) :
    sent { s with waiting := none, channel := s.channel ++ [r] } = s.sent := by
  simp only [sent, h, Option.toList, List.append_nil, List.append_assoc]

theorem sent_receive {r : TaskResponse} {rest : List TaskResponse} (h : s.channel = r :: rest) :
    sent { s with channel := rest, received := s.received ++ [r] } = s.sent := by
  simp only [sent, h, List.append_assoc, List.cons_append, List.nil_append]

theorem sent_of_hasEnded (h : s.hasEnded = true) : s.stage = .closed ∧ s.sent = s.received := by
  unfold hasEnded at h
  simp only [Bool.and_eq_true, beq_iff_eq, Option.isNone_iff_eq_none, List.isEmpty_iff] at h
  obtain ⟨⟨hs, hw⟩, hc⟩ := h
  refine ⟨hs, ?_⟩
  unfold sent
  rw [hw, hc]
  simp only [Option.toList, List.append_nil]

/-- The response that is produced is the first of those to come. -/
theorem framed_propose {id : String} {contents : List Content} {c : Content}
    (hi : Framed id contents s) (hc : s.toCome = c :: t.toCome) (free : t.waiting = none)
    (hid : t.id = s.id) (ho : t.order = s.order) (hs : t.sent = s.sent) :
    Framed id contents (t.propose (c.respond s.id s.order)) := by
  obtain ⟨hn, hf⟩ := hi
  have ht : (t.propose (c.respond s.id s.order)).toCome = t.toCome := rfl
  have hp : (t.propose (c.respond s.id s.order)).order = s.order + 1 := congrArg (· + 1) ho
  refine ⟨hid.trans hn, ?_⟩
  rw [← hf, hc, sent_propose free, hs, ht, hp, List.append_assoc, ← hn]
  rfl

/-- Every action but the end of the time keeps the contents. -/
theorem framed_step {id : String} {contents : List Content} (h : s.step a = some t)
    (ha : a ≠ .expire) (hi : Framed id contents s) : Framed id contents t := by
  have hf := hi.2
  -- Producing takes the first of what is to come; the other actions only move what was sent.
  cases moves_of_step h with
  | @data b rest free working more =>
    have hc : s.toCome = b.content :: toCome { s with rest := rest } := by
      unfold toCome
      rw [working, more]
      rfl
    exact framed_propose hi hc free rfl rfl rfl
  | @fail e free failing =>
    have hc : s.toCome = failureContent e :: toCome { s with stage := .ending none } := by
      unfold toCome
      rw [failing]
    exact framed_propose hi hc free rfl rfl rfl
  | @finish text free ending =>
    have hc : s.toCome = endContent text :: toCome { s with stage := .closed } := by
      unfold toCome
      rw [ending]
    exact framed_propose hi hc free rfl rfl rfl
  | push waiting room =>
    refine ⟨hi.1, ?_⟩
    rw [← hf, sent_push waiting]
    rfl
  | conclude free working done =>
    refine ⟨hi.1, ?_⟩
    have hc : s.toCome = closing s.outcome := by
      unfold toCome
      rw [working, done]
      rfl
    rw [← hf, hc, toCome_afterHandler (s := s) rfl]
    rfl
  | expire working => exact absurd rfl ha
  | receive channel =>
    refine ⟨hi.1, ?_⟩
    rw [← hf, sent_receive channel]
    rfl

/-! ## Runs that nothing cuts off -/

/-- The streams that can come about while the time is not over. -/
inductive Uncut (s₀ : Stream) : Stream → Prop
  | start : Uncut s₀ s₀
  | step {s t : Stream} {a : Action} (before : Uncut s₀ s) (now : s.step a = some t)
      (inTime : a ≠ .expire) : Uncut s₀ t

theorem framed_of_uncut {s₀ : Stream} {id : String} {contents : List Content} (h : Uncut s₀ s)
    (hi : Framed id contents s₀) : Framed id contents s := by
  induction h with
  | start => exact hi
  | step before now inTime ih => exact framed_step now inTime ih

theorem uncut_advanceBy {s₀ : Stream} (n : Nat) (h : Uncut s₀ s) :
    Uncut s₀ (advanceBy false n s) := by
  induction n generalizing s with
  | zero => exact h
  | succ n ih =>
    unfold advanceBy
    cases hf : s.firstStep (promptly false) with
    | none => exact h
    | some t =>
      obtain ⟨a, ha, hs⟩ := step_of_firstStep hf
      have he : a ≠ .expire := by
        intro h
        simp [h, promptly] at ha
      exact ih (.step h hs he)

theorem received_of_hasEnded {id : String} {contents : List Content} (hi : Framed id contents s)
    (he : s.hasEnded = true) : s.received = numberedFrom id 0 contents := by
  obtain ⟨hs, hr⟩ := sent_of_hasEnded he
  have hf := hi.2
  unfold toCome at hf
  rw [hs, hr] at hf
  simpa [numberedFrom] using hf

/-- In whatever order the responses are produced, passed on and received, the consumer has a
beginning of all of them, and all of them when it sees the end. -/
theorem received_of_uncut {s₀ : Stream} {id : String} {contents : List Content} (h : Uncut s₀ s)
    (hi : Framed id contents s₀) :
    s.received <+: numberedFrom id 0 contents ∧
      (s.hasEnded = true → s.received = numberedFrom id 0 contents) := by
  have hs := framed_of_uncut h hi
  refine ⟨⟨s.channel ++ s.waiting.toList ++ numberedFrom id s.order s.toCome, ?_⟩,
    received_of_hasEnded hs⟩
  rw [← hs.2]
  simp only [sent, List.append_assoc]

/-- A prompt consumer comes to the end. -/
theorem responses_of_framed {id : String} {contents : List Content} (hi : Framed id contents s) :
    s.responses false = numberedFrom id 0 contents :=
  (received_of_uncut (uncut_advanceBy s.work .start) hi).2 (hasEnded_advanceBy (Nat.le_refl _))

theorem responses_start (id : String) (c : Course) :
    (start id c).responses false = numberedFrom id 0 c.contents :=
  responses_of_framed (framed_start id c)

theorem responses_refused (id text : String) :
    (refused id text).responses false = numberedFrom id 0 [endContent (some text)] :=
  responses_of_framed (framed_refused id text)

end Stream

end ChainIndexer.Tasks
