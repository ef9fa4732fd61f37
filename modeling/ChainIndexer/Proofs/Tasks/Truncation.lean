import ChainIndexer.Proofs.Tasks.Prompt

/-
  What a timer leaves of a stream.

  The `account` of a stream is what was sent and what is to come, without the numbers. Every action
  but the end of the time keeps it (`account_step`). When the timer strikes, what has been passed on
  stays, and the failure and the end take the place of everything else. What has been passed on is
  then data and nothing but data, since the handler is still at work (`truncated_expire`). So a
  consumer that sees the end has all responses, or a beginning of the data with the failure and the
  end behind it (`truncates_of_reachable`).
-/

namespace ChainIndexer

/-- A response without its number and the task that it answers. -/
def TaskResponse.content (r : TaskResponse) : Tasks.Content :=
  ⟨r.kind, r.payload, r.error, r.isFinal⟩

namespace Tasks

theorem map_content_numberedFrom (id : String) (order : Nat) (cs : List Content) :
    (numberedFrom id order cs).map TaskResponse.content = cs := by
  induction cs generalizing order with
  | nil => rfl
  | cons c rest ih => exact congrArg (c :: ·) (ih (order + 1))

/-- What may become of the responses of a handler when there is a timer. -/
inductive Truncates (c : Course) : List Content → Prop
  | whole : Truncates c c.contents
  | cut {data : List Body} (begins : data <+: c.data) :
      Truncates c (data.map Body.content ++ [failureContent .elapsed, endContent none])

namespace Stream

variable {s t : Stream} {a : Action} {c : Course}

/-- What was sent and what is to come. -/
def account (s : Stream) : List Content :=
  s.sent.map TaskResponse.content ++ s.toCome

theorem account_of_hasEnded (h : s.hasEnded = true) :
    s.account = s.received.map TaskResponse.content := by
  obtain ⟨hs, hr⟩ := sent_of_hasEnded h
  unfold account toCome
  rw [hs, hr, List.append_nil]

theorem account_congr (hs : t.sent = s.sent) (hc : t.toCome = s.toCome) :
    t.account = s.account := by
  unfold account
  rw [hs, hc]

/-- The response that is produced is the first of those to come. -/
theorem account_propose {c : Content} {id : String} {order : Nat}
    (hc : s.toCome = c :: t.toCome) (free : t.waiting = none) (hs : t.sent = s.sent) :
    (t.propose (c.respond id order)).account = s.account := by
  have ht : (t.propose (c.respond id order)).toCome = t.toCome := rfl
  unfold account
  rw [sent_propose free, hs, ht, hc, List.map_append, List.append_assoc]
  rfl

/-- Every action but the end of the time keeps the account. -/
theorem account_step (h : s.step a = some t) (ha : a ≠ .expire) : t.account = s.account := by
  cases moves_of_step h with
  | @data b rest free working more =>
    have hc : s.toCome = b.content :: toCome { s with rest := rest } := by
      unfold toCome
      rw [working, more]
      rfl
    exact account_propose hc free rfl
  | @fail e free failing =>
    have hc : s.toCome = failureContent e :: toCome { s with stage := .ending none } := by
      unfold toCome
      rw [failing]
    exact account_propose hc free rfl
  | @finish text free ending =>
    have hc : s.toCome = endContent text :: toCome { s with stage := .closed } := by
      unfold toCome
      rw [ending]
    exact account_propose hc free rfl
  | push waiting room => exact account_congr (sent_push waiting) rfl
  | conclude free working done =>
    refine account_congr rfl ?_
    rw [toCome_afterHandler (s := s) rfl]
    unfold toCome
    rw [working, done]
    rfl
  | expire working => exact absurd rfl ha
  | receive channel => exact account_congr (sent_receive channel) rfl

/-- A handler that has gone away does not come back. -/
theorem working_of_step (h : s.step a = some t) (ht : t.stage = .working) :
    s.stage = .working := by
  cases moves_of_step h with
  | data free working more => exact working
  | fail free failing => cases ht
  | finish free ending => cases ht
  | push waiting room => exact ht
  | conclude free working done => exact working
  | expire working => exact working
  | receive channel => exact ht

/-! ## Where the timer strikes -/

/-- The account of a stream is that of its handler, unless the timer has struck. -/
inductive Truncated (c : Course) (s : Stream) : Prop
  | whole (outcome : s.outcome = c.outcome) (kept : s.account = c.contents)
  | cut {data : List Body} (begins : data <+: c.data) (struck : s.stage ≠ .working)
      (kept : s.account = data.map Body.content ++ [failureContent .elapsed, endContent none])

/-- As long as the handler is at work, only data has been passed on. -/
theorem begins_of_working (working : s.stage = .working) (outcome : s.outcome = c.outcome)
    (kept : s.account = c.contents) :
    ∃ data, data <+: c.data ∧
      (s.received ++ s.channel).map TaskResponse.content = data.map Body.content := by
  have hd : (s.received ++ s.channel).map TaskResponse.content ++
      (s.waiting.toList.map TaskResponse.content ++ s.rest.map Body.content) =
        c.data.map Body.content := by
    unfold account toCome sent Course.contents at kept
    rw [working, outcome, ← List.append_assoc] at kept
    rw [← List.append_cancel_right kept, ← List.append_assoc, ← List.map_append]
  exact List.prefix_map_iff.1 ⟨_, hd⟩

theorem truncated_expire (h : s.step .expire = some t) (outcome : s.outcome = c.outcome)
    (kept : s.account = c.contents) : Truncated c t := by
  cases moves_of_step h with
  | expire working =>
    obtain ⟨data, hb, hp⟩ := begins_of_working working outcome kept
    refine .cut hb nofun ?_
    unfold account sent toCome
    rw [← hp, Option.toList_none, List.append_nil]

theorem truncated_step (h : s.step a = some t) (hi : Truncated c s) : Truncated c t := by
  by_cases ha : a = .expire
  · subst ha
    cases hi with
    | whole outcome kept => exact truncated_expire h outcome kept
    | cut begins struck kept =>
      cases moves_of_step h with
      | expire working => exact absurd working struck
  · have hk := account_step h ha
    cases hi with
    | whole outcome kept => exact .whole ((outcome_step h).trans outcome) (hk.trans kept)
    | cut begins struck kept =>
      exact .cut begins (fun hw => struck (working_of_step h hw)) (hk.trans kept)

theorem truncated_of_reachable {id : String} (h : Reachable (start id c) s) : Truncated c s := by
  induction h with
  | start => exact .whole rfl rfl
  | step before now ih => exact truncated_step now ih

/-- Wherever the timer strikes, a consumer that has seen the end has all responses of the handler,
or a beginning of its data and then the failure and the end. -/
theorem truncates_of_reachable {id : String} (h : Reachable (start id c) s)
    (he : s.hasEnded = true) : Truncates c (s.received.map TaskResponse.content) := by
  rw [← account_of_hasEnded he]
  cases truncated_of_reachable h with
  | whole outcome kept =>
    rw [kept]
    exact .whole
  | cut begins struck kept =>
    rw [kept]
    exact .cut begins

/-- Without a timer a consumer that has seen the end has all responses. -/
theorem contents_of_uncut {id : String} (h : Uncut (start id c) s) (he : s.hasEnded = true) :
    s.received.map TaskResponse.content = c.contents := by
  rw [(received_of_uncut h (framed_start id c)).2 he]
  exact map_content_numberedFrom id 0 c.contents

end Stream

end Tasks

end ChainIndexer
