import ChainIndexer.Tasks.Stream

/-
  The actions of a stream of responses, one by one.

  `Moves` says of each action what it needs and what it changes. A prompt consumer takes the first
  action that is possible, and does some of the work with it; so a prompt run comes to a state in
  which nothing is possible any more, and there the consumer has seen the end
  (`hasEnded_advanceBy`).
-/

namespace ChainIndexer.Tasks.Stream

variable {s t : Stream} {a : Action} {isCut : Bool}

/-- An action with what it needs, and the stream after it. -/
inductive Moves (s : Stream) : Action → Stream → Prop
  | data {b : Body} {rest : List Body} (free : s.waiting = none) (working : s.stage = .working)
      (more : s.rest = b :: rest) :
      Moves s .produce
        ({ s with rest := rest }.propose (s.numbered b.kind.name b.payload none false))
  | fail {e : Error} (free : s.waiting = none) (failing : s.stage = .failing e) :
      Moves s .produce
        ({ s with stage := .ending none }.propose
          (s.numbered ResponseType.error.name .null (some e.message) false))
  | finish {text : Option String} (free : s.waiting = none) (ending : s.stage = .ending text) :
      Moves s .produce
        ({ s with stage := .closed }.propose (s.numbered endKind .null text true))
  | push {r : TaskResponse} (waiting : s.waiting = some r) (room : s.channel.length < room) :
      Moves s .push { s with waiting := none, channel := s.channel ++ [r] }
  | conclude (free : s.waiting = none) (working : s.stage = .working) (done : s.rest = []) :
      Moves s .conclude { s with stage := afterHandler s.outcome }
  | expire (working : s.stage = .working) :
      Moves s .expire { s with rest := [], waiting := none, stage := .failing .elapsed }
  | receive {r : TaskResponse} {rest : List TaskResponse} (channel : s.channel = r :: rest) :
      Moves s .receive { s with channel := rest, received := s.received ++ [r] }

theorem moves_of_step (h : s.step a = some t) : Moves s a t := by
  cases a with
  | produce =>
    simp only [step] at h
    split at h
    · cases h
    · rename_i hw hs
      split at h
      · rename_i b rest hr
        cases h
        exact .data hw hs hr
      · cases h
    · rename_i e hw hs
      cases h
      exact .fail hw hs
    · rename_i text hw hs
      cases h
      exact .finish hw hs
    · cases h
  | push =>
    simp only [step] at h
    split at h
    · rename_i r hw
      split at h
      · rename_i hl
        cases h
        exact .push hw hl
      · cases h
    · cases h
  | conclude =>
    simp only [step] at h
    split at h
    · rename_i hw hs hr
      cases h
      exact .conclude hw hs hr
    · cases h
  | expire =>
    simp only [step] at h
    split at h
    · rename_i hs
      cases h
      exact .expire hs
    · cases h
  | receive =>
    simp only [step] at h
    split at h
    · rename_i r rest hc
      cases h
      exact .receive hc
    · cases h

/-! ## Work that is left -/

theorem work_afterHandler_lt (o : Outcome) : Stage.work (afterHandler o) < Stage.work .working := by
  cases o with
  | done => simp [afterHandler, Stage.work]
  | failed e => simp [afterHandler, Stage.work]
  | overflow => simp [afterHandler, Stage.work]

/-- Every action does some of the work. -/
theorem work_step (h : s.step a = some t) : t.work < s.work := by
  cases moves_of_step h with
  | data free working more =>
    simp only [work, propose, free, more, List.length_cons, Option.isSome]
    simp only [if_true, Bool.false_eq_true, if_false]
    omega
  | fail free failing =>
    simp only [work, propose, free, failing, Stage.work, Option.isSome]
    simp only [if_true, Bool.false_eq_true, if_false]
    omega
  | finish free ending =>
    simp only [work, propose, free, ending, Stage.work, Option.isSome]
    simp only [if_true, Bool.false_eq_true, if_false]
    omega
  | push waiting room =>
    simp only [work, waiting, List.length_append, List.length_singleton, Option.isSome]
    simp only [if_true, Bool.false_eq_true, if_false]
    omega
  | conclude free working done =>
    have ho := work_afterHandler_lt s.outcome
    simp only [work, working]
    omega
  | expire working =>
    simp only [work, working, Stage.work, List.length_nil, Option.isSome]
    simp only [Bool.false_eq_true, if_false]
    omega
  | receive channel =>
    simp only [work, channel, List.length_cons]
    omega

/-! ## Prompt runs -/

theorem step_of_firstStep {as : List Action} (h : s.firstStep as = some t) :
    ∃ a ∈ as, s.step a = some t := by
  induction as with
  | nil => cases h
  | cons a rest ih =>
    unfold firstStep at h
    split at h
    · rename_i u hu
      exact ⟨a, List.mem_cons_self, hu.trans h⟩
    · obtain ⟨b, hb, hs⟩ := ih h
      exact ⟨b, List.mem_cons_of_mem a hb, hs⟩

theorem step_eq_none_of_firstStep {as : List Action} (h : s.firstStep as = none) :
    ∀ a ∈ as, s.step a = none := by
  induction as with
  | nil =>
    intro a ha
    cases ha
  | cons b rest ih =>
    unfold firstStep at h
    split at h
    · cases h
    · rename_i hb
      intro a ha
      rcases List.mem_cons.1 ha with rfl | ha
      · exact hb
      · exact ih h a ha

/-- A consumer that can take nothing has an empty channel before it, so a response that waits could
go in. -/
theorem free_of_stuck (hr : s.step .receive = none) (hp : s.step .push = none) :
    s.channel = [] ∧ s.waiting = none := by
  have hc : s.channel = [] := by
    simp only [step] at hr
    split at hr
    · cases hr
    · assumption
  refine ⟨hc, ?_⟩
  cases hw : s.waiting with
  | none => rfl
  | some r => simp [step, hw, hc, room] at hp

/-- Nothing is possible any more only when the consumer has seen the end. -/
theorem hasEnded_of_firstStep (h : s.firstStep (promptly isCut) = none) : s.hasEnded = true := by
  have hn := step_eq_none_of_firstStep h
  obtain ⟨hc, hw⟩ :=
    free_of_stuck (hn .receive (by simp [promptly])) (hn .push (by simp [promptly]))
  have hp := hn .produce (by simp [promptly])
  cases hs : s.stage with
  | working =>
    exfalso
    have hr : s.rest = [] := by
      cases hr : s.rest with
      | nil => rfl
      | cons b rest => simp [step, hw, hs, hr] at hp
    cases isCut with
    | true =>
      have he := hn .expire (by simp [promptly])
      simp [step, hs] at he
    | false =>
      have hd := hn .conclude (by simp [promptly])
      simp [step, hw, hs, hr] at hd
  | failing e => simp [step, hw, hs] at hp
  | ending text => simp [step, hw, hs] at hp
  | closed => simp [hasEnded, hs, hw, hc]

/-- A prompt run with as many actions as there is work comes to the end. -/
theorem hasEnded_advanceBy {n : Nat} (h : s.work ≤ n) : (advanceBy isCut n s).hasEnded = true := by
  induction n generalizing s with
  | zero =>
    cases hf : s.firstStep (promptly isCut) with
    | none => exact hasEnded_of_firstStep hf
    | some t =>
      obtain ⟨a, _, ha⟩ := step_of_firstStep hf
      have hlt := work_step ha
      omega
  | succ n ih =>
    unfold advanceBy
    cases hf : s.firstStep (promptly isCut) with
    | none => exact hasEnded_of_firstStep hf
    | some t =>
      obtain ⟨a, _, ha⟩ := step_of_firstStep hf
      have hlt := work_step ha
      exact ih (by omega)

end ChainIndexer.Tasks.Stream
