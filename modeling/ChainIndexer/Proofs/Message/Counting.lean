import Mathlib.Data.List.Count
import ChainIndexer.Message.Calls
import ChainIndexer.Proofs.Transaction.Decoding

/-
  What becomes of messages that are routed at once, and what is counted.

  Whatever the others do, a call answers what `classify` says of its message, and by then it has
  added one to the counter of its answer and to no other (`accounts_of_run`). So after any run the
  counters are the numbers of the answers that belong to them (`routed_calls`).
-/

namespace ChainIndexer

open Text Transaction

/-! ## Kinds of routes -/

namespace MessageKind

theorem route_of_ofRoute? {r : Route} {kind : MessageKind} (h : ofRoute? r = some kind) :
    kind.route = r := by
  unfold ofRoute? at h
  have hb := List.find?_some h
  exact eq_of_beq hb

theorem ofRoute?_eq_none_iff {r : Route} :
    ofRoute? r = none ↔ ∀ kind : MessageKind, kind.route ≠ r := by
  unfold ofRoute?
  rw [List.find?_eq_none]
  constructor
  · intro h kind hk
    exact h kind (mem_all kind) (beq_iff_eq.2 hk)
  · intro h kind _ hk
    exact h kind (eq_of_beq hk)

/-- A route leads back to its kind. -/
theorem ofRoute?_route (kind : MessageKind) : ofRoute? kind.route = some kind := by
  cases h : ofRoute? kind.route with
  | none => exact absurd rfl (ofRoute?_eq_none_iff.1 h kind)
  | some kind' => rw [route_injective kind' kind (route_of_ofRoute? h)]

theorem tag_ne_error (kind : MessageKind) : kind.tag ≠ "error" := by
  cases kind <;> decide

end MessageKind

namespace Message

/-! ## Outcomes -/

/-- The counters to which an answer adds. -/
def counters : Except Error Routed → List Counter
  | .ok (.unknown _) => [.unknown]
  | .ok (.broken _ _) => [.broken]
  | .ok (.event _) => []
  | .error _ => []

/-- What the answer to a message is. -/
structure Answers (message : Packed) (ctx : Context) (answer : Except Error Routed) : Prop where
  /-- Only a text that is no type URL is an error. -/
  refused : (∃ e, answer = .error e) ↔ TypeUrl.route? message.typeUrl = none
  /-- A message is unknown when no kind has its route. -/
  unknown : ∀ r, answer = .ok (.unknown r) ↔
    TypeUrl.route? message.typeUrl = some r ∧ ∀ kind : MessageKind, kind.route ≠ r
  /-- A message of a kind is mapped by this kind, with its tag and its module, or has its fault. -/
  known : ∀ kind : MessageKind, TypeUrl.route? message.typeUrl = some kind.route →
    (∃ e, map kind message.value ctx = .ok e ∧ answer = .ok (.event e) ∧
      e.primaryKind = kind.tag ∧ e.moduleName = kind.moduleName) ∨
    ∃ fault, map kind message.value ctx = .error fault ∧ answer = .ok (.broken kind fault)
  /-- An event does not pass for a message that could not be mapped. -/
  named : ∀ e, answer = .ok (.event e) → e.primaryKind ≠ "unknown" ∧ e.primaryKind ≠ "error"

variable {message : Packed} {ctx : Context} {kind : MessageKind}

theorem named_of_map {e : Event} (h : map kind message.value ctx = .ok e) :
    e.primaryKind = kind.tag ∧ e.moduleName = kind.moduleName := by
  have hh := heading_map h
  simp only [Event.heading, Prod.mk.injEq] at hh
  exact ⟨by rw [Event.primaryKind, hh.1, List.headD_cons], hh.2.1⟩

theorem answers_of_refused (hr : TypeUrl.route? message.typeUrl = none) :
    Answers message ctx (classify message.typeUrl message.value ctx) := by
  have hc : classify message.typeUrl message.value ctx = .error (.typeUrl message.typeUrl) := by
    simp only [classify, TypeUrl.route, hr, Except.map]
  rw [hc]
  refine ⟨⟨fun _ => hr, fun _ => ⟨_, rfl⟩⟩, ?_, ?_, ?_⟩
  · intro r
    rw [hr]
    constructor
    · intro h
      cases h
    · rintro ⟨⟨⟩, _⟩
  · intro kind hk
    rw [hr] at hk
    cases hk
  · intro e h
    cases h

theorem answers_of_unknown {r : Route} (hr : TypeUrl.route? message.typeUrl = some r)
    (hn : ∀ kind : MessageKind, kind.route ≠ r) :
    Answers message ctx (classify message.typeUrl message.value ctx) := by
  have hs : registered? message = none := by
    rw [registered?, hr, Option.bind_some]
    exact MessageKind.ofRoute?_eq_none_iff.2 hn
  rw [classify_of_not_registered hr hs]
  refine ⟨⟨nofun, ?_⟩, ?_, ?_, nofun⟩
  · intro h
    rw [hr] at h
    cases h
  · intro r'
    rw [hr]
    constructor
    · rintro ⟨⟩
      exact ⟨rfl, hn⟩
    · rintro ⟨⟨⟩, _⟩
      rfl
  · intro kind hk
    rw [hr] at hk
    exact absurd (Option.some.inj hk).symm (hn kind)

theorem answers_of_known (hr : TypeUrl.route? message.typeUrl = some kind.route) :
    Answers message ctx (classify message.typeUrl message.value ctx) := by
  have hs : registered? message = some kind := by
    rw [registered?, hr, Option.bind_some, MessageKind.ofRoute?_route]
  have hown : ∀ kind' : MessageKind, TypeUrl.route? message.typeUrl = some kind'.route →
      kind' = kind := by
    intro kind' h
    rw [hr] at h
    exact (MessageKind.route_injective _ _ (Option.some.inj h)).symm
  have hrefused : TypeUrl.route? message.typeUrl ≠ none := by
    rw [hr]
    exact nofun
  have hknown : ∀ r', ¬(TypeUrl.route? message.typeUrl = some r' ∧
      ∀ kind' : MessageKind, kind'.route ≠ r') := by
    rintro r' ⟨h, hne⟩
    rw [hr] at h
    exact hne kind (Option.some.inj h)
  cases hm : map kind message.value ctx with
  | ok e =>
    rw [classify_of_map_ok hs hm]
    obtain ⟨ht, hmod⟩ := named_of_map hm
    refine ⟨⟨nofun, fun h => absurd h hrefused⟩, fun r' => ⟨nofun, fun h => absurd h (hknown r')⟩,
      ?_, ?_⟩
    · intro kind' h
      obtain rfl := hown kind' h
      exact .inl ⟨e, hm, rfl, ht, hmod⟩
    · rintro _ ⟨⟩
      rw [ht]
      exact ⟨tag_ne_unknown kind, MessageKind.tag_ne_error kind⟩
  | error fault =>
    rw [classify_of_map_error hs hm]
    refine ⟨⟨nofun, fun h => absurd h hrefused⟩, fun r' => ⟨nofun, fun h => absurd h (hknown r')⟩,
      ?_, nofun⟩
    intro kind' h
    obtain rfl := hown kind' h
    exact .inr ⟨fault, hm, rfl⟩

theorem answers_classify (message : Packed) (ctx : Context) :
    Answers message ctx (classify message.typeUrl message.value ctx) := by
  cases hr : TypeUrl.route? message.typeUrl with
  | none => exact answers_of_refused hr
  | some r =>
    by_cases hn : ∀ kind : MessageKind, kind.route ≠ r
    · exact answers_of_unknown hr hn
    · obtain ⟨kind, rfl⟩ := not_forall_not.1 hn
      exact answers_of_known hr

/-! ## Steps of a call -/

namespace Call

variable {c : Call} {before : List Counter} {counter? : Option Counter} {phase : Phase}

/-- The answer of a call, once there is one. -/
def answer? (c : Call) : Option (Except Error Routed) :=
  match c.phase with
  | .answered answer => some answer
  | _ => none

/-- The counters to which a call has added. -/
def adds (c : Call) : List Counter :=
  match c.phase with
  | .asked => []
  | .found _ => []
  | .counted routed => counters (.ok routed)
  | .answered answer => counters answer

/-- What a call has found, or answered, is what becomes of its message. -/
def Sound (c : Call) : Prop :=
  match c.phase with
  | .asked => True
  | .found routed => c.outcome = .ok routed
  | .counted routed => c.outcome = .ok routed
  | .answered answer => c.outcome = answer

theorem counters_ok (routed : Routed) : counters (.ok routed) = routed.counter?.toList := by
  cases routed with
  | event e => rfl
  | unknown r => rfl
  | broken kind fault => rfl

/-- A step adds to the counter that it names and to no other. -/
theorem adds_next (h : c.next? = some (counter?, phase)) :
    { c with phase := phase }.adds = c.adds ++ counter?.toList := by
  obtain ⟨message, ctx, from_⟩ := c
  cases from_ with
  | asked =>
    simp only [next?] at h
    split at h
    · cases h
      rfl
    · cases h
      rfl
  | found routed =>
    cases h
    exact counters_ok routed
  | counted routed =>
    cases h
    exact (List.append_nil _).symm
  | answered answer => cases h

theorem sound_next (hs : c.Sound) (h : c.next? = some (counter?, phase)) :
    { c with phase := phase }.Sound := by
  obtain ⟨message, ctx, from_⟩ := c
  cases from_ with
  | asked =>
    simp only [next?] at h
    split at h
    · rename_i ho
      cases h
      exact ho
    · rename_i ho
      cases h
      exact ho
  | found routed =>
    cases h
    exact hs
  | counted routed =>
    cases h
    exact hs
  | answered answer => cases h

theorem exists_next (h : c.answer? = none) :
    ∃ counter? phase, c.next? = some (counter?, phase) := by
  obtain ⟨message, ctx, from_⟩ := c
  cases from_ with
  | asked =>
    simp only [next?]
    split
    · exact ⟨_, _, rfl⟩
    · exact ⟨_, _, rfl⟩
  | found routed => exact ⟨_, _, rfl⟩
  | counted routed => exact ⟨_, _, rfl⟩
  | answered answer => cases h

theorem next?_begun_of_ok {message : Packed} {ctx : Context} {routed : Routed}
    (h : classify message.typeUrl message.value ctx = .ok routed) :
    (begun message ctx).next? = some (none, .found routed) := by
  simp only [begun, next?, outcome, h]

theorem next?_begun_of_error {message : Packed} {ctx : Context} {e : Error}
    (h : classify message.typeUrl message.value ctx = .error e) :
    (begun message ctx).next? = some (none, .answered (.error e)) := by
  simp only [begun, next?, outcome, h]

theorem outcome_of_answer? {answer : Except Error Routed} (hs : c.Sound)
    (h : c.answer? = some answer) : c.outcome = answer ∧ c.adds = counters answer := by
  obtain ⟨message, ctx, from_⟩ := c
  cases from_ with
  | answered answer' =>
    cases h
    exact ⟨hs, rfl⟩
  | _ => cases h

end Call

/-! ## Runs -/

namespace Calls

variable {s s' : Calls} {traces : List Trace} {t : Trace}

/-- The counters to which the steps of a call have added. -/
def added (i : Nat) (traces : List Trace) : List Counter :=
  traces.filterMap fun t => if t.call = i then t.counter? else none

/-- The answers that have been given. -/
def answers (s : Calls) : List (Except Error Routed) :=
  s.calls.filterMap Call.answer?

/-- The number of calls that have added to a counter. -/
def tally (s : Calls) (counter : Counter) : Nat :=
  (s.calls.flatMap Call.adds).count counter

/-- What holds after any steps. -/
structure Accounts (traces : List Trace) (s : Calls) : Prop where
  sound : ∀ c ∈ s.calls, c.Sound
  added : ∀ i c, s.calls[i]? = some c → added i traces = c.adds
  fresh : ∀ i, s.calls.length ≤ i → Calls.added i traces = []
  stats : s.stats = ⟨.ofNat (s.tally .unknown), .ofNat (s.tally .broken)⟩

theorem added_snoc (i : Nat) (traces : List Trace) (t : Trace) :
    added i (traces ++ [t]) =
      added i traces ++ if t.call = i then t.counter?.toList else [] := by
  unfold added
  rw [List.filterMap_append]
  congr
  split
  · rename_i h
    simp only [List.filterMap_cons, h, if_true, List.filterMap_nil]
    cases t.counter? with
    | none => rfl
    | some counter => rfl
  · rename_i h
    simp only [List.filterMap_cons, h, if_false, List.filterMap_nil]

theorem tally_set {i : Nat} {c : Call} {counter? : Option Counter} {phase : Phase}
    (here : s.calls[i]? = some c) (step : c.next? = some (counter?, phase)) (stats : DecodeStats)
    (counter : Counter) :
    tally ⟨stats, s.calls.set i { c with phase := phase }⟩ counter =
      s.tally counter + counter?.toList.count counter := by
  obtain ⟨hi, rfl⟩ := List.getElem?_eq_some_iff.1 here
  obtain ⟨before, after, hc, -, hset⟩ :=
    @List.exists_of_set Call i { s.calls[i] with phase := phase } s.calls hi
  have hadds := Call.adds_next step
  unfold tally
  simp only [hset]
  conv_rhs => rw [hc]
  simp only [List.flatMap_append, List.flatMap_cons, List.count_append, hadds]
  omega

/-- A step adds to the tally what it adds to the counters. -/
theorem stats_step {counter? : Option Counter} {unknown broken : Nat} {stats : DecodeStats}
    (h : stats = ⟨.ofNat unknown, .ofNat broken⟩) :
    counter?.elim stats stats.addTo =
      ⟨.ofNat (unknown + counter?.toList.count .unknown),
        .ofNat (broken + counter?.toList.count .broken)⟩ := by
  rw [h]
  cases counter? with
  | none => rfl
  | some counter =>
    cases counter with
    | unknown =>
      simp [DecodeStats.addTo, DecodeStats.addUnknown, UInt64.ofNat_add]
    | broken =>
      simp [DecodeStats.addTo, DecodeStats.addBroken, UInt64.ofNat_add]

theorem accounts_start : Accounts [] (start .zero) := by
  refine ⟨?_, ?_, fun _ _ => rfl, ?_⟩
  · intro c hc
    cases hc
  · intro i c hc
    cases hc
  · simp [start, tally, DecodeStats.zero]

theorem accounts_begin (h : Accounts traces s) (message : Packed) (ctx : Context) :
    Accounts (traces ++ [⟨s.calls.length, none⟩]) ⟨s.stats, s.calls ++ [.begun message ctx]⟩ := by
  have hadded : ∀ i, added i (traces ++ [⟨s.calls.length, none⟩]) = added i traces := by
    intro i
    rw [added_snoc, Option.toList_none, ite_self, List.append_nil]
  refine ⟨?_, ?_, ?_, ?_⟩
  · intro c hc
    rcases List.mem_append.1 hc with hc | hc
    · exact h.sound c hc
    · rw [List.mem_singleton.1 hc]
      trivial
  · intro i c hc
    rw [hadded]
    by_cases hi : i < s.calls.length
    · rw [List.getElem?_append_left hi] at hc
      exact h.added i c hc
    · rw [List.getElem?_append_right (Nat.le_of_not_lt hi)] at hc
      rw [h.fresh i (Nat.le_of_not_lt hi), List.mem_singleton.1 (List.mem_of_getElem? hc)]
      rfl
  · intro i hi
    rw [hadded]
    rw [List.length_append] at hi
    exact h.fresh i (Nat.le_trans (Nat.le_add_right _ _) hi)
  · have ht : ∀ counter,
        tally ⟨s.stats, s.calls ++ [.begun message ctx]⟩ counter = s.tally counter := by
      intro counter
      unfold tally
      simp only [List.flatMap_append, List.flatMap_singleton, List.count_append]
      rfl
    rw [ht, ht]
    exact h.stats

theorem accounts_next (h : Accounts traces s) {i : Nat} {c : Call} {counter? : Option Counter}
    {phase : Phase} (here : s.calls[i]? = some c) (step : c.next? = some (counter?, phase)) :
    Accounts (traces ++ [⟨i, counter?⟩])
      ⟨counter?.elim s.stats s.stats.addTo, s.calls.set i { c with phase := phase }⟩ := by
  have hi : i < s.calls.length := (List.getElem?_eq_some_iff.1 here).1
  refine ⟨?_, ?_, ?_, ?_⟩
  · intro c' hc'
    rcases List.mem_or_eq_of_mem_set hc' with hc' | rfl
    · exact h.sound c' hc'
    · exact Call.sound_next (h.sound c (List.mem_of_getElem? here)) step
  · intro j c' hc'
    rw [added_snoc]
    by_cases hj : i = j
    · subst hj
      rw [List.getElem?_set_self hi] at hc'
      obtain rfl := Option.some.inj hc'
      rw [if_pos rfl, h.added i c here, Call.adds_next step]
    · rw [List.getElem?_set_ne hj] at hc'
      rw [if_neg hj, List.append_nil]
      exact h.added j c' hc'
  · intro j hj
    rw [List.length_set] at hj
    rw [added_snoc, if_neg (Nat.ne_of_lt (Nat.lt_of_lt_of_le hi hj)), List.append_nil]
    exact h.fresh j hj
  · rw [tally_set here step, tally_set here step]
    exact stats_step h.stats

theorem accounts_of_run (h : Run (start .zero) traces s) : Accounts traces s := by
  induction h with
  | stay => exact accounts_start
  | step before last ih =>
    cases last with
    | begin message ctx => exact accounts_begin ih message ctx
    | next here step => exact accounts_next ih here step

/-! ## Answers -/

/-- An answer that says that the message is of no known type. -/
def isUnknown : Except Error Routed → Bool
  | .ok (.unknown _) => true
  | _ => false

/-- An answer that says that its kind could not map the message. -/
def isBroken : Except Error Routed → Bool
  | .ok (.broken _ _) => true
  | _ => false

theorem count_counters (answer : Except Error Routed) :
    (counters answer).count .unknown = (if isUnknown answer then 1 else 0) ∧
      (counters answer).count .broken = if isBroken answer then 1 else 0 := by
  cases answer with
  | error e => exact ⟨rfl, rfl⟩
  | ok routed => cases routed <;> exact ⟨rfl, rfl⟩

/-- Once all calls have answered, the tally is that of the answers. -/
theorem tally_of_answered (h : Accounts traces s) (ha : ∀ c ∈ s.calls, c.answer? ≠ none) :
    s.tally .unknown = s.answers.countP isUnknown ∧
      s.tally .broken = s.answers.countP isBroken := by
  obtain ⟨stats, calls⟩ := s
  have hs := h.sound
  clear h
  unfold tally answers
  induction calls with
  | nil => exact ⟨rfl, rfl⟩
  | cons c calls ih =>
    obtain ⟨answer, hc⟩ := Option.ne_none_iff_exists'.1 (ha c List.mem_cons_self)
    obtain ⟨hu, hb⟩ := ih (fun c' hc' => ha c' (List.mem_cons_of_mem c hc'))
      (fun c' hc' => hs c' (List.mem_cons_of_mem c hc'))
    have hadds := (Call.outcome_of_answer? (hs c List.mem_cons_self) hc).2
    obtain ⟨hcu, hcb⟩ := count_counters answer
    simp only [List.flatMap_cons, List.count_append, List.filterMap_cons, hc, List.countP_cons,
      hadds, hcu, hcb, hu, hb]
    exact ⟨Nat.add_comm _ _, Nat.add_comm _ _⟩

theorem count_eq (stats : DecodeStats) (routed : Routed) :
    routed.count stats = routed.counter?.elim stats stats.addTo := by
  cases routed with
  | event e => rfl
  | unknown r => rfl
  | broken kind fault => rfl

theorem step_last {c : Call} {counter? : Option Counter} {phase : Phase} (stats : DecodeStats)
    (calls : List Call) (step : c.next? = some (counter?, phase)) :
    Step ⟨stats, calls ++ [c]⟩ ⟨calls.length, counter?⟩
      ⟨counter?.elim stats stats.addTo, calls ++ [{ c with phase := phase }]⟩ := by
  have here : (calls ++ [c])[calls.length]? = some c := by simp
  have hset : (calls ++ [c]).set calls.length { c with phase := phase } =
      calls ++ [{ c with phase := phase }] := by simp
  rw [← hset]
  exact .next here step

/-- Routing a message alone is a run of one call. -/
theorem run_route (s : Calls) (message : Packed) (ctx : Context) :
    ∃ traces, Run s traces
      ⟨(route message.typeUrl message.value ctx s.stats).2,
        s.calls ++
          [⟨message, ctx, .answered (route message.typeUrl message.value ctx s.stats).1⟩]⟩ := by
  have hbegin := Run.step (.stay (s := s)) (.begin s message ctx)
  unfold route
  cases hc : classify message.typeUrl message.value ctx with
  | error e =>
    exact ⟨_, hbegin.step (step_last s.stats s.calls (Call.next?_begun_of_error hc))⟩
  | ok routed =>
    have hfound := hbegin.step (step_last s.stats s.calls (Call.next?_begun_of_ok hc))
    have hcounted := hfound.step (step_last s.stats s.calls rfl)
    rw [← count_eq] at hcounted
    have hlast :=
      step_last (c := ⟨message, ctx, .counted routed⟩) (routed.count s.stats) s.calls rfl
    exact ⟨_, hcounted.step hlast⟩

/-- Whatever the order of the steps, each call that has answered has answered what its message says,
and has added what its answer says; once all calls have answered, the counters are the numbers of
these answers, modulo `2 ^ 64`; and until then each of the others can take a step. -/
theorem routed_calls (h : Run (start .zero) traces s) :
    (∀ i c answer, s.calls[i]? = some c → c.answer? = some answer →
      Answers c.message c.ctx answer ∧ added i traces = counters answer) ∧
    ((∀ c ∈ s.calls, c.answer? ≠ none) →
      s.stats = ⟨.ofNat (s.answers.countP isUnknown), .ofNat (s.answers.countP isBroken)⟩) ∧
    ∀ i c, s.calls[i]? = some c → c.answer? = none → ∃ counter? s', Step s ⟨i, counter?⟩ s' := by
  have ha := accounts_of_run h
  refine ⟨?_, ?_, ?_⟩
  · intro i c answer here hc
    obtain ⟨ho, hadds⟩ := Call.outcome_of_answer? (ha.sound c (List.mem_of_getElem? here)) hc
    refine ⟨?_, (ha.added i c here).trans hadds⟩
    rw [← ho]
    exact answers_classify c.message c.ctx
  · intro hall
    obtain ⟨hu, hb⟩ := tally_of_answered ha hall
    rw [ha.stats, hu, hb]
  · intro i c here hc
    obtain ⟨counter?, phase, hn⟩ := Call.exists_next hc
    exact ⟨counter?, _, .next here hn⟩

/-- Three calls whose steps are mixed: a message of no kind, one that is cut off, and one that has
an event. The second counts before the first, and the third answers before either. -/
theorem routed_calls_interleaved :
    ∃ traces s fault e, Run (start .zero) traces s ∧
      s.answers =
        [.ok (.unknown ⟨"bank", "MsgNone"⟩), .ok (.broken .bankSend fault), .ok (.event e)] ∧
      e.primaryKind = "begin_unbonding" ∧ e.moduleName = "staking" ∧
      added 0 traces = [.unknown] ∧ added 1 traces = [.broken] ∧ added 2 traces = [] ∧
      s.stats = ⟨1, 1⟩ := by
  let stray : Packed := ⟨"/cosmos.bank.v1beta1.MsgNone", []⟩
  let cut : Packed := ⟨"/cosmos.bank.v1beta1.MsgSend", [0xff]⟩
  let freed : Packed := ⟨"/cosmos.staking.v1beta1.MsgUndelegate", [10, 1, 100]⟩
  let ctx : Context := ⟨.empty, ""⟩
  let fault : Fault := .notExpected "bank.MsgSend" ⟨[], .varint⟩
  let event : Event :=
    ((Event.plain "begin_unbonding" "staking").withNode "delegator" "d").withNode "validator" ""
  have hstray : classify stray.typeUrl stray.value ctx = .ok (.unknown ⟨"bank", "MsgNone"⟩) := by
    decide +kernel
  have hcut : classify cut.typeUrl cut.value ctx = .ok (.broken .bankSend fault) := by
    decide +kernel
  have hfreed : classify freed.typeUrl freed.value ctx = .ok (.event event) := by
    decide +kernel
  have hroute : TypeUrl.route? freed.typeUrl = some MessageKind.stakingUndelegate.route := by
    decide +kernel
  obtain ⟨traces, s, hrun, hcalls⟩ : ∃ traces s, Run (start .zero) traces s ∧ s.calls =
      [⟨stray, ctx, .answered (.ok (.unknown ⟨"bank", "MsgNone"⟩))⟩,
        ⟨cut, ctx, .answered (.ok (.broken .bankSend fault))⟩,
        ⟨freed, ctx, .answered (.ok (.event event))⟩] := by
    have hbegun := (((Run.stay (s := start .zero)).step (.begin _ stray ctx)).step
      (.begin _ cut ctx)).step (.begin _ freed ctx)
    have hfound := ((hbegun.step (.next (i := 1) rfl (Call.next?_begun_of_ok hcut))).step
      (.next (i := 2) rfl (Call.next?_begun_of_ok hfreed))).step
      (.next (i := 0) rfl (Call.next?_begun_of_ok hstray))
    have hcounted := ((hfound.step (.next (i := 1) rfl rfl)).step (.next (i := 2) rfl rfl)).step
      (.next (i := 0) rfl rfl)
    have hall := ((hcounted.step (.next (i := 2) rfl rfl)).step (.next (i := 0) rfl rfl)).step
      (.next (i := 1) rfl rfl)
    exact ⟨_, _, hall, rfl⟩
  obtain ⟨hcall, hstats, -⟩ := routed_calls hrun
  rw [hcalls] at hcall hstats
  have hanswers : s.answers =
      [.ok (.unknown ⟨"bank", "MsgNone"⟩), .ok (.broken .bankSend fault), .ok (.event event)] := by
    rw [answers, hcalls]
    rfl
  rw [hanswers] at hstats
  have hevent := (hcall 2 _ _ rfl rfl).1.known .stakingUndelegate hroute
  obtain ⟨e, -, he, hkind, hmodule⟩ | ⟨fault, -, hf⟩ := hevent
  · obtain rfl : event = e := Routed.event.inj (Except.ok.inj he)
    exact ⟨traces, s, fault, event, hrun, hanswers, hkind, hmodule, (hcall 0 _ _ rfl rfl).2,
      (hcall 1 _ _ rfl rfl).2, (hcall 2 _ _ rfl rfl).2, hstats (by simp [Call.answer?])⟩
  · cases hf

end Calls

end Message

end ChainIndexer
