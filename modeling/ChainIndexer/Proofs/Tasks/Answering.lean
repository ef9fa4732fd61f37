import ChainIndexer.Proofs.Chain.Reading
import ChainIndexer.Proofs.Range.Timeline
import ChainIndexer.Proofs.Tasks.Framing
import ChainIndexer.Tasks.Handler

/-
  What the answer to a task consists of.

  `Answers` says for each type what a handler has to produce when it asks one thing after another:
  `Streams` for the two types that go through heights, one response for the others, and nothing but
  a failure where a payload or an answer cannot be read. A handler that comes to its end in time
  produces exactly that (`answers_course`, `course_within`).
-/

namespace ChainIndexer.Tasks

open Range

/-! ## What has to be answered -/

/-- The data of some heights one after another, up to the first that fails. -/
inductive Streams (d : Dispatcher) (heights : List Nat) : Course → Prop
  | whole {ds : List HeightData} (reads : List.Forall₂ (d.chain.Reads d.pool) heights ds) :
      Streams d heights ⟨ds.flatMap heightBodies, .done⟩
  | broken {before after : List Nat} {height : Nat} {ds : List HeightData} {e : Error}
      (split : heights = before ++ height :: after)
      (reads : List.Forall₂ (d.chain.Reads d.pool) before ds)
      (fails : d.chain.fetch d.pool height = .error e) :
      Streams d heights ⟨ds.flatMap heightBodies, .failed (.range height e)⟩

/-- One response with the answer to a question, or the failure in its place. -/
def Single (kind : ResponseType) (write : α → Json) (answer : Except Error α) (c : Course) : Prop :=
  match answer with
  | .ok a => c = ⟨[⟨kind, settled (write a)⟩], .done⟩
  | .error e => c = ⟨[], .failed e⟩

/-- What follows a payload, or the failure to read it. -/
def AfterPayload (q : TaskRequest) (read : Json → Except Json.Fault α) (follows : α → Course → Prop)
    (c : Course) : Prop :=
  match payload q read with
  | .ok a => follows a c
  | .error e => c = ⟨[], .failed e⟩

/-- The data of a range, which must not name height 0. -/
def RangeData (d : Dispatcher) (r : HeightRange) (c : Course) : Prop :=
  if r.start = 0 ∨ r.stop = 0 then
    c = ⟨[], .failed (.task "start_height and end_height must be greater than zero")⟩
  else Streams d r.heights c

/-- The data of the heights after the last known one, or with 0 of all, up to the latest block;
never more than the most that is allowed. -/
def LatestData (d : Dispatcher) (last : LatestDataRequest) (c : Course) : Prop :=
  match d.chain.block 0 with
  | .ok latest =>
    let known := if 0 < last.lastHeight then last.lastHeight + 1 else 0
    Streams d (HeightRange.upTo known d.maximumHeights (latest.height + 1)).heights c
  | .error e => c = ⟨[], .failed e⟩

/-- What the handler of a task has to produce. -/
def Answers (d : Dispatcher) (q : TaskRequest) : TaskType → Course → Prop
  | .transactions => AfterPayload q HeightRange.ofJson (RangeData d)
  | .latestData => AfterPayload q LatestDataRequest.ofJson (LatestData d)
  | .block => AfterPayload q HeightHash.ofJson fun selector =>
      Single .block Block.toJson (d.chain.block selector.height)
  | .latestMark =>
      Single .latestMark LatestMark.toJson ((d.chain.block 0).map LatestMark.ofBlock)
  | .reward => AfterPayload q AccountQuery.ofJson fun query =>
      Single .reward Rewards.toJson (d.chain.rewards query)
  | .accountBalance => AfterPayload q AccountQuery.ofJson fun query =>
      Single .accountBalance Balances.toJson (d.chain.balances query)
  | .accountDelegations => AfterPayload q AccountQuery.ofJson fun query =>
      Single .delegations Delegations.toJson (d.chain.delegations query)

/-- No height from which a task counts on is the last one of 64 bits. -/
def Fits (d : Dispatcher) (q : TaskRequest) : Prop :=
  q.kind = TaskType.latestData.name → ∀ last latest,
    payload q LatestDataRequest.ofJson = .ok last → d.chain.block 0 = .ok latest →
      last.lastHeight < Text.maxWord64 ∧ latest.height < Text.maxWord64

/-! ## What handlers produce -/

variable {d : Dispatcher} {q : TaskRequest}

theorem ofItems_cons_ok (outcome : Outcome) (data : HeightData)
    (rest : List (RangeItem HeightData)) :
    Course.ofItems outcome (.ok data :: rest) =
      ⟨heightBodies data ++ (Course.ofItems outcome rest).data,
        (Course.ofItems outcome rest).outcome⟩ :=
  rfl

theorem ofItems_append (outcome : Outcome) (ds : List HeightData)
    (rest : List (RangeItem HeightData)) :
    Course.ofItems outcome (ds.map .ok ++ rest) =
      ⟨ds.flatMap heightBodies ++ (Course.ofItems outcome rest).data,
        (Course.ofItems outcome rest).outcome⟩ := by
  induction ds with
  | nil => rfl
  | cons data ds ih =>
    rw [List.map_cons, List.cons_append, ofItems_cons_ok, ih, List.flatMap_cons, List.append_assoc]

/-- The reference of a range, as responses. -/
theorem streams_reference (d : Dispatcher) (r : HeightRange) :
    Streams d r.onChain.heights (.ofItems .done (reference (d.chain.fetch d.pool) r)) := by
  unfold reference
  rcases upToFailure_inOrder (d.chain.fetch d.pool) r.onChain.heights with
    ⟨ds, hm, he⟩ | ⟨before, height, after, ds, e, hs, hm, hf, he⟩
  · have hc := ofItems_append .done ds []
    rw [he, ← List.append_nil (ds.map _), hc]
    simp only [Course.ofItems, List.append_nil]
    exact .whole (Chain.reads_of_map_fetch hm)
  · rw [he, ofItems_append]
    simp only [Course.ofItems, Course.failure, List.append_nil]
    exact .broken hs (Chain.reads_of_map_fetch hm) hf

theorem single_course (kind : ResponseType) (write : α → Json) (answer : Except Error α) :
    Single kind write answer (.single kind write answer) := by
  cases answer with
  | ok a => rfl
  | error e => rfl

theorem afterPayload_ofPayload {read : Json → Except Json.Fault α} {f : α → Plan}
    {follows : α → Course → Prop} (h : ∀ a, payload q read = .ok a → follows a ((f a).course d)) :
    AfterPayload q read follows ((Plan.ofPayload q read f).course d) := by
  unfold AfterPayload Plan.ofPayload
  cases hp : payload q read with
  | ok a => exact h a hp
  | error e => rfl

theorem onChain_of_ne_zero {r : HeightRange} (h : r.start ≠ 0) : r.onChain = r := by
  have hm : max r.start 1 = r.start := by omega
  unfold HeightRange.onChain
  rw [hm]

theorem onChain_upTo (known maximum latest : Nat) :
    (HeightRange.upTo known maximum latest).onChain = HeightRange.upTo known maximum latest := by
  unfold HeightRange.onChain HeightRange.upTo
  simp only [Nat.max_assoc, Nat.max_self]

theorem nextHeight?_of_lt {h : Nat} (hl : h < Text.maxWord64) : nextHeight? h = some (h + 1) :=
  if_pos hl

theorem latestRange_of_lt {maximum : Nat} {last : LatestDataRequest} {latest : Block}
    (h : last.lastHeight < Text.maxWord64) (hb : latest.height < Text.maxWord64) :
    latestRange maximum last latest =
      some (.upTo (if 0 < last.lastHeight then last.lastHeight + 1 else 0) maximum
        (latest.height + 1)) := by
  unfold latestRange
  rw [nextHeight?_of_lt h, nextHeight?_of_lt hb]
  split
  · rfl
  · rfl

theorem rangeData_course (r : HeightRange) : RangeData d r ((transactionsPlan r).course d) := by
  unfold RangeData transactionsPlan
  split
  · rfl
  · rename_i hz
    have hr := streams_reference d r
    rw [onChain_of_ne_zero fun h => hz (.inl h)] at hr
    exact hr

theorem latestData_course {last : LatestDataRequest} (delay : Nat)
    (h : ∀ latest, d.chain.block 0 = .ok latest →
      last.lastHeight < Text.maxWord64 ∧ latest.height < Text.maxWord64) :
    LatestData d last
      (Plan.course d ⟨delay, latestNext d.maximumHeights last (d.chain.block 0)⟩) := by
  unfold LatestData
  cases hb : d.chain.block 0 with
  | error e => rfl
  | ok latest =>
    obtain ⟨hl, hh⟩ := h latest hb
    have hr := streams_reference d (.upTo (if 0 < last.lastHeight then last.lastHeight + 1 else 0)
      d.maximumHeights (latest.height + 1))
    rw [onChain_upTo] at hr
    simp only [latestNext, latestRange_of_lt hl hh]
    exact hr

/-- A handler that nothing cuts off produces what has to be answered. -/
theorem answers_course {type : TaskType} (hq : type.name = q.kind) (hf : Fits d q) :
    Answers d q type ((d.plan q type).course d) := by
  cases type with
  | transactions => exact afterPayload_ofPayload fun r _ => rangeData_course r
  | latestData =>
    exact afterPayload_ofPayload fun last hl => latestData_course _ fun latest hb =>
      hf hq.symm last latest hl hb
  | block => exact afterPayload_ofPayload fun _ _ => single_course ..
  | latestMark => exact single_course ..
  | reward => exact afterPayload_ofPayload fun _ _ => single_course ..
  | accountBalance => exact afterPayload_ofPayload fun _ _ => single_course ..
  | accountDelegations => exact afterPayload_ofPayload fun _ _ => single_course ..

/-- A handler that is in time produces the same as with all time. -/
theorem course_within {limit : Nat} {p : Plan} (h : (p.within d limit).isCut = false) :
    (p.within d limit).course = p.course d := by
  unfold Plan.within at h ⊢
  split at h
  · cases h
  rename_i hd
  rw [if_neg hd]
  unfold Plan.course
  cases hp : p.next with
  | stop c => rfl
  | stream r =>
    simp only [hp] at h ⊢
    unfold Dispatcher.rangeRun at h ⊢
    rw [Timeline.items_eq rfl]
    simp only [Bool.and_eq_false_iff, Bool.not_eq_false', List.any_eq_true] at h
    refine h.imp_right ?_
    rintro ⟨item, hm, he⟩
    cases item with
    | ok data => simp [Except.isOk, Except.toBool] at he
    | error e => exact ⟨e, hm⟩

/-! ## Every way to an end -/

theorem single_settles {kind : ResponseType} {write : α → Json} {answer : Except Error α}
    {c : Course} (h : Single kind write answer c) : c.outcome ≠ .overflow := by
  unfold Single at h
  cases answer with
  | ok a => rw [h]; exact nofun
  | error e => rw [h]; exact nofun

theorem streams_settles {heights : List Nat} {c : Course} (h : Streams d heights c) :
    c.outcome ≠ .overflow := by
  cases h with
  | whole reads => exact nofun
  | broken split reads fails => exact nofun

theorem rangeData_settles {r : HeightRange} {c : Course} (h : RangeData d r c) :
    c.outcome ≠ .overflow := by
  unfold RangeData at h
  split at h
  · rw [h]
    exact nofun
  · exact streams_settles h

theorem latestData_settles {last : LatestDataRequest} {c : Course} (h : LatestData d last c) :
    c.outcome ≠ .overflow := by
  unfold LatestData at h
  split at h
  · exact streams_settles h
  · rw [h]
    exact nofun

theorem afterPayload_settles {read : Json → Except Json.Fault α} {follows : α → Course → Prop}
    {c : Course} (hs : ∀ a, follows a c → c.outcome ≠ .overflow)
    (h : AfterPayload q read follows c) : c.outcome ≠ .overflow := by
  unfold AfterPayload at h
  split at h
  · exact hs _ h
  · rw [h]
    exact nofun

/-- What has to be answered ends with a failure or without one. -/
theorem answers_settles {type : TaskType} {c : Course} (h : Answers d q type c) :
    c.outcome ≠ .overflow := by
  cases type with
  | transactions => exact afterPayload_settles (fun _ => rangeData_settles) h
  | latestData => exact afterPayload_settles (fun _ => latestData_settles) h
  | latestMark => exact single_settles h
  | _ => exact afterPayload_settles (fun _ => single_settles) h

end ChainIndexer.Tasks
