import ChainIndexer.Message.TypeUrl
import ChainIndexer.Proofs.Text.Pieces

/-
  What a type URL names.

  `Names` is the grammar of type URLs: the parts of a chain's own message, or those of a message
  between chains, with points between them. A part is any text without a point, also the empty one.
  The segments of a text are the only parts of which it is put together (`segments_eq_iff`). So a
  text is read exactly if the grammar has it, and then as the one route that it names
  (`route_reads`).
-/

namespace ChainIndexer.TypeUrl

open Text

/-! ## Parts and segments -/

/-- A part of a type URL. -/
def IsPart (part : String) : Prop :=
  '.' ∉ part.toList

instance (part : String) : Decidable (IsPart part) :=
  inferInstanceAs (Decidable ('.' ∉ part.toList))

/-- Parts with points between them. -/
def joined (parts : List String) : String :=
  ".".intercalate parts

theorem toList_joined (parts : List String) :
    (joined parts).toList = ['.'].intercalate (parts.map String.toList) :=
  String.toList_intercalate

/-- No piece of a text that was divided at its points has a point. -/
theorem point_notMem_of_mem_splitOn {cs piece : List Char} (h : piece ∈ cs.splitOn '.') :
    '.' ∉ piece := by
  rw [List.splitOn_eq_splitOnP] at h
  exact fun hm => absurd ((of_mem_splitOnP h).2 '.' hm) (by decide)

theorem isPart_of_mem_segments {url part : String} (h : part ∈ segments url) : IsPart part := by
  obtain ⟨piece, hp, rfl⟩ := List.mem_map.1 h
  unfold IsPart
  rw [String.toList_ofList]
  exact point_notMem_of_mem_splitOn hp

theorem joined_segments (url : String) : joined (segments url) = url := by
  have hm : (segments url).map String.toList = url.toList.splitOn '.' := by
    unfold segments
    rw [List.map_map]
    exact List.map_id'' (fun _ => String.toList_ofList) _
  rw [← String.toList_inj, toList_joined, hm]
  exact List.intercalate_splitOn '.'

theorem segments_joined {parts : List String} (hp : ∀ part ∈ parts, IsPart part)
    (hne : parts ≠ []) : segments (joined parts) = parts := by
  have hs : (joined parts).toList.splitOn '.' = parts.map String.toList := by
    rw [toList_joined]
    refine List.splitOn_intercalate '.' ?_ (by simpa using hne)
    intro piece hm
    obtain ⟨part, hpart, rfl⟩ := List.mem_map.1 hm
    exact hp part hpart
  unfold segments
  rw [hs, List.map_map]
  exact List.map_id'' (fun _ => String.ofList_toList) _

/-- The segments of a text are the parts of which it is put together, in one way only. -/
theorem segments_eq_iff {url : String} {parts : List String} (hne : parts ≠ []) :
    segments url = parts ↔ (∀ part ∈ parts, IsPart part) ∧ url = joined parts := by
  constructor
  · rintro rfl
    exact ⟨fun _ => isPart_of_mem_segments, (joined_segments url).symm⟩
  · rintro ⟨hp, rfl⟩
    exact segments_joined hp hne

/-! ## Routes -/

/-- The type URLs of a route. Behind the module of a chain's own message stands a version, and so it
does behind that of a message between chains, whose area stands in front. -/
inductive Names : String → Route → Prop
  | cosmos {moduleName version message : String} (hm : IsPart moduleName) (hv : IsPart version)
      (ht : IsPart message) :
      Names ("/cosmos." ++ moduleName ++ "." ++ version ++ "." ++ message) ⟨moduleName, message⟩
  | ibc {area moduleName version message : String} (ha : IsPart area) (hm : IsPart moduleName)
      (hv : IsPart version) (ht : IsPart message) :
      Names ("/ibc." ++ area ++ "." ++ moduleName ++ "." ++ version ++ "." ++ message)
        ⟨moduleName, message⟩

theorem joined_cosmos (moduleName version message : String) :
    joined ["/cosmos", moduleName, version, message] =
      "/cosmos." ++ moduleName ++ "." ++ version ++ "." ++ message := by
  simp [joined, String.intercalate_cons_cons, ← String.append_assoc]

theorem joined_ibc (area moduleName version message : String) :
    joined ["/ibc", area, moduleName, version, message] =
      "/ibc." ++ area ++ "." ++ moduleName ++ "." ++ version ++ "." ++ message := by
  simp [joined, String.intercalate_cons_cons, ← String.append_assoc]

variable {url : String} {r : Route}

/-- A text names a route exactly by its segments. -/
theorem names_iff : Names url r ↔
    (∃ version, segments url = ["/cosmos", r.moduleName, version, r.message]) ∨
      ∃ area version, segments url = ["/ibc", area, r.moduleName, version, r.message] := by
  constructor
  · rintro (⟨hm, hv, ht⟩ | ⟨ha, hm, hv, ht⟩)
    · refine .inl ⟨_, (segments_eq_iff (List.cons_ne_nil _ _)).2 ⟨?_, (joined_cosmos ..).symm⟩⟩
      simp [hm, hv, ht, show IsPart "/cosmos" by decide]
    · refine .inr ⟨_, _, (segments_eq_iff (List.cons_ne_nil _ _)).2 ⟨?_, (joined_ibc ..).symm⟩⟩
      simp [ha, hm, hv, ht, show IsPart "/ibc" by decide]
  · obtain ⟨moduleName, message⟩ := r
    rintro (⟨version, h⟩ | ⟨area, version, h⟩)
    · obtain ⟨hp, rfl⟩ := (segments_eq_iff (List.cons_ne_nil _ _)).1 h
      simp only [List.forall_mem_cons] at hp
      obtain ⟨-, hm, hv, ht, -⟩ := hp
      rw [joined_cosmos]
      exact .cosmos hm hv ht
    · obtain ⟨hp, rfl⟩ := (segments_eq_iff (List.cons_ne_nil _ _)).1 h
      simp only [List.forall_mem_cons] at hp
      obtain ⟨-, ha, hm, hv, ht, -⟩ := hp
      rw [joined_ibc]
      exact .ibc ha hm hv ht

theorem route?_eq_some_iff : route? url = some r ↔ Names url r := by
  obtain ⟨moduleName, message⟩ := r
  rw [names_iff]
  unfold route?
  split
  · rename_i hs
    simp [hs]
  · rename_i hs
    simp [hs]
  · rename_i hcosmos hibc
    refine iff_of_false nofun ?_
    rintro (⟨version, h⟩ | ⟨area, version, h⟩)
    · exact hcosmos _ _ _ h
    · exact hibc _ _ _ _ h

/-- A text is read as a route exactly if it is a type URL of the route, and it is that of one route
at most. Any other text is refused with an error that carries it. -/
theorem route_reads (url : String) :
    (∀ r, route url = .ok r ↔ Names url r) ∧
      (∀ r r', Names url r → Names url r' → r = r') ∧
      ∀ e, route url = .error e ↔ e = .typeUrl url ∧ ∀ r, ¬Names url r := by
  have hr : ∀ r, route url = .ok r ↔ Names url r := by
    intro r
    rw [← route?_eq_some_iff]
    unfold route
    cases route? url with
    | some r' => simp
    | none => simp
  refine ⟨hr, ?_, ?_⟩
  · intro r r' h h'
    have hs := (route?_eq_some_iff.2 h).symm.trans (route?_eq_some_iff.2 h')
    exact Option.some.inj hs
  · intro e
    simp only [← route?_eq_some_iff]
    unfold route
    cases route? url with
    | some r' => simp
    | none => simp [eq_comm]

end ChainIndexer.TypeUrl
