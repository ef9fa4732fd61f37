/-
  The pieces of a text.

  A text that is divided at the characters of a kind falls into pieces without such characters, each
  of which is part of the text.
-/

namespace ChainIndexer.Text

/-- No piece has a character at which the text is divided, and each is part of the text. -/
theorem of_mem_splitOnP {p : Char → Bool} {cs piece : List Char} (h : piece ∈ cs.splitOnP p) :
    piece.Sublist cs ∧ ∀ c ∈ piece, p c = false := by
  induction cs generalizing piece with
  | nil =>
    rw [List.splitOnP_nil, List.mem_singleton] at h
    rw [h]
    exact ⟨List.Sublist.refl [], nofun⟩
  | cons c cs ih =>
    obtain ⟨first, rest, hs⟩ := List.exists_cons_of_ne_nil (List.splitOnP_ne_nil p cs)
    rw [hs] at ih
    rw [List.splitOnP_cons_eq_if_modifyHead, hs] at h
    split at h
    · rcases List.mem_cons.1 h with rfl | h
      · exact ⟨List.nil_sublist _, nofun⟩
      · exact ⟨(ih h).1.cons c, (ih h).2⟩
    · rename_i hc
      rcases List.mem_cons.1 h with rfl | h
      · have hf := ih List.mem_cons_self
        refine ⟨hf.1.cons_cons c, ?_⟩
        rw [List.forall_mem_cons]
        exact ⟨Bool.eq_false_iff.2 hc, hf.2⟩
      · have hr := ih (List.mem_cons_of_mem first h)
        exact ⟨hr.1.cons c, hr.2⟩

end ChainIndexer.Text
