import ChainIndexer.Server.Basic
import ChainIndexer.Proofs.Stored.RoundTrip
import ChainIndexer.Proofs.Wire.Value

/-
  The lines of a body.

  A body carries each response as a document behind which a line ends. In the bytes of a document no
  byte ends a line, whatever texts, names and payloads stand in it (`newline_not_mem`): control
  characters are escaped, and other characters take no byte below 32. So the lines of a body are the
  documents of its responses, one for each and in their order (`lines_taskBody`), and each of them
  tells its response (`lines_read_back`).
-/

namespace ChainIndexer.Server

open Json Transaction

/-! ## Bytes -/

/-- The byte that ends a line. -/
def newline : UInt8 := 10

theorem textBytes_append (s t : String) : textBytes (s ++ t) = textBytes s ++ textBytes t := by
  unfold textBytes String.toUTF8
  rw [Wire.toList_data, Wire.toList_data, Wire.toList_data, String.toByteArray_append,
    ByteArray.data_append, Array.toList_append]

theorem textBytes_ofList (cs : List Char) :
    textBytes (String.ofList cs) = cs.flatMap String.utf8EncodeChar := by
  unfold textBytes String.toUTF8
  rw [Wire.toList_data, String.toByteArray_ofList, List.utf8Encode, List.data_toByteArray]

theorem ofNat_ne_newline {n : Nat} (h : 128 ≤ n) (hn : n < 256) : UInt8.ofNat n ≠ newline := by
  intro he
  have ht := congrArg UInt8.toNat he
  rw [UInt8.toNat_ofNat', Nat.mod_eq_of_lt hn] at ht
  rw [ht] at h
  exact absurd h (by decide)

/-- A character that is no control character takes no byte that ends a line. -/
theorem ne_newline_of_mem {c : Char} (h : 32 ≤ c.toNat) {b : UInt8}
    (hb : b ∈ String.utf8EncodeChar c) : b ≠ newline := by
  have hv : 32 ≤ c.val.toNat := h
  unfold String.utf8EncodeChar at hb
  dsimp only at hb
  split at hb
  · rename_i hs
    rw [List.mem_singleton] at hb
    rintro rfl
    have ht := congrArg UInt8.toNat hb
    rw [UInt8.toNat_ofNat', Nat.mod_eq_of_lt (by omega)] at ht
    rw [← ht] at hv
    exact absurd hv (by decide)
  split at hb
  · simp only [List.mem_cons, List.not_mem_nil, or_false] at hb
    rcases hb with rfl | rfl <;> exact ofNat_ne_newline (by omega) (by omega)
  split at hb
  · simp only [List.mem_cons, List.not_mem_nil, or_false] at hb
    rcases hb with rfl | rfl | rfl <;> exact ofNat_ne_newline (by omega) (by omega)
  · simp only [List.mem_cons, List.not_mem_nil, or_false] at hb
    rcases hb with rfl | rfl | rfl | rfl <;> exact ofNat_ne_newline (by omega) (by omega)

/-- No byte of a document ends a line. -/
theorem newline_not_mem (v : Json) : newline ∉ textBytes v.toText := by
  intro h
  rw [toText, textBytes_ofList] at h
  obtain ⟨c, hc, hb⟩ := List.mem_flatMap.1 h
  exact ne_newline_of_mem (le_of_mem_chars v c hc) hb rfl

/-! ## Lines -/

theorem textBytes_line (r : TaskResponse) :
    textBytes r.line = textBytes r.toJson.toText ++ [newline] := by
  have hn : textBytes "\n" = [newline] := textBytes_ofList ['\n']
  rw [TaskResponse.line, textBytes_append, hn]

/-- The lines of a body are the documents of its responses, and nothing stands behind the last. -/
theorem lines_taskBody (rs : List TaskResponse) :
    (textBytes (taskBody rs)).splitOn newline
      = rs.map (fun r => textBytes r.toJson.toText) ++ [[]] := by
  induction rs with
  | nil =>
    have he : textBytes (taskBody []) = [] := textBytes_ofList []
    rw [he]
    rfl
  | cons r rest ih =>
    have hj : taskBody (r :: rest) = r.line ++ taskBody rest := by
      unfold taskBody
      rw [List.map_cons, String.join_cons]
    rw [hj, textBytes_append, textBytes_line, List.append_assoc, List.singleton_append,
      List.splitOn_append_cons_self_of_not_mem (newline_not_mem r.toJson), ih]
    rfl

/-! ## Documents -/

/-- The one document that some bytes are. -/
def documentOf? (bytes : Text.Bytes) : Option Json :=
  (Wire.textOfBytes? bytes).bind Json.read?

theorem documentOf?_textBytes (v : Json) : documentOf? (textBytes v.toText) = some v.reread := by
  unfold documentOf? textBytes
  rw [Wire.textOfBytes?_toUTF8]
  exact read?_toText v

/-- Fields with what a response says. Of its payload nothing but the numbers may have changed. -/
structure FieldsOf (fs : List (String × Json)) (r : TaskResponse) : Prop where
  id : valuesOf "id" fs = [.text r.id]
  kind : valuesOf "type" fs = [.text r.kind]
  order : valuesOf "order" fs = [.nat r.order]
  payload : valuesOf "payload" fs = (payloadField r.payload).map fun e => e.2.reread
  error : valuesOf "error" fs = r.error.toList.map taskErrorJson
  isFinal : valuesOf "final" fs = [.bool r.isFinal]

/-- A document has what a response says. Whatever response is read from it has another payload at
most, and the same if a reader of any form finds the payload again. -/
structure Tells (v : Json) (r : TaskResponse) : Prop where
  fields : ∃ fs, v = .object fs ∧ FieldsOf fs r
  response : ∀ r', TaskResponse.ofJson v = .ok r' → r' = { r with payload := r'.payload }
  whole : TaskResponse.ofJson v = .ok r ↔
    r.payload.depth ≤ nestingLimit ∧ Recovered r.payload.floats

theorem length_payloadField (v : Json) : (payloadField v).length ≤ 1 := by
  cases v <;> simp [payloadField, field]

theorem fieldsOf_reread {r : TaskResponse} (fits : r.order ≤ Text.maxWord64) :
    ∃ fs, r.toJson.reread = .object fs ∧ FieldsOf fs r := by
  obtain ⟨gs, hg, shows⟩ := form_reread.shows (Json.field "id" (.text r.id)
    ++ Json.field "type" (.text r.kind) ++ Json.field "order" (.nat r.order)
    ++ payloadField r.payload ++ Json.optionField "error" (r.error.map taskErrorJson)
    ++ Json.field "final" (.bool r.isFinal))
  refine ⟨gs, hg, ?_, ?_, ?_, ?_, ?_, ?_⟩
  · exact shows.single (v := .text r.id) (by simp)
  · exact shows.single (v := .text r.kind) (by simp)
  · rw [← form_reread.nat64 fits]
    exact shows.single (by simp)
  · have hp := length_payloadField r.payload
    rw [shows "payload" (by simpa using hp)]
    simp
  · cases he : r.error with
    | none => exact shows.none (by simp [he, optionField])
    | some text =>
      exact shows.single (v := taskErrorJson text) (by simp [he, optionField, valuesOf_cons])
  · exact shows.single (v := .bool r.isFinal) (by simp)

theorem tells_reread {r : TaskResponse} (fits : r.Fits) : Tells r.toJson.reread r where
  fields := fieldsOf_reread fits.order
  response r' hr := by
    rw [TaskResponse.ofJson_form form_reread fits.order] at hr
    obtain ⟨p, _, rfl⟩ := Outcome.map_eq_ok.1 hr
    rfl
  whole := survives_iff_reread.symm.trans (TaskResponse.survives_iff fits)

/-- The lines of a body are documents, one for each response and in their order. Each has what its
response says, with nothing changed but numbers of the payload, so that no other line can pass for
the end of a stream. It is read as the response exactly if the payload is found again. -/
theorem lines_read_back {rs : List TaskResponse} (fits : ∀ r ∈ rs, r.Fits) :
    ∃ docs, (textBytes (taskBody rs)).splitOn newline = docs ++ [[]] ∧
      rs.Forall₂ (fun r doc => ∃ v, documentOf? doc = some v ∧ Tells v r) docs := by
  refine ⟨_, lines_taskBody rs, ?_⟩
  rw [List.forall₂_map_right_iff]
  exact List.forall₂_same.2 fun r hr =>
    ⟨_, documentOf?_textBytes r.toJson, tells_reread (fits r hr)⟩

/-- A body with a quote, a line break and a text outside of ASCII has a line for each response. -/
theorem lines_read_back_pair :
    let rs : List TaskResponse :=
      [⟨"a\n\"b", "Error", 0, .object [("k\n", .text "é\u0001")], some "x\r\ny", false⟩,
        ⟨"a\n\"b", "END", 1, .null, none, true⟩]
    ∃ docs, (textBytes (taskBody rs)).splitOn newline = docs ++ [[]] ∧
      rs.Forall₂ (fun r doc => ∃ v, documentOf? doc = some v ∧ Tells v r) docs := by
  refine lines_read_back fun r hr => ?_
  simp only [List.mem_cons, List.not_mem_nil, or_false] at hr
  rcases hr with rfl | rfl
  · exact ⟨by decide, .cons nofun .nil, trivial, trivial⟩
  · exact ⟨by decide, trivial⟩

/-- Whether the lines of a body are read as its responses. -/
def ReadsBack (rs : List TaskResponse) : Prop :=
  ∃ docs, (textBytes (taskBody rs)).splitOn newline = docs ++ [[]] ∧
    rs.Forall₂ (fun r doc => (documentOf? doc).map TaskResponse.ofJson = some (.ok r)) docs

theorem survives_of_readsBack {rs : List TaskResponse} (h : ReadsBack rs) :
    ∀ r ∈ rs, Survives TaskResponse.toJson TaskResponse.ofJson r := by
  obtain ⟨docs, hd, hr⟩ := h
  rw [lines_taskBody] at hd
  rw [← List.append_cancel_right hd, List.forall₂_map_right_iff, List.forall₂_same] at hr
  intro r hm
  have hs := hr r hm
  rw [documentOf?_textBytes, Option.map_some, Option.some.injEq] at hs
  exact survives_iff_reread.2 hs

/-- Two bodies whose one line is not read as the response: the payload is nested a level too deep,
or is a number that is read as its neighbour. -/
theorem line_not_read_back :
    ((∀ r ∈ [TaskResponse.carrying (.nested 127)], r.Fits) ∧
      ¬ReadsBack [.carrying (.nested 127)]) ∧
    ((∀ r ∈ [TaskResponse.carrying (.number (.binary .above913))], r.Fits) ∧
      ¬ReadsBack [.carrying (.number (.binary .above913))]) := by
  refine ⟨⟨?_, fun hb => ?_⟩, ?_, fun hb => ?_⟩
  · intro r hr
    rw [List.mem_singleton.1 hr]
    exact TaskResponse.fits_deep
  · exact TaskResponse.not_survives_deep (survives_of_readsBack hb _ List.mem_cons_self)
  · intro r hr
    rw [List.mem_singleton.1 hr]
    exact TaskResponse.fits_inexact
  · exact TaskResponse.not_survives_inexact (survives_of_readsBack hb _ List.mem_cons_self)

end ChainIndexer.Server
