import ChainIndexer.Stored.Event
import ChainIndexer.Proofs.Json.Settling
import ChainIndexer.Proofs.Outcome

/-
  Records, written and read again.

  A written value reaches its reader in some `Form`: as it is, as it was read from its text, or with
  its fields sorted. No form adds or drops a value under a name that stands once, so a record is
  read in any form if its fields are: `gives_required` and its companions say so for each way to
  write a field, and `Gathered.Gives` puts the fields together.
-/

namespace ChainIndexer

theorem Keyed.entries_foldl_put (entries : List (String × α)) (m : Keyed α) :
    (entries.foldl (fun m e => m.put e.1 e.2) m).entries
      = entries.foldl (fun es e => putEntry e.1 e.2 es) m.entries := by
  induction entries generalizing m with
  | nil => rfl
  | cons e rest ih => exact ih (m.put e.1 e.2)

/-- A collection is put together again from its entries. -/
theorem Keyed.ofEntries_entries (m : Keyed α) : Keyed.ofEntries m.entries = m :=
  ext_entries ((entries_foldl_put m.entries empty).trans
    (foldl_putEntry_of_ascending (List.nil_append m.entries ▸ m.ascending)))

namespace Json

open Number

/-! ## The values of fields -/

/-- The values that stand under a name. -/
def valuesOf (name : String) (fields : List (String × Json)) : List Json :=
  (fields.filter fun e => e.1 = name).map Prod.snd

theorem valuesOf_cons (name : String) (e : String × Json) (fields : List (String × Json)) :
    valuesOf name (e :: fields) = if e.1 = name then e.2 :: valuesOf name fields
      else valuesOf name fields := by
  unfold valuesOf
  by_cases h : e.1 = name
  · rw [List.filter_cons_of_pos (by simpa using h), if_pos h, List.map_cons]
  · rw [List.filter_cons_of_neg (by simpa using h), if_neg h]

@[simp] theorem valuesOf_append (name : String) (fs gs : List (String × Json)) :
    valuesOf name (fs ++ gs) = valuesOf name fs ++ valuesOf name gs := by
  simp [valuesOf]

/-- Fields of one name have all their values under it. -/
theorem valuesOf_of_names {m : String} {fields : List (String × Json)}
    (h : ∀ e ∈ fields, e.1 = m) (name : String) :
    valuesOf name fields = if m = name then fields.map Prod.snd else [] := by
  unfold valuesOf
  split
  · rename_i hm
    rw [List.filter_eq_self.2 fun e he => by simpa using (h e he).trans hm]
  · rename_i hm
    rw [List.filter_eq_nil_iff.2 fun e he => by simpa [h e he] using hm]
    rfl

@[simp] theorem valuesOf_field (name m : String) (v : Json) :
    valuesOf name (field m v) = if m = name then [v] else [] :=
  valuesOf_of_names (by simp [field]) name

@[simp] theorem valuesOf_textField (name m s : String) :
    valuesOf name (textField m s) = if m = name then (textField m s).map Prod.snd else [] :=
  valuesOf_of_names (by unfold textField; split <;> simp) name

@[simp] theorem valuesOf_listField (name m : String) (items : List Json) :
    valuesOf name (listField m items) = if m = name then (listField m items).map Prod.snd else [] :=
  valuesOf_of_names (by unfold listField; split <;> simp) name

@[simp] theorem valuesOf_namesField (name m : String) (fields : List (String × Json)) :
    valuesOf name (namesField m fields)
      = if m = name then (namesField m fields).map Prod.snd else [] :=
  valuesOf_of_names (by unfold namesField; split <;> simp) name

@[simp] theorem valuesOf_optionField (name m : String) (o : Option Json) :
    valuesOf name (optionField m o) = if m = name then (optionField m o).map Prod.snd else [] :=
  valuesOf_of_names (by cases o <;> simp [optionField]) name

theorem valuesOf_map (form : Json → Json) (name : String) (fields : List (String × Json)) :
    valuesOf name (fields.map fun e => (e.1, form e.2)) = (valuesOf name fields).map form := by
  induction fields with
  | nil => rfl
  | cons e rest ih =>
    rw [List.map_cons, valuesOf_cons, valuesOf_cons, ih]
    split
    · rfl
    · rfl

/-! ## Sorted fields -/

/-- Among ascending fields a name has the value that is found under it. -/
theorem valuesOf_of_ascending {fields : List (String × Json)} (h : Ascending fields)
    (name : String) : valuesOf name fields = (fields.lookup name).toList := by
  induction fields with
  | nil => rfl
  | cons e rest ih =>
    obtain ⟨k, v⟩ := e
    obtain ⟨hk, hr⟩ := List.pairwise_cons.1 h
    rw [valuesOf_cons, Keyed.lookup_entry]
    by_cases hn : k = name
    · subst hn
      have hnone : valuesOf k rest = [] := by
        unfold valuesOf
        rw [List.filter_eq_nil_iff.2 fun e he => ?_, List.map_nil]
        have hlt := hk e he
        simp only [decide_eq_true_eq]
        intro he'
        rw [he'] at hlt
        exact String.lt_irrefl k hlt
      rw [if_pos rfl, if_pos rfl, hnone]
      rfl
    · rw [if_neg hn, if_neg (Ne.symm hn)]
      exact ih hr

theorem ascending_settleFields (fields : List (String × Json)) :
    Ascending (settleFields fields) := by
  suffices h : ∀ es : List (String × Json), Ascending es →
      Ascending (fields.foldl (fun es e => putEntry e.1 e.2 es) es) from h [] .nil
  induction fields with
  | nil => exact fun _ h => h
  | cons e rest ih => exact fun es h => ih _ (ascending_putEntry e.1 e.2 h)

theorem lookup_foldl_putEntry (name : String) (fields es : List (String × Json)) :
    (fields.foldl (fun es e => putEntry e.1 e.2 es) es).lookup name
      = (valuesOf name fields).getLast?.or (es.lookup name) := by
  induction fields generalizing es with
  | nil => rfl
  | cons e rest ih =>
    rw [List.foldl_cons, ih, valuesOf_cons, Keyed.lookup_putEntry]
    by_cases hn : e.1 = name
    · rw [if_pos hn.symm, if_pos hn, List.getLast?_cons]
      cases (valuesOf name rest).getLast? with
      | none => rfl
      | some v => rfl
    · rw [if_neg (Ne.symm hn), if_neg hn]

/-- Sorting keeps the value of a name that stands once. -/
theorem valuesOf_settleFields {name : String} {fields : List (String × Json)}
    (h : (valuesOf name fields).length ≤ 1) :
    valuesOf name (settleFields fields) = valuesOf name fields := by
  rw [valuesOf_of_ascending (ascending_settleFields fields), settleFields, lookup_foldl_putEntry]
  match hv : valuesOf name fields with
  | [] => rfl
  | [v] => rfl
  | _ :: _ :: _ => simp [hv] at h

/-! ## Forms -/

/-- A form in which a written value may reach its reader. -/
structure Form (form : Json → Json) : Prop where
  null : form .null = .null
  bool (b : Bool) : form (.bool b) = .bool b
  whole {z : Int} (fits : (JsonNumber.whole z).Fits) : form (.int z) = .int z
  text (s : String) : form (.text s) = .text s
  array (items : List Json) : form (.array items) = .array (items.map form)
  object (fields : List (String × Json)) : ∃ gs, form (.object fields) = .object gs ∧
    (gs = fields.map (fun e => (e.1, form e.2)) ∨
      gs = settleFields (fields.map fun e => (e.1, form e.2)))

theorem form_id : Form id where
  null := rfl
  bool _ := rfl
  whole _ := rfl
  text _ := rfl
  array items := by rw [List.map_id]; rfl
  object fields := ⟨fields, rfl, .inl (List.map_id fields).symm⟩

theorem form_reread : Form reread where
  null := rfl
  bool _ := rfl
  whole fits := reread_whole fits
  text _ := rfl
  array items := by rw [reread, rereadItems_eq_map]
  object fields := ⟨_, by rw [reread], .inl (rereadFields_eq_map fields)⟩

/-- Fields that have the values of others in a form, where a name stands no more than once. -/
def Shows (form : Json → Json) (fields gs : List (String × Json)) : Prop :=
  ∀ name, (valuesOf name fields).length ≤ 1 → valuesOf name gs = (valuesOf name fields).map form

theorem Form.shows {form : Json → Json} (h : Form form) (fields : List (String × Json)) :
    ∃ gs, form (.object fields) = .object gs ∧ Shows form fields gs := by
  obtain ⟨gs, hg, rfl | rfl⟩ := h.object fields
  · exact ⟨_, hg, fun name _ => valuesOf_map form name fields⟩
  · refine ⟨_, hg, fun name hn => ?_⟩
    rw [valuesOf_settleFields, valuesOf_map]
    rw [valuesOf_map, List.length_map]
    exact hn

/-! ## Simple values -/

section
variable {form : Json → Json} (h : Form form)
include h

theorem Form.text_ne (s : String) : form (.text s) ≠ .null := by
  rw [h.text]
  exact nofun

theorem Form.object_ne (fields : List (String × Json)) : form (.object fields) ≠ .null := by
  obtain ⟨gs, hg, _⟩ := h.object fields
  rw [hg]
  exact nofun

theorem Form.readText (s : String) : Json.readText (form (.text s)) = .ok s := by
  rw [h.text]
  rfl

theorem Form.readBool (b : Bool) : Json.readBool (form (.bool b)) = .ok b := by
  rw [h.bool]
  rfl

theorem Form.readInt {low high z : Int} {expected : String} (hz : low ≤ z ∧ z ≤ high)
    (fits : (JsonNumber.whole z).Fits) :
    Json.readInt low high expected (form (.int z)) = .ok z := by
  rw [h.whole fits]
  exact if_pos hz

theorem Form.nat64 {n : Nat} (hn : n ≤ Text.maxWord64) : form (.nat n) = .nat n :=
  h.whole ⟨by unfold Text.maxSigned64; omega, Int.ofNat_le.2 hn⟩

theorem Form.readNat {limit n : Nat} {expected : String} (hn : n ≤ limit)
    (fits : (JsonNumber.whole n).Fits) : Json.readNat limit expected (form (.nat n)) = .ok n := by
  have hw : form (.nat n) = .nat n := h.whole fits
  rw [hw]
  exact (if_pos ⟨Int.natCast_nonneg n, Int.ofNat_le.2 hn⟩).trans rfl

theorem Form.readNat64 {n : Nat} (hn : n ≤ Text.maxWord64) :
    Json.readNat64 (form (.nat n)) = .ok n :=
  h.readNat hn ⟨by unfold Text.maxSigned64; omega, Int.ofNat_le.2 hn⟩

theorem Form.readNat32 {n : Nat} (hn : n ≤ Text.maxWord32) :
    Json.readNat32 (form (.nat n)) = .ok n := by
  refine h.readNat hn ⟨by unfold Text.maxSigned64; omega, Int.ofNat_le.2 (Nat.le_trans hn ?_)⟩
  decide

theorem Form.readInt64 {z : Int} (hz : -(Text.maxSigned64 : Int) - 1 ≤ z ∧ z ≤ Text.maxSigned64) :
    Json.readInt64 (form (.int z)) = .ok z :=
  h.readInt hz ⟨hz.1, Int.le_trans hz.2 (by decide)⟩

theorem Form.readInt32 {z : Int} (hz : -(Text.maxSigned32 : Int) - 1 ≤ z ∧ z ≤ Text.maxSigned32) :
    Json.readInt32 (form (.int z)) = .ok z :=
  h.readInt hz ⟨Int.le_trans (by decide) hz.1, Int.le_trans hz.2 (by decide)⟩

theorem Form.readList {α : Type} {read : Json → Except Fault α} {write : α → Json} {items : List α}
    (hr : ∀ a ∈ items, read (form (write a)) = .ok a) :
    Json.readList read (form (listJson write items)) = .ok items := by
  rw [listJson, h.array, List.map_map]
  exact Outcome.mapM_eq_ok.2 (List.forall₂_map_left_iff.2 (List.forall₂_same.2 hr))

theorem Form.readKeyed {α : Type} {read : Json → Except Fault α} {write : α → Json} {m : Keyed α}
    (hr : ∀ e ∈ m.entries, read (form (write e.2)) = .ok e.2) :
    Json.readKeyed read (form (.object (keyedFields write m))) = .ok m := by
  have hm : ((keyedFields write m).map fun e => (e.1, form e.2))
      = m.entries.map fun e => (e.1, form (write e.2)) := List.map_map
  have hs : settleFields (m.entries.map fun e => (e.1, form (write e.2)))
      = m.entries.map fun e => (e.1, form (write e.2)) := by
    refine settleFields_of_ascending (ascending_iff.2 ?_)
    rw [List.map_map]
    exact ascending_iff.1 m.ascending
  obtain ⟨gs, hg, hgs⟩ := h.object (keyedFields write m)
  rw [hm, hs, or_self] at hgs
  rw [hg, hgs]
  have he {f : String × Json → Except Fault (String × α)}
      (hf : ∀ e ∈ m.entries, f (e.1, form (write e.2)) = .ok e) :
      (m.entries.map fun e => (e.1, form (write e.2))).mapM f = .ok m.entries :=
    Outcome.mapM_eq_ok.2 (List.forall₂_map_left_iff.2 (List.forall₂_same.2 hf))
  unfold Json.readKeyed
  dsimp only
  rw [he fun e hm => congrArg (Except.map (e.1, ·)) (hr e hm)]
  exact congrArg Except.ok (Keyed.ofEntries_entries m)

end

/-! ## Records -/

/-- All parts were read, and give a value. -/
def Gathered.Gives {α : Type} (g : Gathered α) (a : α) : Prop :=
  g.result = .ok a

theorem Gathered.Gives.map {α β : Type} {x : Gathered α} {a : α} (hx : x.Gives a) (f : α → β) :
    (f <$> x).Gives (f a) :=
  congrArg (Except.map f) hx

theorem Gathered.Gives.seq {α β : Type} {f : Gathered (α → β)} {x : Gathered α} {g : α → β} {a : α}
    (hf : f.Gives g) (hx : x.Gives a) : (f <*> x).Gives (g a) := by
  show (Gathered.both f x).result = .ok (g a)
  unfold Gathered.both
  rw [show f.result = .ok g from hf, show x.result = .ok a from hx]

/-- Behind parts that were read, the next part decides. -/
theorem Gathered.Gives.result_seq {α β : Type} {f : Gathered (α → β)} {g : α → β} (hf : f.Gives g)
    (x : Gathered α) : (f <*> x).result = x.result.map g := by
  show (Gathered.both f x).result = x.result.map g
  unfold Gathered.both
  rw [show f.result = .ok g from hf]
  cases x.result with
  | ok a => rfl
  | error e => rfl

/-- A part that was read changes nothing about the faults in front of it. -/
theorem Gathered.Gives.result_seq_left {α β : Type} {f : Gathered (α → β)} {x : Gathered α} {a : α}
    (hx : x.Gives a) : (f <*> x).result = f.result.map fun g => g a := by
  show (Gathered.both f x).result = f.result.map fun g => g a
  unfold Gathered.both
  rw [show x.result = .ok a from hx]
  cases f.result with
  | ok g => rfl
  | error e => rfl

/-- A record is read in any form if its fields are. -/
theorem Form.readRecord {α : Type} {form : Json → Json} (h : Form form) {name : String}
    {count : Nat} {body : Parts → Gathered α} {fields : List (String × Json)} {a : α}
    (hb : ∀ gs, Shows form fields gs → (body (.named gs)).Gives a) :
    Json.readRecord name count body (form (.object fields)) = .ok a := by
  obtain ⟨gs, hg, shows⟩ := h.shows fields
  rw [hg]
  show (body (.named gs)).result.mapError (·.2) = .ok a
  rw [show (body (.named gs)).result = .ok a from hb gs shows]
  rfl

theorem map_snd_found (name : String) (index : Nat) (fields : List (String × Json)) :
    ((Parts.named fields).found index name).map Prod.snd = valuesOf name fields := by
  suffices hs : ∀ k, ((fields.zipIdx k).filter fun x => x.1.1 = name).map (fun x => x.1.2)
      = valuesOf name fields by
    rw [← hs 0, Parts.found, List.map_map]
    rfl
  induction fields with
  | nil => exact fun _ => rfl
  | cons e rest ih =>
    intro k
    rw [List.zipIdx_cons, List.filter_cons, valuesOf_cons, ← ih (k + 1)]
    by_cases hn : e.1 = name
    · simp [hn]
    · simp [hn]

section
variable {α : Type} {form : Json → Json} {fields gs : List (String × Json)} {name record : String}
  {index : Nat} {read : Json → Except Fault α} {a : α} {v : Json}

theorem readAt_found {absent : Except (Nat × Fault) α} (hv : valuesOf name gs = [v])
    (hr : read v = .ok a) :
    (Parts.readAt name read absent ((Parts.named gs).found index name)).Gives a := by
  rw [← map_snd_found name index] at hv
  obtain ⟨⟨i, w⟩, hf, hw⟩ := List.map_eq_singleton_iff.1 hv
  rw [hf, show w = v from hw]
  show (read v).mapError (i, ·) = .ok a
  rw [hr]
  rfl

theorem readAt_absent {absent : Except (Nat × Fault) α} (hv : valuesOf name gs = [])
    (ha : absent = .ok a) :
    (Parts.readAt name read absent ((Parts.named gs).found index name)).Gives a := by
  rw [← map_snd_found name index] at hv
  rw [List.map_eq_nil_iff.1 hv]
  exact ha

variable (shows : Shows form fields gs)
include shows

theorem Shows.single (hv : valuesOf name fields = [v]) : valuesOf name gs = [form v] := by
  rw [shows name (by rw [hv]; exact Nat.le_refl 1), hv]
  rfl

theorem Shows.none (hv : valuesOf name fields = []) : valuesOf name gs = [] := by
  rw [shows name (by rw [hv]; exact Nat.zero_le 1), hv]
  rfl

theorem gives_required (hv : valuesOf name fields = [v]) (hr : read (form v) = .ok a) :
    (Parts.required (.named gs) record index name read).Gives a :=
  readAt_found (shows.single hv) hr

theorem gives_defaulted {default : α} (hv : valuesOf name fields = [v])
    (hr : read (form v) = .ok a) :
    (Parts.defaulted (.named gs) index name default read).Gives a :=
  readAt_found (shows.single hv) hr

theorem gives_default {default : α} (hv : valuesOf name fields = []) :
    (Parts.defaulted (.named gs) index name default read).Gives default :=
  readAt_absent (shows.none hv) rfl

/-- A text that is left out when empty. -/
theorem gives_textField {s : String} (h : Form form)
    (hv : valuesOf name fields = (textField name s).map Prod.snd) :
    (Parts.defaulted (.named gs) index name "" readText).Gives s := by
  unfold textField at hv
  split at hv
  · rename_i hs
    rw [hs]
    exact gives_default shows hv
  · exact gives_defaulted shows hv (h.readText s)

/-- A list that is left out when empty. -/
theorem gives_listField {write : α → Json} {items : List α} (h : Form form)
    (hv : valuesOf name fields = (listField name (items.map write)).map Prod.snd)
    (hr : ∀ a ∈ items, read (form (write a)) = .ok a) :
    (Parts.defaulted (.named gs) index name [] (readList read)).Gives items := by
  unfold listField at hv
  cases items with
  | nil => exact gives_default shows hv
  | cons a rest => exact gives_defaulted shows hv (h.readList hr)

/-- Values under names that are left out when there are none. -/
theorem gives_namesField {write : α → Json} {m : Keyed α} (h : Form form)
    (hv : valuesOf name fields = (namesField name (keyedFields write m)).map Prod.snd)
    (hr : ∀ e ∈ m.entries, read (form (write e.2)) = .ok e.2) :
    (Parts.defaulted (.named gs) index name .empty (readKeyed read)).Gives m := by
  unfold namesField at hv
  split at hv
  · rename_i he
    have hm : m = .empty := by
      refine Keyed.ext_entries ?_
      rw [keyedFields, List.isEmpty_iff, List.map_eq_nil_iff] at he
      exact he
    rw [hm]
    exact gives_default shows hv
  · exact gives_defaulted shows hv (h.readKeyed hr)

omit shows in
theorem readOption_of_ne (hn : v ≠ .null) (hr : read v = .ok a) :
    readOption read v = .ok (some a) := by
  rw [readOption, hr]
  · rfl
  · exact hn

/-- A value that is left out when there is none. -/
theorem gives_optionField {write : α → Json} {o : Option α}
    (hv : valuesOf name fields = (optionField name (o.map write)).map Prod.snd)
    (hr : ∀ a ∈ o, read (form (write a)) = .ok a) (hn : ∀ a ∈ o, form (write a) ≠ .null) :
    (Parts.defaulted (.named gs) index name none (readOption read)).Gives o := by
  cases o with
  | none => exact gives_default shows hv
  | some a => exact gives_defaulted shows hv (readOption_of_ne (hn a rfl) (hr a rfl))

/-- A value that is written as null when there is none. -/
theorem gives_orNull {write : α → Json} {o : Option α} (h : Form form)
    (hv : valuesOf name fields = [orNull (o.map write)])
    (hr : ∀ a ∈ o, read (form (write a)) = .ok a) (hn : ∀ a ∈ o, form (write a) ≠ .null) :
    (Parts.optional (.named gs) record index name read).Gives o := by
  cases o with
  | none => exact readAt_found (shows.single hv) (congrArg (readOption read) h.null)
  | some a =>
    exact readAt_found (shows.single hv) (readOption_of_ne (hn a rfl) (hr a rfl))

end

end Json

end ChainIndexer
