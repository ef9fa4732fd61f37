import ChainIndexer.Proofs.Text.Blank
import ChainIndexer.Settings.Variables

/-
  Which definition of a variable counts.

  A variable that is defined keeps its value, and one that is not takes that of the first line of a
  file that defines it (`lookup_load`); what a line defines is told by `Defines`, which knows
  nothing of the way in which it is read. So nothing is left to define when a file has been loaded
  (`load_load`). A definition that is made and holds a NUL stops the program, and nothing else does
  (`stopsAt_iff`).
-/

namespace ChainIndexer.Variables

open Text

variable {vars defs : Variables} {d : String × String} {name value : String} {line cs : List Char}

/-! ## What a line defines -/

/-- A text without the double quotes around it. -/
def Unquotes (cs bare : List Char) : Prop :=
  ∃ m n, cs = List.replicate m '"' ++ bare ++ List.replicate n '"' ∧
    bare.head? ≠ some '"' ∧ bare.getLast? ≠ some '"'

/-- A line is no comment and has a name in front of its first equals sign, and the value behind it.
Blanks around the line, the name and the value do not count, nor do double quotes around the
value. -/
def Defines (line : List Char) (name value : String) : Prop :=
  ∃ before after, trim line = before ++ '=' :: after ∧ '=' ∉ before ∧
    (trim line).head? ≠ some '#' ∧ trim before = name.toList ∧ name ≠ "" ∧
    Unquotes (trim after) value.toList

/-- Quotes in front of a text, and what follows them. -/
theorem exists_quotes (cs : List Char) :
    ∃ m, cs = List.replicate m '"' ++ cs.dropWhile (· == '"') := by
  refine ⟨(cs.takeWhile (· == '"')).length, ?_⟩
  have ht : cs.takeWhile (· == '"') = List.replicate (cs.takeWhile (· == '"')).length '"' := by
    rw [List.eq_replicate_iff]
    refine ⟨rfl, fun c hc => ?_⟩
    simpa using List.all_eq_true.1 (List.all_takeWhile (p := (· == '"'))) c hc
  rw [← ht, List.takeWhile_append_dropWhile]

theorem head_dropWhile_ne (cs : List Char) : (cs.dropWhile (· == '"')).head? ≠ some '"' := by
  intro h
  have hn := List.head?_dropWhile_not (· == '"') cs
  rw [h] at hn
  exact absurd hn (by decide)

theorem dropWhile_replicate_append (m : Nat) (h : cs.head? ≠ some '"') :
    (List.replicate m '"' ++ cs).dropWhile (· == '"') = cs := by
  rw [List.dropWhile_append_of_pos (by simp)]
  cases cs with
  | nil => rfl
  | cons c cs => exact List.dropWhile_cons_of_neg (by simpa using h)

theorem unquotes_unquoted (cs : List Char) : Unquotes cs (unquoted cs) := by
  obtain ⟨m, hm⟩ := exists_quotes cs
  obtain ⟨n, hn⟩ := exists_quotes (cs.dropWhile (· == '"')).reverse
  have hs : cs.dropWhile (· == '"') = unquoted cs ++ List.replicate n '"' := by
    have hr := congrArg List.reverse hn
    rwa [List.reverse_reverse, List.reverse_append, List.reverse_replicate] at hr
  refine ⟨m, n, ?_, fun h => ?_, ?_⟩
  · rw [List.append_assoc, ← hs]
    exact hm
  · have hh := head_dropWhile_ne cs
    rw [hs, List.head?_append, h] at hh
    exact hh rfl
  · unfold unquoted
    rw [List.getLast?_reverse]
    exact head_dropWhile_ne _

theorem unquoted_of_unquotes {bare : List Char} (h : Unquotes cs bare) : unquoted cs = bare := by
  obtain ⟨m, n, rfl, hf, hl⟩ := h
  unfold unquoted
  cases bare with
  | nil =>
    rw [List.append_nil, List.replicate_append_replicate, ← List.append_nil (List.replicate _ _),
      dropWhile_replicate_append _ (by simp)]
    rfl
  | cons c rest =>
    have hs : (c :: rest ++ List.replicate n '"').head? ≠ some '"' := hf
    rw [List.append_assoc, dropWhile_replicate_append m hs, List.reverse_append,
      List.reverse_replicate, dropWhile_replicate_append n (by rwa [List.head?_reverse]),
      List.reverse_reverse]

theorem readLine_eq_some_iff : readLine line = some (name, value) ↔ Defines line name value := by
  unfold readLine
  constructor
  · intro h
    dsimp only at h
    split at h
    · cases h
    · rename_i c after hd
      split at h
      · cases h
      · rename_i hn
        rw [not_or] at hn
        obtain ⟨rfl, rfl⟩ := Prod.mk.inj (Option.some.inj h)
        have hc := List.head?_dropWhile_not (· != '=') (trim line)
        rw [hd] at hc
        obtain rfl : c = '=' := by simpa using hc
        refine ⟨(trim line).takeWhile (· != '='), after, ?_, fun hm => ?_, hn.1, ?_, ?_, ?_⟩
        · rw [← hd, List.takeWhile_append_dropWhile]
        · have ht := List.all_eq_true.1 (List.all_takeWhile (p := (· != '='))) _ hm
          exact absurd ht (by decide)
        · rw [String.toList_ofList]
        · exact fun he => hn.2 (String.ofList_eq_empty_iff.1 he)
        · rw [String.toList_ofList]
          exact unquotes_unquoted (trim after)
  · rintro ⟨before, after, hs, hb, hc, hname, hne, hv⟩
    have hp : ∀ c ∈ before, (c != '=') = true := by
      intro c hm
      rw [bne_iff_ne]
      exact fun he => hb (he ▸ hm)
    have ht : (trim line).takeWhile (· != '=') = before := by
      rw [hs, List.takeWhile_append_of_pos hp, List.takeWhile_cons_of_neg (by decide),
        List.append_nil]
    have hd : (trim line).dropWhile (· != '=') = '=' :: after := by
      rw [hs, List.dropWhile_append_of_pos hp, List.dropWhile_cons_of_neg (by decide)]
    have hn : ¬((trim line).head? = some '#' ∨ trim before = []) := by
      rw [not_or, hname]
      exact ⟨hc, fun he => hne (String.toList_eq_nil_iff.1 he)⟩
    simp only [ht, hd]
    rw [if_neg hn, hname, unquoted_of_unquotes hv, String.ofList_toList, String.ofList_toList]

/-- The first line of a file that defines a variable gives it a value. -/
def FirstDefines (file name value : String) : Prop :=
  ∃ earlier line later, file.toList.splitOn '\n' = earlier ++ line :: later ∧
    Defines line name value ∧ ∀ l ∈ earlier, ∀ v, ¬Defines l name v

/-- A return in front of a line end is part of the line end. -/
theorem defines_return : Defines (line ++ ['\r']) name value ↔ Defines line name value := by
  have hr : ∀ c ∈ ['\r'], isBlank c = true := List.all_eq_true.1 (by decide)
  have ht : trim (line ++ ['\r']) = trim line := trim_append hr line
  unfold Defines
  rw [ht]

/-- The first of some items is the one in front, or that of the others if the one in front is
passed. -/
theorem exists_first_cons {α : Type} {p q : α → Prop} {a : α} {l : List α} :
    (∃ earlier x later, a :: l = earlier ++ x :: later ∧ p x ∧ ∀ y ∈ earlier, q y) ↔
      p a ∨ q a ∧ ∃ earlier x later, l = earlier ++ x :: later ∧ p x ∧ ∀ y ∈ earlier, q y := by
  constructor
  · rintro ⟨earlier, x, later, hs, hp, hq⟩
    cases earlier with
    | nil =>
      obtain ⟨rfl, -⟩ := List.cons.inj hs
      exact .inl hp
    | cons y earlier =>
      obtain ⟨rfl, ht⟩ := List.cons.inj hs
      obtain ⟨hy, hq⟩ := List.forall_mem_cons.1 hq
      exact .inr ⟨hy, earlier, x, later, ht, hp, hq⟩
  · rintro (hp | ⟨ha, earlier, x, later, rfl, hp, hq⟩)
    · exact ⟨[], a, l, rfl, hp, nofun⟩
    · exact ⟨a :: earlier, x, later, rfl, hp, List.forall_mem_cons.2 ⟨ha, hq⟩⟩

theorem lookup_filterMap {lines : List (List Char)} :
    (lines.filterMap readLine).lookup name = some value ↔
      ∃ earlier line later, lines = earlier ++ line :: later ∧
        readLine line = some (name, value) ∧ ∀ l ∈ earlier, ∀ v, readLine l ≠ some (name, v) := by
  induction lines with
  | nil => simp
  | cons first rest ih =>
    rw [exists_first_cons, ← ih]
    cases hf : readLine first with
    | none => simp [hf]
    | some d =>
      obtain ⟨k, x⟩ := d
      rw [List.filterMap_cons_some hf, Keyed.lookup_entry]
      by_cases hk : name = k
      · simp [hk]
      · simp [hk, Ne.symm hk]

theorem lookup_readFile {file : String} :
    (readFile file).lookup name = some value ↔ FirstDefines file name value := by
  unfold readFile FirstDefines
  simp only [lookup_filterMap, readLine_eq_some_iff, ne_eq]

/-- Lines that are blank or comments, or have no equals sign or no name, define nothing, and every
other line does. -/
theorem exists_defines_iff : (∃ name value, Defines line name value) ↔
    (trim line).head? ≠ some '#' ∧
      ∃ before after, trim line = before ++ '=' :: after ∧ '=' ∉ before ∧ trim before ≠ [] := by
  constructor
  · rintro ⟨name, value, before, after, hs, hb, hc, hname, hne, -⟩
    exact ⟨hc, before, after, hs, hb, fun he => hne (String.toList_eq_nil_iff.1 (hname ▸ he))⟩
  · rintro ⟨hc, before, after, hs, hb, hne⟩
    refine ⟨.ofList (trim before), .ofList (unquoted (trim after)), before, after, hs, hb, hc, ?_,
      fun he => hne (String.ofList_eq_empty_iff.1 he), ?_⟩
    · rw [String.toList_ofList]
    · rw [String.toList_ofList]
      exact unquotes_unquoted (trim after)

/-! ## Defining in turn -/

theorem lookup_foldl_define (vars defs : Variables) (name : String) :
    (defs.foldl define vars).lookup name = (vars.lookup name).or (defs.lookup name) := by
  induction defs generalizing vars with
  | nil => simp
  | cons d rest ih =>
    obtain ⟨k, x⟩ := d
    rw [List.foldl_cons, ih, lookup_define, Option.or_assoc, Keyed.lookup_entry]
    split <;> simp

/-- A variable that is defined keeps its value, and any other takes the first that a file has for
it. -/
theorem lookup_load (vars : Variables) (file name : String) :
    (vars.load file).lookup name = (vars.lookup name).or ((readFile file).lookup name) :=
  lookup_foldl_define vars (readFile file) name

theorem stopsAt_iff : stopsAt vars defs = true ↔
    ∃ name value,
      vars.lookup name = none ∧ defs.lookup name = some value ∧ holdsNul (name, value) := by
  induction defs generalizing vars with
  | nil => simp [stopsAt]
  | cons d rest ih =>
    obtain ⟨k, x⟩ := d
    rw [stopsAt, Bool.or_eq_true, Bool.and_eq_true, Option.isNone_iff_eq_none, ih]
    simp only [lookup_define, Option.or_eq_none_iff, Keyed.lookup_entry]
    constructor
    · rintro (⟨hv, hn⟩ | ⟨name, value, ⟨hv, hne⟩, hl, hn⟩)
      · exact ⟨k, x, hv, if_pos rfl, hn⟩
      · have hk : name ≠ k := fun h => by simp [h] at hne
        exact ⟨name, value, hv, by rwa [if_neg hk], hn⟩
    · rintro ⟨name, value, hv, hl, hn⟩
      by_cases hk : name = k
      · rw [if_pos hk] at hl
        obtain rfl := Option.some.inj hl
        exact .inl ⟨hk ▸ hv, hk ▸ hn⟩
      · rw [if_neg hk] at hl
        exact .inr ⟨name, value, ⟨hv, if_neg hk⟩, hl, hn⟩

theorem foldl_define_of_isSome (h : ∀ d ∈ defs, (vars.lookup d.1).isSome) :
    defs.foldl define vars = vars := by
  induction defs with
  | nil => rfl
  | cons d rest ih =>
    obtain ⟨hd, hr⟩ := List.forall_mem_cons.1 h
    rw [List.foldl_cons, define, if_pos hd]
    exact ih hr

theorem isSome_lookup_of_mem (h : d ∈ defs) : (defs.lookup d.1).isSome := by
  rw [Option.isSome_iff_ne_none, ne_eq, List.lookup_eq_none_iff]
  intro hn
  exact absurd (hn d h) (by simp)

/-- When a file has been loaded, loading it again finds everything defined. -/
theorem load?_load (vars : Variables) (file : String) :
    load? (vars.load file) file = some (vars.load file) := by
  have hd : ∀ d ∈ readFile file, ((vars.load file).lookup d.1).isSome := by
    intro d hm
    rw [lookup_load, Option.isSome_or, isSome_lookup_of_mem hm, Bool.or_true]
  have hs : stopsAt (vars.load file) (readFile file) = false := by
    rw [Bool.eq_false_iff, ne_eq, stopsAt_iff]
    rintro ⟨name, value, hv, hl, -⟩
    rw [lookup_load, hl] at hv
    simp at hv
  rw [load?, hs, load, foldl_define_of_isSome hd]
  rfl

theorem load?_eq_some_iff {after : Variables} {file : String} :
    load? vars file = some after ↔
      stopsAt vars (readFile file) = false ∧ vars.load file = after := by
  unfold load?
  cases stopsAt vars (readFile file) with
  | true => simp
  | false => simp

/-- Loading a file comes to an end unless a variable that is not defined would get a NUL from the
first line that defines it. After it, a variable that was defined before has its value, any other
has that of the first line that defines it if there is one, and loading the file again changes
nothing. Lines that are blank or comments, or have no equals sign or no name, define nothing, and
every other line does; a return at its end makes no difference. -/
theorem load?_outcome (vars : Variables) (file : String) :
    (load? vars file = none ↔ ∃ name value, vars.lookup name = none ∧
      FirstDefines file name value ∧ ('\x00' ∈ name.toList ∨ '\x00' ∈ value.toList)) ∧
    (∀ after, load? vars file = some after →
      (∀ name value, vars.lookup name = some value → after.lookup name = some value) ∧
      (∀ name value, vars.lookup name = none →
        (after.lookup name = some value ↔ FirstDefines file name value)) ∧
      load? after file = some after) ∧
    (∀ line, (∃ name value, Defines line name value) ↔ (trim line).head? ≠ some '#' ∧
      ∃ before after, trim line = before ++ '=' :: after ∧ '=' ∉ before ∧ trim before ≠ []) ∧
    ∀ line name value, Defines (line ++ ['\r']) name value ↔ Defines line name value := by
  refine ⟨?_, fun after h => ?_, fun line => exists_defines_iff, fun _ _ _ => defines_return⟩
  · have hnone : load? vars file = none ↔ stopsAt vars (readFile file) = true := by
      unfold load?
      cases stopsAt vars (readFile file) with
      | true => simp
      | false => simp
    simp only [hnone, stopsAt_iff, lookup_readFile, holdsNul, Bool.or_eq_true,
      List.contains_iff_mem]
  · obtain ⟨-, rfl⟩ := load?_eq_some_iff.1 h
    refine ⟨fun name value hv => ?_, fun name value hv => ?_, load?_load vars file⟩
    · rw [lookup_load, hv, Option.some_or]
    · rw [lookup_load, hv, Option.none_or, lookup_readFile]

/-- A value with a NUL is never there. -/
theorem load?_nul :
    FirstDefines "DATAHUB_KEY=a\x00b" "DATAHUB_KEY" "a\x00b" ∧
      load? [] "DATAHUB_KEY=a\x00b" = none := by
  rw [← lookup_readFile]
  decide +kernel

end ChainIndexer.Variables
