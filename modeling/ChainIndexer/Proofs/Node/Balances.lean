import ChainIndexer.Node.Rest
import ChainIndexer.Proofs.Url.Encoding
import ChainIndexer.Proofs.Url.Segments

/-
  Where the balances of an account are asked for.

  An account is put behind the directories of balances as it is, and the text is resolved against
  the endpoint. Scheme, user, host and number of the endpoint stay, whatever the account is. The
  path is that of the account exactly if the account is a segment, and the segment stands for the
  account exactly if it has no escapes either (`balancesUrl_confined_iff`). Letters and digits are
  safe (`isSegment_of_isAlphanum`); other texts may be asked for elsewhere (`balancesUrl_supply`).
-/

namespace ChainIndexer.Node

open Url

variable {host account segment : String} {base url : Url} {names : List String}

/-- The directories in which the balances of accounts stand. -/
def balancesPath : List String :=
  ["cosmos", "bank", "v1beta1", "balances"]

/-- A URL is that of one more segment in the directories of balances, behind the path of a base,
without a query and a fragment. -/
structure IsBalancesOf (base : Url) (segment : String) (url : Url) : Prop where
  path : ∃ names, base.path = .segments (names ++ [""]) ∧
    url.path = .segments (names ++ balancesPath ++ [segment])
  query : url.query = none
  fragment : url.fragment = none

/-! ## Endpoints -/

/-- The path of an endpoint ends with an empty segment, if it has segments. -/
theorem endpoint_path (h : endpoint host = .ok base) :
    (∃ text, base.path = .opaqueText text) ∨ ∃ names, base.path = .segments (names ++ [""]) := by
  obtain ⟨u, hu, rfl⟩ : ∃ u, Url.parse host = .ok u ∧ asDirectory u = base := by
    unfold endpoint at h
    cases hp : Url.parse host with
    | error e => rw [hp] at h; cases h
    | ok u =>
      rw [hp] at h
      exact ⟨u, rfl, Except.ok.inj h⟩
  unfold asDirectory
  split
  · rename_i names hn
    split
    · rename_i he
      rcases List.eq_nil_or_concat names with rfl | ⟨front, last, rfl⟩
      · exact absurd he (by decide)
      · rw [List.concat_eq_append] at he hn
        rw [List.getLastD_concat] at he
        exact .inr ⟨front, he ▸ hn⟩
    · exact .inr ⟨names, rfl⟩
  · rename_i text ht
    exact .inl ⟨text, ht⟩

/-! ## Accounts -/

/-- The directories of balances as they are written. -/
def balancesDirs : List (List Char) :=
  balancesPath.map String.toList

theorem isSegment_of_mem_balancesDirs (special : Bool) :
    ∀ d ∈ balancesDirs, IsSegment special d := by
  have ha : balancesDirs.all (fun d => d.all Char.isAlphanum) = true := by decide
  intro d hd
  exact (isSegment_of_isAlphanum (List.all_eq_true.1 (List.all_eq_true.1 ha d hd)) special).1

theorem map_encode_balancesDirs : balancesDirs.map (encode inPathSet) = balancesPath := by
  decide +kernel

/-- The URL of an account. -/
def resolved (base : Url) (account : String) : Url :=
  joinPath base (directoryText balancesDirs ++ kept account.toList)

theorem balancesUrl_of_segments (hp : base.path = .segments (names ++ [""])) (account : String) :
    balancesUrl base account = .ok (resolved base account) := by
  have hc : clean ("cosmos/bank/v1beta1/balances/" ++ account) =
      directoryText balancesDirs ++ kept account.toList := by
    have ht : "cosmos/bank/v1beta1/balances/" ++ account =
        String.ofList (directoryText balancesDirs ++ account.toList) := by
      rw [String.ofList_append, String.ofList_toList]
      rfl
    have hl : (directoryText balancesDirs).all (fun c => 0x20 < c.toNat) = true := by decide
    rw [ht]
    exact clean_append (by decide) (fun c hc => of_decide_eq_true (List.all_eq_true.1 hl c hc)) _
  unfold balancesUrl join
  rw [hp, hc]
  rfl

theorem isBalancesOf_of_isSegment (hp : base.path = .segments (names ++ [""]))
    (hs : IsSegment (isSpecial base.scheme) account.toList) :
    IsBalancesOf base (encode inPathSet account.toList) (resolved base account) := by
  rw [resolved, joinPath_segment hp (isSegment_of_mem_balancesDirs _) hs, map_encode_balancesDirs]
  exact ⟨⟨names, hp, rfl⟩, rfl, rfl⟩

theorem exists_part (hp : base.path = .segments (names ++ [""]))
    (hb : IsBalancesOf base segment (resolved base account)) :
    ∃ part, part.Sublist account.toList ∧ segment = segmentName part ∧
      (part = account.toList → ¬IsPlace account.toList →
        IsSegment (isSpecial base.scheme) account.toList) := by
  obtain ⟨_, -, hpath⟩ := hb.path
  exact exists_last hp (isSegment_of_mem_balancesDirs _) hpath

/-- Under an endpoint without segments no account can be asked for. Under any other the scheme, the
user, the host and the number of the endpoint stay for every account, and the path is that of the
endpoint with the directories of balances and the account exactly if the account is a segment. One
more segment stands for the account exactly if there are no escapes in it either. -/
theorem balancesUrl_confined_iff (account : String) (h : endpoint host = .ok base) :
    (∃ text, base.path = .opaqueText text ∧ balancesUrl base account = .error (.url .opaqueBase)) ∨
    ∃ url, balancesUrl base account = .ok url ∧
      url.scheme = base.scheme ∧ url.username = base.username ∧ url.password = base.password ∧
      url.host = base.host ∧ url.portNumber = base.portNumber ∧
      (IsBalancesOf base (encode inPathSet account.toList) url ↔
        IsSegment (isSpecial base.scheme) account.toList) ∧
      ((∃ segment, IsBalancesOf base segment url ∧
          percentDecode segment.toList = characterBytes account.toList) ↔
        IsSegment (isSpecial base.scheme) account.toList ∧ ¬HasEscape account.toList) := by
  rcases endpoint_path h with ⟨text, ht⟩ | ⟨names, hp⟩
  · refine .inl ⟨text, ht, ?_⟩
    unfold balancesUrl join
    rw [ht]
    rfl
  · refine .inr ⟨_, balancesUrl_of_segments hp account, rfl, rfl, rfl, rfl, rfl, ?_, ?_⟩
    · refine ⟨fun hb => ?_, isBalancesOf_of_isSegment hp⟩
      obtain ⟨part, hs, hn, hw⟩ := exists_part hp hb
      have hl := Nat.le_of_eq (length_segmentName part)
      rw [← hn, toList_encode] at hl
      obtain ⟨hall, hplace⟩ := whole_of_part (encodeChar_ne_nil inPathSet) hs hl
      exact hw hall hplace
    · constructor
      · rintro ⟨segment, hb, hd⟩
        obtain ⟨part, hs, hn, hw⟩ := exists_part hp hb
        have hl := length_percentDecode_segmentName_le part
        rw [← hn, hd, characterBytes] at hl
        obtain ⟨hall, hplace⟩ :=
          whole_of_part (fun _ => String.utf8EncodeChar_ne_nil) hs hl
        refine ⟨hw hall hplace, ?_⟩
        rw [hn, segmentName, hall, if_neg hplace, percentDecode_encode] at hd
        exact percentDecode_eq_bytes_iff.1 hd
      · rintro ⟨hs, he⟩
        refine ⟨_, isBalancesOf_of_isSegment hp hs, ?_⟩
        rw [percentDecode_encode]
        exact percentDecode_eq_bytes_iff.2 he

theorem balancesUrl_confined_iff_plain :
    ∃ base url, endpoint "https://lcd.example.com/api" = .ok base ∧
      balancesUrl base "cosmos1abc" = .ok url ∧ IsBalancesOf base "cosmos1abc" url := by
  have hb : endpoint "https://lcd.example.com/api" = .ok ⟨"https", "", "", some "lcd.example.com",
      none, .segments ["api", ""], none, none⟩ := by
    decide +kernel
  have he : encode inPathSet "cosmos1abc".toList = "cosmos1abc" := by decide +kernel
  have ha : "cosmos1abc".toList.all Char.isAlphanum = true := by decide
  obtain ⟨text, ht, -⟩ | ⟨url, hu, -, -, -, -, -, hc, -⟩ := balancesUrl_confined_iff "cosmos1abc" hb
  · cases ht
  · rw [he] at hc
    exact ⟨_, url, hb, hu, hc.2 (isSegment_of_isAlphanum (List.all_eq_true.1 ha) _).1⟩

/-- An account that names the place above is asked for outside of the directories of balances. -/
theorem balancesUrl_supply :
    ∃ base url, endpoint "https://lcd.example.com/" = .ok base ∧
      balancesUrl base "../supply" = .ok url ∧ url.target = "/cosmos/bank/v1beta1/supply" ∧
      ∀ segment, ¬IsBalancesOf base segment url := by
  refine ⟨⟨"https", "", "", some "lcd.example.com", none, .segments [""], none, none⟩,
    ⟨"https", "", "", some "lcd.example.com", none,
      .segments ["cosmos", "bank", "v1beta1", "supply"], none, none⟩,
    by decide +kernel, by decide +kernel, by decide +kernel, fun segment h => ?_⟩
  obtain ⟨names, hp, hu⟩ := h.path
  have hn := congrArg List.length (UrlPath.segments.inj hp)
  have hl := congrArg List.length (UrlPath.segments.inj hu)
  simp only [List.length_append, List.length_cons, List.length_nil, balancesPath] at hn hl
  omega

end ChainIndexer.Node
