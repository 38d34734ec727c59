import RealmDirectory.Settings

/-!
# What is said of a setting

A source is a list of entries, and of two entries for one setting the later one counts. A setting
that has a default is said nothing of by a table without entries, so the last entry may be passed
over. `Says` and `Silent` are what a search from the end of the list comes to.

The values of variables are texts. A number that is written there in decimal is found as that
number: it has a digit, which neither of the words for a truth value has, and the digits stand for
it again.

## Main results

* `SettingValue.ofVariable_toString` — a number in a variable is found as that number.
* `Settings.said?_eq_some_iff`, `Settings.said?_eq_none_iff` — what a source says of a setting that
  has a default.
-/

namespace RealmDirectory

/-! ## Numbers in variables -/

namespace Decimal

private theorem toList_ofNat (n : Nat) : (toString (Int.ofNat n)).toList = Nat.toDigits 10 n :=
  Nat.toList_repr

private theorem toList_negSucc (n : Nat) :
    (toString (Int.negSucc n)).toList = '-' :: Nat.toDigits 10 (n + 1) := by
  show ("-" ++ Nat.repr (n + 1)).toList = _
  rw [String.toList_append, Nat.toList_repr]
  rfl

private theorem digits?_toDigits (n : Nat) : digits? (Nat.toDigits 10 n) = some n := by
  have hall : (Nat.toDigits 10 n).all Char.isDigit = true := by
    rw [List.all_eq_true]
    exact fun c hc => Nat.isDigit_of_mem_toDigits (by decide) (by decide) hc
  have hempty : (Nat.toDigits 10 n).isEmpty = false :=
    List.isEmpty_eq_false_iff.mpr Nat.toDigits_ne_nil
  have hvalue := Nat.ofDigitChars_ten_toDigits (n := n)
  unfold Nat.ofDigitChars at hvalue
  unfold digits?
  rw [hall, hempty]
  simp only [Nat.mul_comm _ 10, hvalue]
  rfl

/-- A run of digits has no sign in front of it. -/
theorem sign_toDigits (n : Nat) : sign (Nat.toDigits 10 n) = (false, Nat.toDigits 10 n) := by
  have hdigit : ∀ c ∈ Nat.toDigits 10 n, c.isDigit := fun c hc =>
    Nat.isDigit_of_mem_toDigits (by decide) (by decide) hc
  unfold sign
  split
  · rename_i rest heq
    exact absurd (hdigit '-' (heq ▸ List.mem_cons_self)) (by decide)
  · rename_i rest heq
    exact absurd (hdigit '+' (heq ▸ List.mem_cons_self)) (by decide)
  · rfl

/-- A number of 64 bits is read back from its digits and its sign. -/
theorem signedWord?_toString {v : Int}
    (hmin : -9223372036854775808 ≤ v) (hmax : v < 9223372036854775808) :
    signedWord? (toString v) = some v := by
  cases v with
  | ofNat n =>
    have hlt : n < Nat.pow 2 63 := Int.ofNat_lt.mp hmax
    unfold signedWord?
    rw [toList_ofNat, sign_toDigits]
    simp only [digits?_toDigits, Option.bind_eq_bind, Option.bind_some]
    exact if_pos hlt
  | negSucc n =>
    have hle : n + 1 ≤ Nat.pow 2 63 := by
      have hneg := Int.negSucc_eq n
      show n + 1 ≤ 2 ^ 63
      omega
    unfold signedWord?
    rw [toList_negSucc]
    simp only [sign, digits?_toDigits, Option.bind_eq_bind, Option.bind_some]
    exact if_pos hle

end Decimal

namespace SettingValue

/-- A text with a digit in it is neither of the words for a truth value. -/
theorem bool?_eq_none {text : String} {c : Char} (hmem : c ∈ text.toList) (hdigit : c.isDigit) :
    bool? text = none := by
  have hlower : c.toLower = c := by
    unfold Char.toLower
    unfold Char.isDigit at hdigit
    rw [dif_neg]
    rintro ⟨hge, -⟩
    simp only [Bool.and_eq_true, decide_eq_true_eq] at hdigit
    exact absurd (UInt32.le_trans hge hdigit.2) (by decide)
  have hmemLower : c ∈ text.toLower.toList := by
    unfold String.toLower
    rw [String.toList_map, ← hlower]
    exact List.mem_map_of_mem hmem
  have hfound : text.toLower.toList.any Char.isDigit = true :=
    List.any_eq_true.mpr ⟨c, hmemLower, hdigit⟩
  unfold bool?
  split
  · rename_i heq
    rw [heq] at hfound
    exact absurd hfound (by decide)
  · rename_i heq
    rw [heq] at hfound
    exact absurd hfound (by decide)
  · rfl

private theorem exists_digit_toString (v : Int) : ∃ c ∈ (toString v).toList, c.isDigit := by
  obtain ⟨n, hsuffix⟩ : ∃ n, Nat.toDigits 10 n <:+ (toString v).toList := by
    cases v with
    | ofNat n => exact ⟨n, Decimal.toList_ofNat n ▸ List.suffix_rfl⟩
    | negSucc n => exact ⟨n + 1, Decimal.toList_negSucc n ▸ List.suffix_cons _ _⟩
  obtain ⟨c, hmem⟩ := List.exists_mem_of_ne_nil _ (Nat.toDigits_ne_nil (n := n) (b := 10))
  exact ⟨c, hsuffix.mem hmem, Nat.isDigit_of_mem_toDigits (by decide) (by decide) hmem⟩

/-- A number of 64 bits that is written in a variable is found as that number. -/
theorem ofVariable_toString {v : Int}
    (hmin : -9223372036854775808 ≤ v) (hmax : v < 9223372036854775808) :
    ofVariable (toString v) = .whole v := by
  obtain ⟨c, hmem, hdigit⟩ := exists_digit_toString v
  unfold ofVariable
  rw [bool?_eq_none hmem hdigit, Decimal.signedWord?_toString hmin hmax]

end SettingValue

namespace Settings

/-! ## What the sources say -/

/-- A source says nothing of a setting that has a default; a table without entries is nothing. -/
def Silent (source : Source) (key : String) : Prop :=
  ∀ value, (key, value) ∈ source → value = .table false

/-- The last thing that a source says of a setting that has a default. -/
def Says (source : Source) (key : String) (value : SettingValue) : Prop :=
  ∃ before after, source = before ++ (key, value) :: after ∧ value ≠ .table false ∧
    Silent after key

/-- An entry that says something of a setting that has a default. -/
def speaks (key : String) (entry : String × SettingValue) : Bool :=
  entry.1 = key ∧ entry.2 ≠ .table false

/-- Of two entries for a key, the later one counts. -/
theorem said?_eq_find? (source : Source) (key : String) :
    said? source key true = (source.reverse.find? (speaks key)).map (·.2) := by
  have hspeaks : (fun entry : String × SettingValue =>
      decide (entry.1 = key ∧ ¬ (true = true ∧ entry.2 = .table false))) = speaks key := by
    funext entry
    simp only [true_and, speaks, ne_eq]
  rw [← List.getLast?_filter, ← hspeaks]
  rfl

private theorem silent_iff {source : Source} {key : String} :
    Silent source key ↔ ∀ entry ∈ source, speaks key entry = false := by
  unfold Silent speaks
  constructor
  · intro hsilent entry hmem
    rw [decide_eq_false_iff_not]
    rintro ⟨rfl, hne⟩
    exact hne (hsilent entry.2 hmem)
  · intro hquiet value hmem
    refine Decidable.byContradiction fun hne => ?_
    exact of_decide_eq_false (hquiet _ hmem) ⟨rfl, hne⟩

/-- A source has nothing to say of a key exactly if it is silent about it. -/
theorem said?_eq_none_iff {source : Source} {key : String} :
    said? source key true = none ↔ Silent source key := by
  rw [said?_eq_find?, Option.map_eq_none_iff, List.find?_eq_none, silent_iff]
  simp only [List.mem_reverse, Bool.not_eq_true]

/-- What is found is the last thing that the source says. -/
theorem said?_eq_some_iff {source : Source} {key : String} {value : SettingValue} :
    said? source key true = some value ↔ Says source key value := by
  rw [said?_eq_find?, Option.map_eq_some_iff]
  constructor
  · rintro ⟨⟨setting, value⟩, hfind, rfl⟩
    -- The search starts at the end, so the entries it passes over are those behind the one found.
    obtain ⟨hspeaks, after, before, hsource, hafter⟩ := List.find?_eq_some_iff_append.mp hfind
    obtain ⟨rfl, hne⟩ := of_decide_eq_true hspeaks
    have heq : source = before.reverse ++ (setting, value) :: after.reverse := by
      rw [← List.reverse_reverse source, hsource]
      simp only [List.reverse_append, List.reverse_cons, List.append_assoc, List.singleton_append]
    refine ⟨before.reverse, after.reverse, heq, hne, silent_iff.mpr ?_⟩
    intro entry hmem
    exact Bool.not_eq_true' _ ▸ hafter entry (List.mem_reverse.mp hmem)
  · rintro ⟨before, after, rfl, hne, hsilent⟩
    refine ⟨(key, value), List.find?_eq_some_iff_append.mpr ?_, rfl⟩
    refine ⟨decide_eq_true ⟨rfl, hne⟩, after.reverse, before.reverse, ?_, ?_⟩
    · simp only [List.reverse_append, List.reverse_cons, List.append_assoc, List.singleton_append]
    · intro entry hmem
      rw [silent_iff.mp hsilent entry (List.mem_reverse.mp hmem)]
      rfl

/-- A source without entries for a setting says nothing of it, whether or not it has a default. -/
theorem said?_eq_none {source : Source} {key : String} (h : ∀ entry ∈ source, entry.1 ≠ key)
    (hasDefault : Bool) : said? source key hasDefault = none := by
  unfold said?
  rw [Option.map_eq_none_iff, List.getLast?_eq_none_iff, List.filter_eq_nil_iff]
  intro entry hmem hspeaks
  exact h entry hmem (of_decide_eq_true hspeaks).1

end Settings

end RealmDirectory
