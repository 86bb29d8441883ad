import TrickyStore.Model.PatchLevels

/-!
# The values of `security_patch.txt`

A documented value is one of three keywords or a date in one of three formats, where a placeholder may
stand in the place of the year, of the month or of the day.  `resolveDateValue` replaces each placeholder
where it stands, and the digits that remain are read back as the numbers they write.
-/

open Lib

namespace TrickyStore

/-! ## Numerals -/

/-- `n` with `w` digits. -/
def numeral (zeroDigit w n : ℕ) : List Char := (padded w n).map fun d => Char.ofNat (zeroDigit + d)

section Numerals

variable {zeroDigit w n d : ℕ} {c : Char}

theorem digit_ofNat (hz : zeroDigit ∈ zeroDigits) (hd : d < 10) :
    digit (Char.ofNat (zeroDigit + d)) = some d := by
  have hall : ∀ z ∈ zeroDigits, ∀ d < 10, digit (Char.ofNat (z + d)) = some d := by decide +kernel
  exact hall zeroDigit hz d hd

/-- A character that is no sign, no separator and no letter of a placeholder. -/
def isPlain (c : Char) : Bool := foldCase c ∉ ['y', 'm', 'd'] && c ∉ ['-', '+']

theorem isPlain_ofNat (hz : zeroDigit ∈ zeroDigits) (hd : d < 10) :
    isPlain (Char.ofNat (zeroDigit + d)) = true := by
  have hall : ∀ z ∈ zeroDigits, ∀ d < 10, isPlain (Char.ofNat (z + d)) = true := by decide +kernel
  exact hall zeroDigit hz d hd

theorem isPlain_numeral (hz : zeroDigit ∈ zeroDigits) (h : c ∈ numeral zeroDigit w n) : isPlain c = true := by
  obtain ⟨d, hd, rfl⟩ := List.mem_map.1 h
  exact isPlain_ofNat hz (lt_of_mem_padded hd)

theorem length_numeral (h : n < 10 ^ w) : (numeral zeroDigit w n).length = w := by
  rw [numeral, List.length_map, length_padded h]

theorem mapM_digit (hz : zeroDigit ∈ zeroDigits) {ds : List ℕ} (h : ∀ d ∈ ds, d < 10) :
    (ds.map fun d => Char.ofNat (zeroDigit + d)).mapM digit = some ds := by
  induction ds with
  | nil => rfl
  | cons d ds ih =>
    rw [List.map_cons, List.mapM_cons, digit_ofNat hz (h d List.mem_cons_self),
      ih fun e he => h e (List.mem_cons_of_mem d he)]
    rfl

theorem magnitude_numeral (hz : zeroDigit ∈ zeroDigits) (hw : w ≠ 0) (h : n < 10 ^ w) :
    magnitude (numeral zeroDigit w n) = some n := by
  have hne : numeral zeroDigit w n ≠ [] := by
    intro hnil
    have hlen : (numeral zeroDigit w n).length = w := length_numeral h
    rw [hnil] at hlen
    exact hw hlen.symm
  have hread : (numeral zeroDigit w n).mapM digit = some (padded w n) :=
    mapM_digit hz fun d hd => lt_of_mem_padded hd
  rw [magnitude, if_neg hne, hread, Option.map_some, readDigits_padded]

/-- A numeral is read back. -/
theorem toInt_numeral (hz : zeroDigit ∈ zeroDigits) (hw : w ≠ 0) (h : n < 10 ^ w) (hn : n ≤ 2147483647) :
    toInt (numeral zeroDigit w n) = some (n : Int) := by
  have hunsigned {s : List Char} (hs : ∀ c ∈ s, isPlain c = true) (hm : magnitude s = some n) :
      toInt s = some (n : Int) := by
    have hrange : (-2147483648 ≤ (n : Int) && (n : Int) ≤ 2147483647) = true := by
      rw [Bool.and_eq_true, decide_eq_true_eq, decide_eq_true_eq]
      omega
    unfold toInt
    split
    · exact absurd (hs '-' List.mem_cons_self) (by decide)
    · exact absurd (hs '+' List.mem_cons_self) (by decide)
    · rw [hm, Option.map_some]
      exact if_pos hrange
  exact hunsigned (fun c hc => isPlain_numeral hz hc) (magnitude_numeral hz hw h)

theorem format_eq_numeral {i : Int} (h : 0 ≤ i) : format zeroDigit w i = numeral zeroDigit w i.toNat := by
  have habs : i.natAbs = i.toNat := by omega
  rw [format, if_neg (by omega), habs]
  rfl

end Numerals

/-! ## Replacing a placeholder -/

section Replacing

variable {old new pre rest : List Char} {a : Char}

/-- No character of the text is, but for its case, the one that `old` starts with. -/
def Avoids (a : Char) (s : List Char) : Prop := ∀ c ∈ s, foldCase c ≠ foldCase a

theorem replaceFrom_drop (n : ℕ) (s : List Char) :
    replaceFrom old new n s = replaceFrom old new 0 (s.drop n) := by
  induction n generalizing s with
  | zero => rfl
  | succ n ih =>
    cases s with
    | nil => rfl
    | cons c s => exact ih s

theorem replaceFrom_avoiding (h : Avoids a pre) :
    replaceFrom (a :: old) new 0 (pre ++ rest) = pre ++ replaceFrom (a :: old) new 0 rest := by
  induction pre with
  | nil => rfl
  | cons c pre ih =>
    have hc : foldCase c ≠ foldCase a := h c List.mem_cons_self
    have hno : ¬ ((a :: old).map foldCase).isPrefixOf ((c :: (pre ++ rest)).map foldCase) = true := by
      simp [List.isPrefixOf, Ne.symm hc]
    rw [List.cons_append, replaceFrom, if_neg hno, ih fun d hd => h d (List.mem_cons_of_mem c hd)]
    rfl

/-- A text without the placeholder stays. -/
theorem replaceIgnoreCase_avoiding (h : Avoids a pre) : replaceIgnoreCase pre (a :: old) new = pre := by
  have hempty : replaceFrom (a :: old) new 0 [] = [] := rfl
  unfold replaceIgnoreCase
  rw [← List.append_nil pre, replaceFrom_avoiding h, hempty]

/-- The one occurrence of the placeholder is replaced. -/
theorem replaceIgnoreCase_once (hpre : Avoids a pre) (hrest : Avoids a rest) :
    replaceIgnoreCase (pre ++ (a :: old) ++ rest) (a :: old) new = pre ++ new ++ rest := by
  have hhere : ((a :: old).map foldCase).isPrefixOf ((a :: (old ++ rest)).map foldCase) = true := by
    rw [List.isPrefixOf_iff_prefix, ← List.cons_append, List.map_append]
    exact List.prefix_append _ _
  have htail : replaceIgnoreCase rest (a :: old) new = rest := replaceIgnoreCase_avoiding hrest
  unfold replaceIgnoreCase at htail ⊢
  rw [List.append_assoc, replaceFrom_avoiding hpre, List.cons_append, replaceFrom, if_pos hhere,
    replaceFrom_drop, List.length_cons, Nat.add_sub_cancel, List.drop_left, htail, List.append_assoc]

end Replacing

/-! ## Documented values -/

/-- The day of a date, and how the fields are joined: `YYYY-MM-DD`, `YYYYMMDD` or `YYYYMM`.  A field is a
number, or none for its placeholder. -/
inductive DayField where
  | dashed (day : Option (Fin 100))
  | compact (day : Option (Fin 100))
  | absent

inductive PatchValue where
  | no
  | device_default
  | prop
  | date (year : Option (Fin 10000)) (month : Option (Fin 100)) (day : DayField)

/-- A number with `w` digits, or the placeholder of so many letters. -/
def fieldText (letter : Char) (w : ℕ) {bound : ℕ} : Option (Fin bound) → List Char
  | some n => numeral 0x30 w n
  | none => List.replicate w letter

def fieldValue {bound : ℕ} (now : Int) : Option (Fin bound) → Int
  | some n => n.val
  | none => now

namespace DayField

def separator : DayField → List Char
  | dashed _ => ['-']
  | _ => []

def text : DayField → List Char
  | dashed day | compact day => fieldText 'D' 2 day
  | absent => []

/-- The day, or 0 if the format has none. -/
def value (now : Int) : DayField → Int
  | dashed day | compact day => fieldValue now day
  | absent => 0

end DayField

/-- The three fields with their separators. -/
def joined (separator y m d : List Char) : List Char := y ++ (separator ++ (m ++ (separator ++ d)))

/-! ## The security-patch property -/

/-- What the property says: a date `YYYY-MM-DD`, or a text of another form. -/
inductive SecurityPatch where
  | date (year : Fin 10000) (month day : Fin 100)
  | other (text : List Char)

namespace SecurityPatch

def text : SecurityPatch → List Char
  | date year month day => joined ['-'] (numeral 0x30 4 year) (numeral 0x30 2 month) (numeral 0x30 2 day)
  | other text => text

/-- The level of a text that is no date, from what stands between its dashes, each a number or none.  Where
a number is missing it is 202404; a text of two numbers has one level only. -/
def levelOfNumbers (isLong : Bool) : List (Option Int) → Int
  | some year :: some month :: some day :: _ =>
    AndroidUtils.wrap (if isLong then year * 10000 + month * 100 + day else year * 100 + month)
  | some year :: some month :: none :: _ => if isLong then 202404 else AndroidUtils.wrap (year * 100 + month)
  | [some year, some month] => AndroidUtils.wrap (year * 100 + month)
  | _ => 202404

/-- The level of the property: `YYYYMMDD` if it is long, else `YYYYMM`. -/
def level (isLong : Bool) : SecurityPatch → Int
  | date year month day =>
    if isLong then (year.val : Int) * 10000 + month.val * 100 + day.val else (year.val : Int) * 100 + month.val
  | other text => levelOfNumbers isLong ((text.splitOn '-').map toInt)

end SecurityPatch

namespace PatchValue

def text : PatchValue → List Char
  | no => "no".toList
  | device_default => "device_default".toList
  | prop => "prop".toList
  | date year month day => joined day.separator (fieldText 'Y' 4 year) (fieldText 'M' 2 month) day.text

/-- The level that the value stands for on a day and with a security-patch property: `YYYYMMDD` if it is
long, else `YYYYMM`. -/
def level (now : LocalDate) (property : SecurityPatch) (isLong : Bool) : PatchValue → Option Int
  | no => some DO_NOT_REPORT
  | device_default => none
  | prop => some (property.level isLong)
  | date year month day =>
    let y := fieldValue now.year year
    let m := fieldValue now.monthValue month
    let d := day.value now.dayOfMonth
    some (if isLong then y * 10000 + m * 100 + d else y * 100 + m)

/-- The value has the placeholder of the year. -/
def UsesYear : PatchValue → Prop
  | date none _ _ => True
  | _ => False

end PatchValue

/-- The placeholder of the year has room for four digits. -/
def LocalDate.FourDigits (now : LocalDate) : Prop := 0 ≤ now.year ∧ now.year ≤ 9999

/-- A field after its placeholder is replaced. -/
def resolvedField (zeroDigit w : ℕ) (now : Int) {bound : ℕ} : Option (Fin bound) → List Char
  | some n => numeral 0x30 w n
  | none => numeral zeroDigit w now.toNat

section Values

variable {a : Char} {s t : List Char} {zeroDigit w n bound : ℕ} {now : Int} {field : Option (Fin bound)}

theorem ascii : 0x30 ∈ zeroDigits := by decide

theorem avoids_append : Avoids a (s ++ t) ↔ Avoids a s ∧ Avoids a t := List.forall_mem_append

theorem avoids_numeral (hz : zeroDigit ∈ zeroDigits) (ha : foldCase a ∈ ['y', 'm', 'd']) :
    Avoids a (numeral zeroDigit w n) := by
  intro c hc heq
  have hplain := isPlain_numeral hz hc
  unfold isPlain at hplain
  rw [heq] at hplain
  simp [ha] at hplain

theorem avoids_fieldText {letter : Char} (ha : foldCase a ∈ ['y', 'm', 'd'])
    (hne : foldCase letter ≠ foldCase a) : Avoids a (fieldText letter w field) := by
  cases field with
  | some n => exact avoids_numeral ascii ha
  | none =>
    intro c hc
    rwa [List.eq_of_mem_replicate hc]

theorem avoids_resolvedField (hz : zeroDigit ∈ zeroDigits) (ha : foldCase a ∈ ['y', 'm', 'd']) :
    Avoids a (resolvedField zeroDigit w now field) := by
  cases field with
  | some n => exact avoids_numeral ascii ha
  | none => exact avoids_numeral hz ha

theorem avoids_separator (day : DayField) (ha : foldCase a ∈ ['y', 'm', 'd']) : Avoids a day.separator := by
  cases day with
  | dashed =>
    intro c hc heq
    rw [List.mem_singleton.1 hc] at heq
    rw [← heq] at ha
    exact absurd ha (by decide)
  | compact | absent => exact fun c hc => nomatch hc

/-- The placeholder is replaced if the field is one. -/
theorem replace_field {letter : Char} {pre rest : List Char} (hletter : foldCase letter ∈ ['y', 'm', 'd'])
    (hnow : field = none → 0 ≤ now) (hpre : Avoids letter pre) (hrest : Avoids letter rest) :
    replaceIgnoreCase (pre ++ (fieldText letter (w + 1) field ++ rest)) (List.replicate (w + 1) letter)
        (format zeroDigit (w + 1) now) =
      pre ++ (resolvedField zeroDigit (w + 1) now field ++ rest) := by
  rw [List.replicate_succ]
  cases field with
  | some n =>
    have hall : Avoids letter (pre ++ (numeral 0x30 (w + 1) n ++ rest)) :=
      avoids_append.2 ⟨hpre, avoids_append.2 ⟨avoids_numeral ascii hletter, hrest⟩⟩
    exact replaceIgnoreCase_avoiding hall
  | none =>
    rw [format_eq_numeral (hnow rfl), ← List.append_assoc, ← List.append_assoc]
    exact replaceIgnoreCase_once hpre hrest

end Values

/-- The day after its placeholder is replaced. -/
def DayField.resolved (zeroDigit : ℕ) (now : Int) : DayField → List Char
  | dashed day | compact day => resolvedField zeroDigit 2 now day
  | absent => []

section Steps

variable {pre rest : List Char} {zeroDigit : ℕ} {now : Int} {a : Char} {day : DayField}

theorem replace_year {field : Option (Fin 10000)} (hnow : field = none → 0 ≤ now) (hrest : Avoids 'Y' rest) :
    replaceIgnoreCase (fieldText 'Y' 4 field ++ rest) "YYYY".toList (format zeroDigit 4 now) =
      resolvedField zeroDigit 4 now field ++ rest := by
  have hpre : Avoids 'Y' [] := fun c hc => nomatch hc
  exact replace_field (by decide) hnow hpre hrest

theorem replace_month {field : Option (Fin 100)} (hnow : 0 ≤ now) (hpre : Avoids 'M' pre)
    (hrest : Avoids 'M' rest) :
    replaceIgnoreCase (pre ++ (fieldText 'M' 2 field ++ rest)) "MM".toList (format zeroDigit 2 now) =
      pre ++ (resolvedField zeroDigit 2 now field ++ rest) :=
  replace_field (by decide) (fun _ => hnow) hpre hrest

theorem replace_day (hnow : 0 ≤ now) (hpre : Avoids 'D' pre) :
    replaceIgnoreCase (pre ++ day.text) "DD".toList (format zeroDigit 2 now) =
      pre ++ day.resolved zeroDigit now := by
  have hfield (field : Option (Fin 100)) :
      replaceIgnoreCase (pre ++ fieldText 'D' 2 field) "DD".toList (format zeroDigit 2 now) =
        pre ++ resolvedField zeroDigit 2 now field := by
    have hrest : Avoids 'D' [] := fun c hc => nomatch hc
    have hstep : replaceIgnoreCase (pre ++ (fieldText 'D' 2 field ++ [])) "DD".toList (format zeroDigit 2 now) =
        pre ++ (resolvedField zeroDigit 2 now field ++ []) :=
      replace_field (by decide) (fun _ => hnow) hpre hrest
    rwa [List.append_nil, List.append_nil] at hstep
  cases day with
  | dashed field | compact field => exact hfield field
  | absent =>
    rw [DayField.text, DayField.resolved, List.append_nil]
    exact replaceIgnoreCase_avoiding hpre

theorem avoids_dayText (ha : foldCase a ∈ ['y', 'm', 'd']) (hne : foldCase 'D' ≠ foldCase a) :
    Avoids a day.text := by
  cases day with
  | dashed | compact => exact avoids_fieldText ha hne
  | absent => exact fun c hc => nomatch hc

end Steps

namespace AndroidUtils

variable {u : AndroidUtils} {year : Option (Fin 10000)} {month : Option (Fin 100)} {day : DayField}

/-- Each placeholder is replaced where it stands. -/
theorem resolveDateValue_date (hyear : year = none → 0 ≤ u.now.year) :
    u.resolveDateValue (PatchValue.date year month day).text =
      joined day.separator (resolvedField u.zeroDigit 4 u.now.year year)
        (resolvedField u.zeroDigit 2 u.now.monthValue month) (day.resolved u.zeroDigit u.now.dayOfMonth) := by
  have hy : Avoids 'Y' (day.separator ++ (fieldText 'M' 2 month ++ (day.separator ++ day.text))) := by
    refine avoids_append.2 ⟨avoids_separator day (by decide), avoids_append.2 ⟨?_, avoids_append.2 ⟨?_, ?_⟩⟩⟩
    · exact avoids_fieldText (by decide) (by decide)
    · exact avoids_separator day (by decide)
    · exact avoids_dayText (by decide) (by decide)
  have hm : Avoids 'M' (resolvedField u.zeroDigit 4 u.now.year year ++ day.separator) :=
    avoids_append.2 ⟨avoids_resolvedField u.localDigit (by decide), avoids_separator day (by decide)⟩
  have hm' : Avoids 'M' (day.separator ++ day.text) :=
    avoids_append.2 ⟨avoids_separator day (by decide), avoids_dayText (by decide) (by decide)⟩
  have hd : Avoids 'D' (resolvedField u.zeroDigit 4 u.now.year year ++ day.separator ++
      (resolvedField u.zeroDigit 2 u.now.monthValue month ++ day.separator)) := by
    refine avoids_append.2 ⟨avoids_append.2 ⟨?_, ?_⟩, avoids_append.2 ⟨?_, ?_⟩⟩
    · exact avoids_resolvedField u.localDigit (by decide)
    · exact avoids_separator day (by decide)
    · exact avoids_resolvedField u.localDigit (by decide)
    · exact avoids_separator day (by decide)
  unfold resolveDateValue PatchValue.text joined
  simp only
  rw [replace_year hyear hy, ← List.append_assoc, replace_month (by omega) hm hm']
  have hnow : (0 : Int) ≤ u.now.dayOfMonth := by omega
  have hday := @replace_day _ u.zeroDigit _ day hnow hd
  simp only [List.append_assoc] at hday ⊢
  exact hday

end AndroidUtils

/-! ## Reading a date -/

section Reading

variable {zeroDigit w bound : ℕ} {now : Int} {field : Option (Fin bound)} {y m d separator : List Char}

/-- The field is a numeral of the number that it stands for. -/
theorem resolvedField_eq (hz : zeroDigit ∈ zeroDigits)
    (hnow : field = none → 0 ≤ now ∧ now < bound) :
    ∃ z n, z ∈ zeroDigits ∧ n < bound ∧ resolvedField zeroDigit w now field = numeral z w n ∧
      fieldValue now field = n := by
  cases field with
  | some n => exact ⟨0x30, n, ascii, n.2, rfl, rfl⟩
  | none =>
    have hrange := hnow rfl
    exact ⟨zeroDigit, now.toNat, hz, by omega, rfl, (Int.toNat_of_nonneg hrange.1).symm⟩

theorem no_dash_numeral (hz : zeroDigit ∈ zeroDigits) {n : ℕ} :
    (numeral zeroDigit w n).filter (· ≠ '-') = numeral zeroDigit w n := by
  rw [List.filter_eq_self]
  intro c hc
  have hplain := isPlain_numeral hz hc
  apply decide_eq_true
  rintro rfl
  exact absurd hplain (by decide)

theorem filter_joined (hy : y.filter (· ≠ '-') = y) (hm : m.filter (· ≠ '-') = m)
    (hd : d.filter (· ≠ '-') = d) (hs : separator.filter (· ≠ '-') = []) :
    (joined separator y m d).filter (· ≠ '-') = y ++ (m ++ d) := by
  simp only [joined, List.filter_append, hy, hm, hd, hs, List.nil_append]

end Reading

namespace AndroidUtils

variable {u : AndroidUtils} {year : Option (Fin 10000)} {month : Option (Fin 100)} {day : DayField}
  {isLong : Bool} {property : SecurityPatch}

/-- Eight digits are a year, a month and a day. -/
theorem parsePatchLevelValue_day {value y m d : List Char} {yn mn dn : Int}
    (hvalue : value.filter (· ≠ '-') = y ++ (m ++ d)) (hy : y.length = 4) (hm : m.length = 2)
    (hd : d.length = 2) (hyn : toInt y = some yn) (hmn : toInt m = some mn) (hdn : toInt d = some dn) :
    parsePatchLevelValue value isLong =
      some (if isLong then yn * 10000 + mn * 100 + dn else yn * 100 + mn) := by
  have hyear : (y ++ (m ++ d)).take 4 = y := by rw [← hy, List.take_left]
  have hrest : (y ++ (m ++ d)).drop 4 = m ++ d := by rw [← hy, List.drop_left]
  have hmonth : (m ++ d).take 2 = m := by rw [← hm, List.take_left]
  have hday : (y ++ (m ++ d)).drop 6 = d := by
    have hlen : 6 = (y ++ m).length := by rw [List.length_append, hy, hm]
    rw [hlen, ← List.append_assoc, List.drop_left]
  have hday' : d.take 2 = d := by rw [← hd, List.take_length]
  have hlen : (y ++ (m ++ d)).length = 8 := by rw [List.length_append, List.length_append, hy, hm, hd]
  unfold parsePatchLevelValue
  simp only [hvalue, hlen, ↓reduceIte, hyear, hrest, hmonth, hday, hday', hyn, hmn, hdn]
  rfl

/-- Six digits are a year and a month. -/
theorem parsePatchLevelValue_month {value y m : List Char} {yn mn : Int}
    (hvalue : value.filter (· ≠ '-') = y ++ (m ++ [])) (hy : y.length = 4) (hm : m.length = 2)
    (hyn : toInt y = some yn) (hmn : toInt m = some mn) :
    parsePatchLevelValue value isLong = some (if isLong then yn * 10000 + mn * 100 else yn * 100 + mn) := by
  rw [List.append_nil] at hvalue
  have hyear : (y ++ m).take 4 = y := by rw [← hy, List.take_left]
  have hrest : (y ++ m).drop 4 = m := by rw [← hy, List.drop_left]
  have hmonth : m.take 2 = m := by rw [← hm, List.take_length]
  have hlen : (y ++ m).length = 6 := by rw [List.length_append, hy, hm]
  unfold parsePatchLevelValue
  simp only [hvalue, hlen, ↓reduceIte, hyear, hrest, hmonth, hyn, hmn]
  rfl

/-- A date is read as the level it stands for. -/
theorem parse_resolved (hyear : year = none → u.now.FourDigits) :
    parsePatchLevelValue (u.resolveDateValue (PatchValue.date year month day).text) isLong =
      (PatchValue.date year month day).level u.now property isLong := by
  have hmonth := u.now.month_range
  have hday := u.now.day_range
  obtain ⟨zy, yn, hzy, hyn, hytext, hyval⟩ : ∃ z n, z ∈ zeroDigits ∧ n < 10000 ∧
      resolvedField u.zeroDigit 4 u.now.year year = numeral z 4 n ∧ fieldValue u.now.year year = n := by
    apply resolvedField_eq u.localDigit
    intro h
    exact ⟨(hyear h).1, by have := (hyear h).2; omega⟩
  obtain ⟨zm, mn, hzm, hmn, hmtext, hmval⟩ : ∃ z n, z ∈ zeroDigits ∧ n < 100 ∧
      resolvedField u.zeroDigit 2 u.now.monthValue month = numeral z 2 n ∧
        fieldValue u.now.monthValue month = n := by
    apply resolvedField_eq u.localDigit
    omega
  have hy : (numeral zy 4 yn).length = 4 := length_numeral hyn
  have hm : (numeral zm 2 mn).length = 2 := length_numeral hmn
  have hyread : toInt (numeral zy 4 yn) = some (yn : Int) := toInt_numeral hzy (by omega) hyn (by omega)
  have hmread : toInt (numeral zm 2 mn) = some (mn : Int) := toInt_numeral hzm (by omega) hmn (by omega)
  have hwith (field : Option (Fin 100)) (separator : List Char) (hs : separator.filter (· ≠ '-') = []) :
      parsePatchLevelValue (joined separator (numeral zy 4 yn) (numeral zm 2 mn)
          (resolvedField u.zeroDigit 2 u.now.dayOfMonth field)) isLong =
        some (if isLong then (yn : Int) * 10000 + mn * 100 + fieldValue u.now.dayOfMonth field
          else yn * 100 + mn) := by
    obtain ⟨zd, dn, hzd, hdn, hdtext, hdval⟩ : ∃ z n, z ∈ zeroDigits ∧ n < 100 ∧
        resolvedField u.zeroDigit 2 u.now.dayOfMonth field = numeral z 2 n ∧
          fieldValue u.now.dayOfMonth field = n := by
      apply resolvedField_eq u.localDigit
      omega
    rw [hdtext, hdval]
    apply parsePatchLevelValue_day _ hy hm (length_numeral hdn) hyread hmread
    · exact toInt_numeral hzd (by omega) hdn (by omega)
    · exact filter_joined (no_dash_numeral hzy) (no_dash_numeral hzm) (no_dash_numeral hzd) hs
  rw [resolveDateValue_date fun h => (hyear h).1, hytext, hmtext]
  unfold PatchValue.level
  simp only
  rw [hyval, hmval]
  cases day with
  | dashed field => exact hwith field ['-'] rfl
  | compact field => exact hwith field [] rfl
  | absent =>
    have hfilter : (joined [] (numeral zy 4 yn) (numeral zm 2 mn) []).filter (· ≠ '-') =
        numeral zy 4 yn ++ (numeral zm 2 mn ++ []) :=
      filter_joined (no_dash_numeral hzy) (no_dash_numeral hzm) rfl rfl
    rw [DayField.value, add_zero]
    exact parsePatchLevelValue_month hfilter hy hm hyread hmread

theorem wrap_eq {n : Int} (h : 0 ≤ n) (h' : n ≤ 2147483647) : wrap n = n := by
  unfold wrap
  rw [BitVec.toInt_ofInt]
  apply Int.bmod_eq_of_le <;> omega

theorem dash_notMem_numeral {z w n : ℕ} (hz : z ∈ zeroDigits) : '-' ∉ numeral z w n :=
  fun h => absurd (isPlain_numeral hz h) (by decide)

/-- The date of a property is read as the level that it stands for. -/
theorem convertPatchLevel_date {y m d : ℕ} (hy : y < 10 ^ 4) (hm : m < 10 ^ 2) (hd : d < 10 ^ 2) :
    convertPatchLevel (joined ['-'] (numeral 0x30 4 y) (numeral 0x30 2 m) (numeral 0x30 2 d)) isLong =
      if isLong then (y : Int) * 10000 + m * 100 + d else (y : Int) * 100 + m := by
  have hparts : (joined ['-'] (numeral 0x30 4 y) (numeral 0x30 2 m) (numeral 0x30 2 d)).splitOn '-' =
      [numeral 0x30 4 y, numeral 0x30 2 m, numeral 0x30 2 d] := by
    unfold joined
    simp only [List.singleton_append, List.splitOn_append_cons_self,
      List.splitOn_eq_singleton (dash_notMem_numeral ascii)]
  have hyear : toInt (numeral 0x30 4 y) = some (y : Int) := toInt_numeral ascii (by omega) hy (by omega)
  have hmonth : toInt (numeral 0x30 2 m) = some (m : Int) := toInt_numeral ascii (by omega) hm (by omega)
  have hday : toInt (numeral 0x30 2 d) = some (d : Int) := toInt_numeral ascii (by omega) hd (by omega)
  unfold convertPatchLevel
  simp only [hparts]
  cases isLong with
  | true =>
    change (do
      let year ← toInt (numeral 0x30 4 y)
      let month ← toInt (numeral 0x30 2 m)
      let day ← toInt (numeral 0x30 2 d)
      return wrap (year * 10000 + month * 100 + day) : Option Int).getD 202404 = _
    rw [hyear, hmonth, hday]
    exact wrap_eq (by omega) (by omega)
  | false =>
    change (do
      let year ← toInt (numeral 0x30 4 y)
      let month ← toInt (numeral 0x30 2 m)
      return wrap (year * 100 + month) : Option Int).getD 202404 = _
    rw [hyear, hmonth]
    exact wrap_eq (by omega) (by omega)

/-- Another text is read number by number. -/
theorem convertPatchLevel_other (text : List Char) :
    convertPatchLevel text isLong = SecurityPatch.levelOfNumbers isLong ((text.splitOn '-').map toInt) := by
  unfold convertPatchLevel
  generalize text.splitOn '-' = parts
  rcases parts with _ | ⟨y, _ | ⟨m, _ | ⟨d, rest⟩⟩⟩
  · cases isLong <;> rfl
  · cases isLong <;> cases h : toInt y <;> simp [SecurityPatch.levelOfNumbers, h]
  · cases isLong <;> cases h : toInt y <;> cases h' : toInt m <;> simp [SecurityPatch.levelOfNumbers, h, h']
  · cases isLong <;> cases h : toInt y <;> cases h' : toInt m <;> cases h'' : toInt d <;>
      simp [SecurityPatch.levelOfNumbers, h, h', h'']

theorem convertPatchLevel_text (property : SecurityPatch) :
    convertPatchLevel property.text isLong = property.level isLong := by
  cases property with
  | date year month day => exact convertPatchLevel_date year.2 month.2 day.2
  | other text => exact convertPatchLevel_other text

/-! ## Reading a value -/

/-- What `getCustomPatchLevel` makes of the text it finds. -/
def readValue (u : AndroidUtils) (isLong : Bool) (value : List Char) : Option Int :=
  if equalsIgnoreCase value "prop".toList then some (convertPatchLevel u.SECURITY_PATCH isLong)
  else if equalsIgnoreCase value "no".toList then some DO_NOT_REPORT
  else if equalsIgnoreCase value "device_default".toList then none
  else parsePatchLevelValue (u.resolveDateValue value) isLong

theorem length_fieldText {letter : Char} {w bound : ℕ} {field : Option (Fin bound)} (h : bound ≤ 10 ^ w) :
    (fieldText letter w field).length = w := by
  cases field with
  | some n => exact length_numeral (lt_of_lt_of_le n.2 h)
  | none => exact List.length_replicate

theorem length_date : (PatchValue.date year month day).text.length ∈ [6, 8, 10] := by
  have hy : (fieldText 'Y' 4 year).length = 4 := length_fieldText (by decide)
  have hm : (fieldText 'M' 2 month).length = 2 := length_fieldText (by decide)
  have hd (field : Option (Fin 100)) : (fieldText 'D' 2 field).length = 2 := length_fieldText (by decide)
  have hall : (PatchValue.date year month day).text.length =
      4 + (day.separator.length + (2 + (day.separator.length + day.text.length))) := by
    change (joined _ _ _ _).length = _
    unfold joined
    simp only [List.length_append, hy, hm]
  rw [hall]
  cases day with
  | dashed field =>
    rw [DayField.text, hd]
    simp [DayField.separator]
  | compact field =>
    rw [DayField.text, hd]
    simp [DayField.separator]
  | absent => simp [DayField.separator, DayField.text]

theorem not_equalsIgnoreCase {s t : List Char} (h : s.length ≠ t.length) : equalsIgnoreCase s t = false := by
  apply decide_eq_false
  intro heq
  apply h
  have := congrArg List.length heq
  rwa [List.length_map, List.length_map] at this

/-- A documented value is read as the level it stands for. -/
theorem readValue_text {v : PatchValue} (hproperty : u.SECURITY_PATCH = property.text)
    (h : v.UsesYear → u.now.FourDigits) : u.readValue isLong v.text = v.level u.now property isLong := by
  cases v with
  | no => exact (if_neg (by decide)).trans (if_pos (by decide))
  | device_default => exact (if_neg (by decide)).trans ((if_neg (by decide)).trans (if_pos (by decide)))
  | prop =>
    rw [readValue, if_pos (by decide), hproperty, convertPatchLevel_text]
    rfl
  | date year month day =>
    have hlen := @length_date year month day
    have hkeyword {t : List Char} (ht : t.length ∉ [6, 8, 10]) :
        equalsIgnoreCase (PatchValue.date year month day).text t = false := by
      apply not_equalsIgnoreCase
      intro heq
      rw [heq] at hlen
      exact ht hlen
    have hyear : year = none → u.now.FourDigits := by
      rintro rfl
      exact h trivial
    unfold readValue
    rw [hkeyword (by decide), hkeyword (by decide), hkeyword (by decide)]
    exact parse_resolved hyear

end AndroidUtils

end TrickyStore
