import Mathlib.Data.String.Basic
import Mathlib.Tactic.IntervalCases

/-!
# Instants as ISO 8601 texts

The proleptic Gregorian calendar, counted in days from the first of January of year one, and the
text of an instant of it in UTC. The order of the texts is the order of the instants.
-/

namespace IsoTime

/-- The last `width` decimal digits of a number, most significant first. -/
def padded : Nat → Nat → List Char
  | 0, _ => []
  | width + 1, n => padded width (n / 10) ++ [Nat.digitChar (n % 10)]

variable {m n day : Nat}

@[simp] theorem length_padded (width n : Nat) : (padded width n).length = width := by
  induction width generalizing n with
  | zero => rfl
  | succ width ih => simp [padded, ih]

theorem digitChar_lt_iff (hm : m < 10) (hn : n < 10) :
    Nat.digitChar m < Nat.digitChar n ↔ m < n := by
  interval_cases m <;> interval_cases n <;> decide

section Lex

variable {α : Type} [LinearOrder α]

theorem append_lt_append_iff {u u' v v' : List α} (h : u.length = u'.length) :
    u ++ v < u' ++ v' ↔ u < u' ∨ (u = u' ∧ v < v') := by
  induction u generalizing u' with
  | nil =>
    obtain rfl : u' = [] := List.length_eq_zero_iff.1 h.symm
    simp
  | cons a u ih =>
    cases u' with
    | nil => cases h
    | cons a' u' =>
      rw [List.cons_append, List.cons_append, List.cons_lt_cons_iff, List.cons_lt_cons_iff,
        ih (Nat.succ.inj h), List.cons.injEq]
      tauto

end Lex

theorem padded_lt_iff {width : Nat} (hm : m < 10 ^ width) (hn : n < 10 ^ width) :
    padded width m < padded width n ↔ m < n := by
  induction width generalizing m n with
  | zero =>
    simp only [Nat.pow_zero] at hm hn
    simp [padded]
    omega
  | succ width ih =>
    rw [Nat.pow_succ] at hm hn
    have hm' : m / 10 < 10 ^ width := by omega
    have hn' : n / 10 < 10 ^ width := by omega
    have heq : padded width (m / 10) = padded width (n / 10) ↔ m / 10 = n / 10 := by
      constructor
      · intro h
        have hle := mt (ih hm' hn').2 (h ▸ lt_irrefl _)
        have hge := mt (ih hn' hm').2 (h ▸ lt_irrefl _)
        omega
      · intro h
        rw [h]
    rw [padded, padded, append_lt_append_iff (by simp), ih hm' hn', heq]
    have hdigit : [Nat.digitChar (m % 10)] < [Nat.digitChar (n % 10)] ↔ m % 10 < n % 10 := by
      rw [List.cons_lt_cons_iff, digitChar_lt_iff (Nat.mod_lt _ (by decide)) (Nat.mod_lt _ (by decide))]
      simp
    rw [hdigit]
    omega

theorem padded_inj {width : Nat} (hm : m < 10 ^ width) (hn : n < 10 ^ width)
    (h : padded width m = padded width n) : m = n := by
  have hle := mt (padded_lt_iff hm hn).2 (h ▸ lt_irrefl _)
  have hge := mt (padded_lt_iff hn hm).2 (h ▸ lt_irrefl _)
  omega

/-- Columns of digits, each with the text that follows it. -/
def columns : List (Nat × List Char) → List Nat → List Char
  | (width, mark) :: layout, n :: values => padded width n ++ (mark ++ columns layout values)
  | _, _ => []

def Fits (layout : List (Nat × List Char)) (values : List Nat) : Prop :=
  List.Forall₂ (fun column n => n < 10 ^ column.1) layout values

theorem length_columns {layout : List (Nat × List Char)} {values values' : List Nat}
    (h : Fits layout values) (h' : Fits layout values') :
    (columns layout values).length = (columns layout values').length := by
  induction h generalizing values' with
  | nil =>
    cases h'
    rfl
  | cons hn _ ih =>
    cases h' with
    | cons hn' hrest' => simp [columns, ih hrest']

theorem columns_lt_iff {layout : List (Nat × List Char)} {values values' : List Nat}
    (h : Fits layout values) (h' : Fits layout values') :
    columns layout values < columns layout values' ↔ values < values' := by
  induction h generalizing values' with
  | nil =>
    cases h'
    simp [columns]
  | @cons column n layout values hn hrest ih =>
    cases h' with
    | @cons _ n' _ values' hn' hrest' =>
      have heq : padded column.1 n = padded column.1 n' ↔ n = n' :=
        ⟨padded_inj hn hn', fun h => by rw [h]⟩
      rw [columns, columns, append_lt_append_iff (by simp), append_lt_append_iff rfl,
        List.cons_lt_cons_iff, padded_lt_iff hn hn', ih hrest', heq]
      simp

def daysBeforeYear (year : Nat) : Nat :=
  (year - 1) * 365 + (year - 1) / 4 - (year - 1) / 100 + (year - 1) / 400

/-- The year of a day, by the cycles of 400, 100, 4 and 1 years. The last day of a leap year is the
one that the shorter cycles leave over. -/
def year (day : Nat) : Nat :=
  let r400 := day % 146097
  let r100 := r400 % 36524
  let r4 := r100 % 1461
  let n100 := r400 / 36524
  let n1 := r4 / 365
  let whole := day / 146097 * 400 + n100 * 100 + r100 / 1461 * 4 + n1
  if n1 = 4 ∨ n100 = 4 then whole else whole + 1

theorem daysBeforeYear_cycles {a b c d : Nat} (hb : b ≤ 3) (hc : c ≤ 24) (hd : d ≤ 3) :
    daysBeforeYear (400 * a + 100 * b + 4 * c + d + 1) = 146097 * a + 36524 * b + 1461 * c + 365 * d := by
  have h4 : (400 * a + 100 * b + 4 * c + d) / 4 = 100 * a + 25 * b + c := by omega
  have h100 : (400 * a + 100 * b + 4 * c + d) / 100 = 4 * a + b := by omega
  have h400 : (400 * a + 100 * b + 4 * c + d) / 400 = a := by omega
  rw [daysBeforeYear, Nat.add_sub_cancel, h4, h100, h400]
  omega

/-- A year of the cycles begins no later than its first day and ends after its last, which is one
later in a leap year. -/
theorem day_lt_daysBeforeYear {a b c d r : Nat} (hb : b ≤ 3) (hc : c ≤ 24) (hd : d ≤ 3)
    (hr : r < 365 ∨ r = 365 ∧ d = 3 ∧ (c < 24 ∨ b = 3)) :
    146097 * a + 36524 * b + 1461 * c + 365 * d + r <
      daysBeforeYear (400 * a + 100 * b + 4 * c + d + 1 + 1) := by
  rcases Nat.lt_or_ge d 3 with hd' | hd'
  · have h := daysBeforeYear_cycles (a := a) hb hc (show d + 1 ≤ 3 by omega)
    rw [show 400 * a + 100 * b + 4 * c + d + 1 + 1 = 400 * a + 100 * b + 4 * c + (d + 1) + 1 by omega, h]
    omega
  · rcases Nat.lt_or_ge c 24 with hc' | hc'
    · have h := daysBeforeYear_cycles (a := a) hb (show c + 1 ≤ 24 by omega) (Nat.zero_le 3)
      rw [show 400 * a + 100 * b + 4 * c + d + 1 + 1 = 400 * a + 100 * b + 4 * (c + 1) + 0 + 1 by omega, h]
      omega
    · rcases Nat.lt_or_ge b 3 with hb' | hb'
      · have h := daysBeforeYear_cycles (a := a) (show b + 1 ≤ 3 by omega) (Nat.zero_le 24) (Nat.zero_le 3)
        rw [show 400 * a + 100 * b + 4 * c + d + 1 + 1 = 400 * a + 100 * (b + 1) + 4 * 0 + 0 + 1 by omega, h]
        omega
      · have h := daysBeforeYear_cycles (a := a + 1) (Nat.zero_le 3) (Nat.zero_le 24) (Nat.zero_le 3)
        rw [show 400 * a + 100 * b + 4 * c + d + 1 + 1 = 400 * (a + 1) + 100 * 0 + 4 * 0 + 0 + 1 by omega, h]
        omega

theorem year_spec (day : Nat) :
    daysBeforeYear (year day) ≤ day ∧ day < daysBeforeYear (year day + 1) := by
  have hyear : ∀ a b c d r : Nat, day / 146097 = a → day % 146097 / 36524 = b →
      day % 146097 % 36524 / 1461 = c → day % 146097 % 36524 % 1461 / 365 = d →
      day % 146097 % 36524 % 1461 % 365 = r →
      daysBeforeYear (year day) ≤ day ∧ day < daysBeforeYear (year day + 1) := by
    intro a b c d r ha hb hc hd hr
    have hday : day = 146097 * a + 36524 * b + 1461 * c + 365 * d + r := by omega
    simp only [year, ha, hb, hc, hd]
    split
    next hlast =>
      rcases hlast with rfl | rfl
      · -- the last day of a leap year within its four years
        have hbounds : b ≤ 3 ∧ c ≤ 23 ∧ r = 0 := by omega
        obtain ⟨hb3, hc23, rfl⟩ := hbounds
        have hle := daysBeforeYear_cycles (a := a) hb3 (show c ≤ 24 by omega) (le_refl 3)
        have hlt := day_lt_daysBeforeYear (a := a) hb3 (show c ≤ 24 by omega) (le_refl 3)
          (show 365 < 365 ∨ 365 = 365 ∧ 3 = 3 ∧ (c < 24 ∨ b = 3) by omega)
        rw [show a * 400 + b * 100 + c * 4 + 4 = 400 * a + 100 * b + 4 * c + 3 + 1 by omega]
        omega
      · -- the last day of four hundred years
        have hbounds : c = 0 ∧ d = 0 ∧ r = 0 := by omega
        obtain ⟨rfl, rfl, rfl⟩ := hbounds
        have hle := daysBeforeYear_cycles (a := a) (le_refl 3) (le_refl 24) (le_refl 3)
        have hlt := day_lt_daysBeforeYear (a := a) (le_refl 3) (le_refl 24) (le_refl 3)
          (show 365 < 365 ∨ 365 = 365 ∧ 3 = 3 ∧ (24 < 24 ∨ 3 = 3) by omega)
        rw [show a * 400 + 4 * 100 + 0 * 4 + 0 = 400 * a + 100 * 3 + 4 * 24 + 3 + 1 by omega]
        omega
    next hfirst =>
      have hbounds : b ≤ 3 ∧ c ≤ 24 ∧ d ≤ 3 ∧ r < 365 := by omega
      obtain ⟨hb3, hc24, hd3, hr365⟩ := hbounds
      have hle := daysBeforeYear_cycles (a := a) hb3 hc24 hd3
      have hlt := day_lt_daysBeforeYear (a := a) hb3 hc24 hd3 (.inl hr365)
      rw [show a * 400 + b * 100 + c * 4 + d + 1 = 400 * a + 100 * b + 4 * c + d + 1 by omega]
      omega
  exact hyear _ _ _ _ _ rfl rfl rfl rfl rfl

theorem daysBeforeYear_mono : Monotone daysBeforeYear := by
  apply monotone_nat_of_le_succ
  intro y
  have hcent : y / 100 ≤ (y - 1) / 100 + 1 := by omega
  have hfour : (y - 1) / 4 ≤ y / 4 := Nat.div_le_div_right (Nat.sub_le y 1)
  have hera : (y - 1) / 400 ≤ y / 400 := Nat.div_le_div_right (Nat.sub_le y 1)
  have hfit : (y - 1) / 100 ≤ (y - 1) * 365 := by omega
  simp only [daysBeforeYear, Nat.add_sub_cancel]
  omega

theorem year_mono (h : m ≤ n) : year m ≤ year n := by
  have hm := (year_spec m).1
  have hn := (year_spec n).2
  by_contra hlt
  have hle := daysBeforeYear_mono (show year n + 1 ≤ year m by omega)
  omega

def isLeap (y : Nat) : Bool := y % 4 == 0 && (y % 100 != 0 || y % 400 == 0)

def monthLengths (y : Nat) : List Nat :=
  [31, if isLeap y then 29 else 28, 31, 30, 31, 30, 31, 31, 30, 31, 30, 31]

/-- The month and the day of the month, from the days since the first of month `month`. -/
def monthDay : List Nat → Nat → Nat → List Nat
  | length :: lengths, month, day =>
    if day < length then [month, day + 1] else monthDay lengths (month + 1) (day - length)
  | [], month, day => [month, day + 1]

theorem lt_monthDay (lengths : List Nat) {month first : Nat} (h : month < first) (rest : List Nat)
    (day : Nat) : month :: rest < monthDay lengths first day := by
  induction lengths generalizing first day with
  | nil => exact List.cons_lt_cons_iff.2 (.inl h)
  | cons length lengths ih =>
    rw [monthDay]
    split
    · exact List.cons_lt_cons_iff.2 (.inl h)
    · exact ih (Nat.lt_succ_of_lt h) _

theorem monthDay_lt (lengths : List Nat) (month : Nat) (h : m < n) :
    monthDay lengths month m < monthDay lengths month n := by
  induction lengths generalizing month m n with
  | nil => simpa [monthDay, List.cons_lt_cons_iff] using h
  | cons length lengths ih =>
    rw [monthDay, monthDay]
    split
    · split
      · simpa [List.cons_lt_cons_iff] using h
      · exact lt_monthDay lengths (Nat.lt_succ_self month) _ _
    · rw [if_neg (by omega)]
      apply ih
      omega

/-- The year, the month and the day of the month of a day. -/
def date (day : Nat) : List Nat :=
  year day :: monthDay (monthLengths (year day)) 1 (day - daysBeforeYear (year day))

theorem date_lt (h : m < n) : date m < date n := by
  rcases Nat.lt_or_ge (year m) (year n) with hlt | hge
  · exact List.cons_lt_cons_iff.2 (.inl hlt)
  · have heq : year m = year n := le_antisymm (year_mono h.le) hge
    have hm := (year_spec m).1
    rw [date, date, heq]
    refine List.cons_lt_cons_iff.2 (.inr ⟨rfl, monthDay_lt _ _ ?_⟩)
    rw [heq] at hm
    omega

theorem monthDay_le {lengths : List Nat} (h : ∀ length ∈ lengths, length ≤ 31) (month : Nat)
    (hday : day ≤ lengths.sum + 30) :
    ∃ m d, monthDay lengths month day = [m, d] ∧ m ≤ month + lengths.length ∧ d ≤ 31 := by
  induction lengths generalizing month day with
  | nil =>
    rw [List.sum_nil] at hday
    exact ⟨month, day + 1, rfl, le_rfl, by omega⟩
  | cons length lengths ih =>
    rw [monthDay]
    split
    · have hlength := h length (by simp)
      exact ⟨month, day + 1, rfl, by omega, by omega⟩
    · rw [List.sum_cons] at hday
      have hrest : day - length ≤ lengths.sum + 30 := by omega
      obtain ⟨m, d, heq, hm, hd⟩ := ih (fun length hmem => h length (by simp [hmem])) (month + 1) hrest
      exact ⟨m, d, heq, by simp only [List.length_cons]; omega, hd⟩

theorem daysBeforeYear_succ_le (y : Nat) : daysBeforeYear (y + 1) ≤ daysBeforeYear y + 366 := by
  have hera : ∀ n : Nat, n / 400 = n / 100 / 4 := fun n => (Nat.div_div_eq_div_mul n 100 4).symm
  have hcent : y / 100 ≤ y * 365 := by omega
  have hcent' : (y - 1) / 100 ≤ (y - 1) * 365 := by omega
  have hmono : (y - 1) / 100 ≤ y / 100 := Nat.div_le_div_right (Nat.sub_le y 1)
  have hstep : y / 100 ≤ (y - 1) / 100 + 1 := by omega
  simp only [daysBeforeYear, Nat.add_sub_cancel, hera]
  omega

def lastDay : Nat := 3652059

theorem year_lt (h : day < lastDay) : year day < 10000 := by
  have hyear := (year_spec day).1
  have hlast : daysBeforeYear 10000 = lastDay := by decide
  by_contra hge
  have hle := daysBeforeYear_mono (show 10000 ≤ year day by omega)
  omega

theorem exists_date (h : day < lastDay) :
    ∃ y m d, date day = [y, m, d] ∧ y < 10000 ∧ m < 100 ∧ d < 100 := by
  obtain ⟨hfirst, hlast⟩ := year_spec day
  have hyear := daysBeforeYear_succ_le (year day)
  have hlengths : ∀ length ∈ monthLengths (year day), length ≤ 31 := by
    intro length hmem
    simp only [monthLengths, List.mem_cons, List.not_mem_nil, or_false] at hmem
    split at hmem <;> omega
  have hsum : 365 ≤ (monthLengths (year day)).sum := by
    simp only [monthLengths]
    split <;> decide
  obtain ⟨m, d, heq, hm, hd⟩ := monthDay_le hlengths 1
    (show day - daysBeforeYear (year day) ≤ (monthLengths (year day)).sum + 30 by omega)
  refine ⟨year day, m, d, by rw [date, heq], year_lt h, ?_, by omega⟩
  have hcount : (monthLengths (year day)).length = 12 := rfl
  omega

/-- The fields of an instant, in seconds from the beginning of year one. -/
def fields (second : Nat) : List Nat :=
  date (second / 86400) ++ [second % 86400 / 3600, second % 3600 / 60, second % 60]

def layout : List (Nat × List Char) :=
  [(4, ['-']), (2, ['-']), (2, ['T']), (2, [':']), (2, [':']), (2, [])]

/-- The fraction of the second, left out where it is zero, and the offset from UTC. -/
def fraction (micro : Nat) : List Char :=
  (if micro = 0 then [] else '.' :: padded 6 micro) ++ ['+', '0', '0', ':', '0', '0']

/-- The text of an instant, in microseconds from the beginning of year one. -/
def text (t : Nat) : List Char := columns layout (fields (t / 1000000)) ++ fraction (t % 1000000)

theorem fits_fields {second : Nat} (h : second < lastDay * 86400) : Fits layout (fields second) := by
  have hday : second / 86400 < lastDay := by
    rw [lastDay] at h ⊢
    omega
  obtain ⟨y, m, d, hdate, hy, hm, hd⟩ := exists_date hday
  rw [fields, hdate]
  refine .cons hy (.cons hm (.cons hd (.cons ?_ (.cons ?_ (.cons ?_ .nil)))))
  · show second % 86400 / 3600 < 10 ^ 2
    omega
  · show second % 3600 / 60 < 10 ^ 2
    omega
  · show second % 60 < 10 ^ 2
    omega

theorem fields_lt {s s' : Nat} (hs' : s' < lastDay * 86400) (h : s < s') : fields s < fields s' := by
  have hday' : s' / 86400 < lastDay := by
    rw [lastDay] at hs' ⊢
    omega
  obtain ⟨y, m, d, hdate, -⟩ := exists_date (show s / 86400 < lastDay by omega)
  obtain ⟨y', m', d', hdate', -⟩ := exists_date hday'
  rw [fields, fields, append_lt_append_iff (by rw [hdate, hdate']; rfl)]
  rcases Nat.lt_or_ge (s / 86400) (s' / 86400) with hlt | hge
  · exact .inl (date_lt hlt)
  · have heq : s / 86400 = s' / 86400 := by omega
    refine .inr ⟨by rw [heq], ?_⟩
    simp only [List.cons_lt_cons_iff]
    omega

theorem fraction_lt {m' : Nat} (hm' : m' < 1000000) (h : m < m') : fraction m < fraction m' := by
  rw [fraction, fraction, if_neg (show m' ≠ 0 by omega)]
  split
  · -- the sign of the offset comes before the point
    exact List.cons_lt_cons_iff.2 (.inl (by decide))
  · rw [List.cons_append, List.cons_append, List.cons_lt_cons_iff,
      append_lt_append_iff (by simp), padded_lt_iff (by omega) hm']
    exact .inr ⟨rfl, .inl h⟩

theorem text_lt {t t' : Nat} (ht' : t' < lastDay * 86400 * 1000000) (h : t < t') :
    text t < text t' := by
  have hs' : t' / 1000000 < lastDay * 86400 := by omega
  have hfits := fits_fields (show t / 1000000 < lastDay * 86400 by omega)
  rw [text, text, append_lt_append_iff (length_columns hfits (fits_fields hs'))]
  rcases Nat.lt_or_ge (t / 1000000) (t' / 1000000) with hlt | hge
  · exact .inl ((columns_lt_iff hfits (fits_fields hs')).2 (fields_lt hs' hlt))
  · refine .inr ⟨by rw [show t / 1000000 = t' / 1000000 by omega], fraction_lt (by omega) (by omega)⟩

def isoformat (t : Nat) : String := String.ofList (text t)

theorem isoformat_le_iff {t t' : Nat} (ht : t < lastDay * 86400 * 1000000)
    (ht' : t' < lastDay * 86400 * 1000000) : isoformat t ≤ isoformat t' ↔ t ≤ t' := by
  rw [← not_lt, ← not_lt, not_iff_not, String.lt_iff_toList_lt]
  simp only [isoformat, String.toList_ofList]
  constructor
  · intro h
    by_contra hle
    rcases Nat.lt_or_ge t t' with hlt | hge
    · exact lt_asymm h (text_lt ht' hlt)
    · rw [show t = t' by omega] at h
      exact lt_irrefl _ h
  · intro h
    exact text_lt ht h

theorem isoformat_ne_empty (t : Nat) : isoformat t ≠ "" := by
  intro h
  have hlist : text t = [] := by simpa [isoformat] using congrArg String.toList h
  simp [text, fraction] at hlist

example : isoformat 0 = "0001-01-01T00:00:00+00:00" := by decide +kernel

example : isoformat (62135596800000000 + 951827696000001) = "2000-02-29T12:34:56.000001+00:00" := by
  decide +kernel

end IsoTime
