import NextInfra.Lib.Separated
import NextInfra.Query.CivilDays
import NextInfra.Query.Paging

/-!
# Timestamps written and read back

A written instant is a date, a clock time and a fraction, each part in digits.
`parse_timestamp` reads it as the instant it names, and `format_timestamp` writes one. Of
the texts without a sign it takes no others but plain numbers of milliseconds.
-/

namespace NextInfra

open Calendar Sql

/-! ## §1  Numerals -/

/-- A text of digits. -/
structure Numeral where
  text : List Char
  nonempty : text ≠ []
  digits : ∀ c ∈ text, c.isDigit = true

namespace Numeral

def value (n : Numeral) : Nat := Nat.ofDigitChars 10 n.text 0

theorem not_mem (n : Numeral) {c : Char} (hc : c.isDigit = false) : c ∉ n.text := by
  intro hmem
  rw [n.digits c hmem] at hc
  cases hc

/-- A numeral is read as its value, when that is an `i64`. -/
theorem parseI64_text (n : Numeral) :
    parseI64 n.text = if n.value ≤ maxI64 then some (n.value : Int) else none := by
  unfold parseI64
  rw [splitSign_digits n.digits]
  simp only
  rw [if_neg]
  · rfl
  · rintro (hnil | hany)
    · exact n.nonempty hnil
    · rw [List.any_eq_true] at hany
      obtain ⟨c, hc, hbad⟩ := hany
      rw [n.digits c hc] at hbad
      cases hbad

/-- Without a sign there is nothing but a numeral that is read as a number. -/
theorem of_parseI64 {text : List Char} {value : Int} (hplus : '+' ∉ text)
    (hminus : text.head? ≠ some '-') (h : parseI64 text = some value) :
    ∃ n : Numeral, n.text = text ∧ (n.value : Int) = value ∧ n.value ≤ maxI64 := by
  have hsign : splitSign text = (false, text) := by
    unfold splitSign
    split
    · exact absurd rfl hminus
    · exact absurd List.mem_cons_self hplus
    · rfl
  unfold parseI64 at h
  rw [hsign] at h
  simp only at h
  split at h
  · cases h
  rename_i hdigits
  rw [not_or, Bool.not_eq_true, List.any_eq_false] at hdigits
  let n : Numeral :=
    ⟨text, hdigits.1, fun c hc => by simpa using hdigits.2 c hc⟩
  have hn : parseI64 n.text = some value := by
    unfold parseI64
    rw [show n.text = text from rfl, hsign]
    simp only
    rw [if_neg]
    · exact h
    · rw [not_or, Bool.not_eq_true, List.any_eq_false]
      exact hdigits
  rw [parseI64_text] at hn
  split at hn
  · exact ⟨n, rfl, Option.some.inj hn, ‹_›⟩
  · cases hn

end Numeral

/-! ## §2  Reading an instant -/

/-- A date and a time of day as `format_timestamp` writes them, up to leading zeros. The
fraction is optional. -/
structure WrittenInstant where
  year : Numeral
  month : Numeral
  day : Numeral
  hour : Numeral
  minute : Numeral
  second : Numeral
  fraction : Option (List Char)
  month_in : 1 ≤ (month.value : Int) ∧ (month.value : Int) ≤ 12
  day_in : 1 ≤ (day.value : Int) ∧ (day.value : Int) ≤ monthLength year.value month.value
  clock_in : hour.value ≤ 23 ∧ minute.value ≤ 59 ∧ second.value ≤ 59
  fraction_in : ∀ digits ∈ fraction, digits.length ≤ 3 ∧ ∀ c ∈ digits, c.isDigit = true

namespace WrittenInstant

def date (w : WrittenInstant) : Date where
  year := w.year.value
  month := w.month.value
  day := w.day.value
  month_in := w.month_in
  day_in := w.day_in

/-- The digits of the fraction, filled up to thousandths. -/
def fractionMillis (w : WrittenInstant) : Nat :=
  let digits := w.fraction.getD []
  Nat.ofDigitChars 10 digits 0 * 10 ^ (3 - digits.length)

/-- The instant it names. -/
def millis (w : WrittenInstant) : Int :=
  w.date.number * 86400000 + w.hour.value * 3600000 + w.minute.value * 60000 +
    w.second.value * 1000 + w.fractionMillis

def dateText (w : WrittenInstant) : List Char :=
  w.year.text ++ '-' :: (w.month.text ++ '-' :: w.day.text)

def clockText (w : WrittenInstant) : List Char :=
  w.hour.text ++ ':' :: (w.minute.text ++ ':' :: w.second.text)

def timeText (w : WrittenInstant) : List Char :=
  match w.fraction with
  | none => w.clockText
  | some digits => w.clockText ++ '.' :: digits

def text (w : WrittenInstant) : List Char := w.dateText ++ 'T' :: (w.timeText ++ ['Z'])

end WrittenInstant

theorem of_splitOnce {sep : Char} : ∀ {text : List Char} {parts : List Char × List Char},
    splitOnce sep text = some parts → text = parts.1 ++ sep :: parts.2
  | [], _, h => by cases h
  | c :: text, parts, h => by
      unfold splitOnce at h
      split at h
      · rename_i hc
        cases h
        rw [hc]
        rfl
      · obtain ⟨rest, hrest, rfl⟩ := Option.map_eq_some_iff.mp h
        rw [of_splitOnce hrest]
        rfl

theorem not_mem_of_splitOnce {sep : Char} : ∀ {text : List Char} {parts : List Char × List Char},
    splitOnce sep text = some parts → sep ∉ parts.1
  | [], _, h => by cases h
  | c :: text, parts, h => by
      unfold splitOnce at h
      split at h
      · cases h
        exact List.not_mem_nil
      · rename_i hc
        obtain ⟨rest, hrest, rfl⟩ := Option.map_eq_some_iff.mp h
        rw [List.mem_cons, not_or]
        exact ⟨Ne.symm hc, not_mem_of_splitOnce hrest⟩

theorem splitOnce_none {sep : Char} : ∀ {text : List Char},
    splitOnce sep text = none ↔ sep ∉ text
  | [] => by simp [splitOnce]
  | c :: text => by
      unfold splitOnce
      split
      · rename_i hc
        simp [hc]
      · rename_i hc
        rw [Option.map_eq_none_iff, splitOnce_none, List.mem_cons, not_or]
        exact ⟨fun h => ⟨Ne.symm hc, h⟩, fun h => h.2⟩

theorem ofDigitChars_lt {digits : List Char} (h : ∀ c ∈ digits, c.isDigit = true) :
    Nat.ofDigitChars 10 digits 0 < 10 ^ digits.length := by
  induction digits using List.reverseRecOn with
  | nil => simp
  | append_singleton digits c ih =>
      have hrest := ih fun x hx => h x (List.mem_append_left _ hx)
      have hc : c.toNat - '0'.toNat < 10 := by
        have hdigit := h c (by simp)
        simp only [Char.isDigit, Bool.and_eq_true, decide_eq_true_eq] at hdigit
        obtain ⟨_, hle⟩ := hdigit
        have : c.toNat ≤ 57 := hle
        have : '0'.toNat = 48 := rfl
        omega
      rw [Nat.ofDigitChars_append, Nat.ofDigitChars_cons, Nat.ofDigitChars_nil, List.length_append,
        List.length_singleton, Nat.pow_succ]
      omega

namespace WrittenInstant

theorem fraction_digits (w : WrittenInstant) :
    (w.fraction.getD []).length ≤ 3 ∧ ∀ c ∈ w.fraction.getD [], c.isDigit = true := by
  cases h : w.fraction with
  | none => simp
  | some digits => exact w.fraction_in digits h

theorem fractionMillis_lt (w : WrittenInstant) : w.fractionMillis < 1000 := by
  obtain ⟨hlength, hdigits⟩ := w.fraction_digits
  have hvalue := ofDigitChars_lt hdigits
  calc w.fractionMillis
      < 10 ^ (w.fraction.getD []).length * 10 ^ (3 - (w.fraction.getD []).length) :=
        Nat.mul_lt_mul_of_pos_right hvalue (by positivity)
    _ = 1000 := by
        rw [← Nat.pow_add, Nat.add_sub_cancel' hlength]

/-- What stands before the fraction, and its digits. -/
theorem splitOnce_timeText (w : WrittenInstant) :
    (splitOnce '.' w.timeText).getD (w.timeText, []) = (w.clockText, w.fraction.getD []) := by
  have hclock : '.' ∉ w.clockText := by
    unfold clockText
    simp [w.hour.not_mem, w.minute.not_mem, w.second.not_mem]
  unfold timeText
  cases w.fraction with
  | none =>
      rw [splitOnce_none.mpr hclock]
      rfl
  | some digits =>
      rw [splitOnce_append hclock]
      rfl

theorem fractionMillis_eq (w : WrittenInstant) :
    NextInfra.fractionMillis (w.fraction.getD []) = some (w.fractionMillis : Int) := by
  obtain ⟨hlength, hdigits⟩ := w.fraction_digits
  unfold NextInfra.fractionMillis WrittenInstant.fractionMillis
  generalize w.fraction.getD [] = digits at hlength hdigits ⊢
  by_cases hempty : digits = []
  · subst hempty
    rfl
  · let n : Numeral := ⟨digits, hempty, hdigits⟩
    have hvalue : n.value < 10 ^ digits.length := ofDigitChars_lt hdigits
    have hsmall : n.value ≤ maxI64 := by
      have : 10 ^ digits.length ≤ 10 ^ 3 := Nat.pow_le_pow_right (by decide) hlength
      unfold maxI64
      omega
    have hparsed : parseI64 digits = some (n.value : Int) :=
      n.parseI64_text.trans (if_pos hsmall)
    rw [if_neg hempty, if_neg, hparsed]
    · simp [n, Numeral.value]
    · rw [not_or, Bool.not_eq_true, List.any_eq_false]
      exact ⟨by omega, fun c hc => by simp [hdigits c hc]⟩

end WrittenInstant

/-- Three numerals between separators are read one by one. -/
theorem threeNumbers_numerals {sep : Char} (hsep : sep.isDigit = false) {a b c : Numeral}
    (ha : a.value ≤ maxI64) (hb : b.value ≤ maxI64) (hc : c.value ≤ maxI64) :
    threeNumbers sep (a.text ++ sep :: (b.text ++ sep :: c.text)) =
      some ((a.value : Int), (b.value : Int), (c.value : Int)) := by
  unfold threeNumbers
  rw [List.splitOn_append_cons_self_of_not_mem (a.not_mem hsep),
    List.splitOn_append_cons_self_of_not_mem (b.not_mem hsep),
    List.splitOn_eq_singleton (c.not_mem hsep)]
  simp only [Numeral.parseI64_text, if_pos ha, if_pos hb, if_pos hc]
  rfl

/-- Three numbers are read from three fields that do not contain the separator. -/
theorem of_threeNumbers {sep : Char} {text : List Char} {a b c : Int}
    (h : threeNumbers sep text = some (a, b, c)) :
    ∃ x y z : List Char, text = x ++ sep :: (y ++ sep :: z) ∧ (sep ∉ x ∧ sep ∉ y ∧ sep ∉ z) ∧
      parseI64 x = some a ∧ parseI64 y = some b ∧ parseI64 z = some c := by
  unfold threeNumbers at h
  split at h
  · rename_i x y z hfields
    obtain ⟨a', ha, h⟩ := Option.bind_eq_some_iff.mp h
    obtain ⟨b', hb, h⟩ := Option.bind_eq_some_iff.mp h
    obtain ⟨c', hc, h⟩ := Option.bind_eq_some_iff.mp h
    cases h
    refine ⟨x, y, z, ?_, ?_, ha, hb, hc⟩
    · have hjoin : [sep].intercalate (text.splitOn sep) = text := List.intercalate_splitOn sep
      rw [hfields] at hjoin
      rw [← hjoin]
      show Separated.join sep [x, y, z] = _
      rw [Separated.join_cons_cons, Separated.join_cons_cons, Separated.join_singleton]
    · have hfree : ∀ f ∈ [x, y, z], sep ∉ f := fun f hf =>
        Separated.free_of_mem_splitOn (hfields ▸ hf)
      exact ⟨hfree x (by simp), hfree y (by simp), hfree z (by simp)⟩
  · cases h

/-- The parts of an instant added up, as long as the sum is an `i64`. -/
def instantSum (days hour minute second fraction : Int) : Option Int := do
  let value ← checkedI64 (days * 86400000)
  let value ← checkedI64 (value + wrapI64 (hour * 3600000))
  let value ← checkedI64 (value + wrapI64 (minute * 60000))
  let value ← checkedI64 (value + wrapI64 (second * 1000))
  let value ← checkedI64 (value + fraction)
  if 0 ≤ value then some value else none

/-- What is left of `instantMillis` when the date is read and the fraction cut off. -/
theorem instantMillis_of {date time clock fraction : List Char} {year month day : Int}
    (hdate : threeNumbers '-' date = some (year, month, day))
    (htime : (splitOnce '.' time).getD (time, []) = (clock, fraction)) :
    instantMillis date time =
      if ¬ (1 ≤ month ∧ month ≤ 12) ∨ day = 0 then none
      else (threeNumbers ':' clock).bind fun (hour, minute, second) =>
        if 23 < hour ∨ 59 < minute ∨ 59 < second then none
        else (fractionMillis fraction).bind fun fraction =>
          (daysFromCivil year month day).bind fun days =>
            instantSum days hour minute second fraction := by
  unfold instantMillis
  rw [hdate]
  cases hsplit : splitOnce '.' time with
  | none =>
      rw [hsplit] at htime
      cases htime
      rfl
  | some parts =>
      rw [hsplit] at htime
      cases htime
      rfl

/-- Of a time of day and a fraction, the sum is an instant if it is one. -/
theorem instantSum_eq_some_iff {days hour minute second fraction millis : Int}
    (hhour : 0 ≤ hour ∧ hour ≤ 23) (hminute : 0 ≤ minute ∧ minute ≤ 59)
    (hrest : 0 ≤ second ∧ second ≤ 59 ∧ 0 ≤ fraction ∧ fraction < 1000) :
    instantSum days hour minute second fraction = some millis ↔
      millis = days * 86400000 + hour * 3600000 + minute * 60000 + second * 1000 + fraction ∧
        0 ≤ millis ∧ millis ≤ maxI64 := by
  unfold instantSum
  rw [wrapI64_of_mem (by omega) (by omega), wrapI64_of_mem (by omega) (by omega),
    wrapI64_of_mem (by omega) (by omega)]
  unfold maxI64
  constructor
  · intro h
    obtain ⟨date, hdate, h⟩ := Option.bind_eq_some_iff.mp h
    obtain ⟨hours, hhours, h⟩ := Option.bind_eq_some_iff.mp h
    obtain ⟨minutes, hminutes, h⟩ := Option.bind_eq_some_iff.mp h
    obtain ⟨seconds, hseconds, h⟩ := Option.bind_eq_some_iff.mp h
    obtain ⟨sum, hsum, h⟩ := Option.bind_eq_some_iff.mp h
    rw [checkedI64_eq_some_iff] at hdate hhours hminutes hseconds hsum
    split at h
    · cases h
      omega
    · cases h
  · rintro ⟨hmillis, hlow, hhigh⟩
    rw [checkedI64_of_mem (by omega) (by omega)]
    show (checkedI64 _).bind _ = _
    rw [checkedI64_of_mem (by omega) (by omega), Option.bind_some]
    show (checkedI64 _).bind _ = _
    rw [checkedI64_of_mem (by omega) (by omega), Option.bind_some]
    show (checkedI64 _).bind _ = _
    rw [checkedI64_of_mem (by omega) (by omega), Option.bind_some]
    show (checkedI64 _).bind _ = _
    rw [checkedI64_of_mem (by omega) (by omega), Option.bind_some, if_pos (by omega), hmillis]

namespace WrittenInstant

/-- The years of timestamps are far from the bounds of the arithmetic. -/
theorem year_le (w : WrittenInstant) (h : w.millis ≤ maxI64) : (w.year.value : Int) ≤ 10 ^ 12 := by
  have hnumber := w.date.number_eq
  have hbounds := w.date.inEra.dayOfEra_bounds
  have hmarch : w.date.year ≤ w.date.marchYear + 1 := by
    unfold Date.marchYear
    split <;> omega
  have hdate : w.date.year = w.year.value := rfl
  unfold millis at h
  unfold maxI64 at h
  omega

theorem instantMillis_eq (w : WrittenInstant) (h : 0 ≤ w.millis) (h' : w.millis ≤ maxI64) :
    instantMillis w.dateText w.timeText = some w.millis := by
  have hyear := w.year_le h'
  have hmonth := w.month_in
  have hday := w.day_in
  have hlength : monthLength w.year.value w.month.value ≤ 31 := by
    unfold monthLength
    repeat' split
    all_goals omega
  obtain ⟨hhour, hminute, hsecond⟩ := w.clock_in
  have hfraction := w.fractionMillis_lt
  have hdate : threeNumbers '-' w.dateText =
      some ((w.year.value : Int), (w.month.value : Int), (w.day.value : Int)) :=
    threeNumbers_numerals (by decide) (by unfold maxI64; omega) (by unfold maxI64; omega)
      (by unfold maxI64; omega)
  have hclock : threeNumbers ':' w.clockText =
      some ((w.hour.value : Int), (w.minute.value : Int), (w.second.value : Int)) :=
    threeNumbers_numerals (by decide) (by unfold maxI64; omega) (by unfold maxI64; omega)
      (by unfold maxI64; omega)
  have hdays : daysFromCivil w.year.value w.month.value w.day.value = some w.date.number :=
    daysFromCivil_date w.date (by show (0 : Int) ≤ w.year.value; omega) hyear
  have hmillis : w.millis = w.date.number * 86400000 + w.hour.value * 3600000 +
    w.minute.value * 60000 + w.second.value * 1000 + w.fractionMillis := rfl
  unfold maxI64 at h'
  rw [instantMillis_of hdate w.splitOnce_timeText, if_neg (by omega), hclock, Option.bind_some]
  show (if _ then _ else _) = _
  rw [if_neg (by omega), w.fractionMillis_eq, Option.bind_some, hdays, Option.bind_some]
  exact (instantSum_eq_some_iff (by omega) (by omega) (by omega)).mpr ⟨hmillis, h, h'⟩

end WrittenInstant

theorem fractionMillis_digits {fraction : List Char} {millis : Int}
    (h : fractionMillis fraction = some millis) :
    fraction.length ≤ 3 ∧ ∀ c ∈ fraction, c.isDigit = true := by
  unfold fractionMillis at h
  split at h
  · rename_i hempty
    subst hempty
    simp
  · split at h
    · cases h
    · rename_i hdigits
      rw [not_or, Bool.not_eq_true, List.any_eq_false] at hdigits
      exact ⟨by omega, fun c hc => by simpa using hdigits.2 c hc⟩

/-- Of parts without a sign, only those of a written instant are read. -/
theorem WrittenInstant.of_instantMillis {date time : List Char} {millis : Int}
    (hdatePlus : '+' ∉ date) (htimePlus : '+' ∉ time) (htimeMinus : '-' ∉ time)
    (h : instantMillis date time = some millis) :
    ∃ w : WrittenInstant, w.dateText = date ∧ w.timeText = time ∧ w.millis = millis ∧
      0 ≤ millis ∧ millis ≤ maxI64 := by
  have hhead : ∀ {field : List Char}, '-' ∉ field → field.head? ≠ some '-' := fun hfield hfirst =>
    hfield (List.mem_of_mem_head? hfirst)
  cases hdate : threeNumbers '-' date with
  | none =>
      unfold instantMillis at h
      rw [hdate] at h
      cases h
  | some numbers =>
      obtain ⟨year, month, day⟩ := numbers
      obtain ⟨⟨clock, fraction⟩, htime⟩ :
          ∃ parts, (splitOnce '.' time).getD (time, []) = parts := ⟨_, rfl⟩
      have hclockMem : ∀ c ∈ clock, c ∈ time := by
        intro c hc
        cases hsplit : splitOnce '.' time with
        | none =>
            rw [hsplit] at htime
            cases htime
            exact hc
        | some parts =>
            rw [hsplit] at htime
            cases htime
            rw [of_splitOnce hsplit]
            exact List.mem_append_left _ hc
      rw [instantMillis_of hdate htime] at h
      split at h
      · cases h
      rename_i hmonth
      obtain ⟨⟨hour, minute, second⟩, hclock, h⟩ := Option.bind_eq_some_iff.mp h
      replace h : (if 23 < hour ∨ 59 < minute ∨ 59 < second then none else _) = some millis := h
      split at h
      · cases h
      rename_i hbounds
      obtain ⟨thousandths, hfraction, h⟩ := Option.bind_eq_some_iff.mp h
      obtain ⟨days, hdays, h⟩ := Option.bind_eq_some_iff.mp h
      obtain ⟨x, y, z, rfl, ⟨hx, hy, hz⟩, hyear, hmonth', hday⟩ := of_threeNumbers hdate
      obtain ⟨u, v, w, hclockText, _, hhour, hminute, hsecond⟩ := of_threeNumbers hclock
      simp only [List.mem_append, List.mem_cons, not_or] at hdatePlus
      obtain ⟨hxPlus, _, hyPlus, _, hzPlus⟩ := hdatePlus
      have hclockFree : ∀ c ∈ u ++ ':' :: (v ++ ':' :: w), c ≠ '+' ∧ c ≠ '-' := by
        intro c hc
        rw [← hclockText] at hc
        exact ⟨fun e => htimePlus (e ▸ hclockMem c hc), fun e => htimeMinus (e ▸ hclockMem c hc)⟩
      have hfree : ∀ {field : List Char}, (∀ c ∈ field, c ∈ u ++ ':' :: (v ++ ':' :: w)) →
          '+' ∉ field ∧ field.head? ≠ some '-' := fun hmem =>
        ⟨fun hin => (hclockFree _ (hmem _ hin)).1 rfl,
          hhead fun hin => (hclockFree _ (hmem _ hin)).2 rfl⟩
      have hu := @hfree u (by simp +contextual)
      have hv := @hfree v (by simp +contextual)
      have hw := @hfree w (by simp +contextual)
      obtain ⟨yearN, rfl, rfl, hyearMax⟩ := Numeral.of_parseI64 hxPlus (hhead hx) hyear
      obtain ⟨monthN, rfl, rfl, _⟩ := Numeral.of_parseI64 hyPlus (hhead hy) hmonth'
      obtain ⟨dayN, rfl, rfl, _⟩ := Numeral.of_parseI64 hzPlus (hhead hz) hday
      obtain ⟨hourN, rfl, rfl, _⟩ := Numeral.of_parseI64 hu.1 hu.2 hhour
      obtain ⟨minuteN, rfl, rfl, _⟩ := Numeral.of_parseI64 hv.1 hv.2 hminute
      obtain ⟨secondN, rfl, rfl, _⟩ := Numeral.of_parseI64 hw.1 hw.2 hsecond
      unfold maxI64 at hyearMax
      obtain ⟨d, ⟨hdYear, hdMonth, hdDay⟩, rfl⟩ :=
        date_of_daysFromCivil (by omega) (by omega) (by omega) hdays
      have hdDayIn := d.day_in
      rw [hdYear, hdMonth, hdDay] at hdDayIn
      let written : WrittenInstant :=
        { year := yearN, month := monthN, day := dayN, hour := hourN, minute := minuteN
          second := secondN
          fraction := (splitOnce '.' time).map Prod.snd
          month_in := by omega
          day_in := hdDayIn
          clock_in := by omega
          fraction_in := by
            intro digits hdigits
            obtain ⟨parts, hparts, rfl⟩ := Option.map_eq_some_iff.mp hdigits
            rw [hparts] at htime
            cases htime
            exact fractionMillis_digits hfraction }
      have hnumber : written.date = d := Date.ext_parts hdYear.symm hdMonth.symm hdDay.symm
      have hwrittenFraction : written.fraction.getD [] = fraction := by
        show ((splitOnce '.' time).map Prod.snd).getD [] = fraction
        cases hsplit : splitOnce '.' time with
        | none =>
            rw [hsplit] at htime
            cases htime
            rfl
        | some parts =>
            rw [hsplit] at htime
            cases htime
            rfl
      have hthousandths := written.fractionMillis_eq
      rw [hwrittenFraction, hfraction] at hthousandths
      rw [Option.some.inj hthousandths] at h
      have hsmall := written.fractionMillis_lt
      obtain ⟨hsum, hlow, hhigh⟩ :=
        (instantSum_eq_some_iff (by omega) (by omega) (by omega)).mp h
      refine ⟨written, rfl, ?_, ?_, hlow, hhigh⟩
      · show (match (splitOnce '.' time).map Prod.snd with
          | none => written.clockText
          | some digits => written.clockText ++ '.' :: digits) = time
        have hwrittenClock : written.clockText = clock := hclockText.symm
        rw [hwrittenClock]
        cases hsplit : splitOnce '.' time with
        | none =>
            rw [hsplit] at htime
            cases htime
            rfl
        | some parts =>
            rw [hsplit] at htime
            cases htime
            exact (of_splitOnce hsplit).symm
      · show written.date.number * 86400000 + hourN.value * 3600000 + minuteN.value * 60000 +
          secondN.value * 1000 + written.fractionMillis = millis
        rw [hnumber]
        exact hsum.symm

/-! ## §3  Timestamps -/

/-- No sign characters: no `+`, and a `-` only between the parts of the date. -/
structure SignFree (text : List Char) : Prop where
  plus : '+' ∉ text
  head : text.head? ≠ some '-'
  time : ∀ date time, splitOnce 'T' text = some (date, time) → '-' ∉ time

/-- A written instant is no number: it has a `-` behind its first digits. -/
theorem WrittenInstant.parseI64_text (w : WrittenInstant) : parseI64 w.text = none := by
  obtain ⟨c, rest, hyear⟩ := List.exists_cons_of_ne_nil w.year.nonempty
  have hdigit : c.isDigit = true := w.year.digits c (by rw [hyear]; exact List.mem_cons_self)
  have hminus : '-' ∈ w.text := by
    unfold WrittenInstant.text WrittenInstant.dateText
    simp
  have hcons : ∃ tail, w.text = c :: tail := by
    unfold WrittenInstant.text WrittenInstant.dateText
    rw [hyear]
    exact ⟨_, rfl⟩
  have hsign : splitSign w.text = (false, w.text) := by
    obtain ⟨tail, htail⟩ := hcons
    rw [htail]
    unfold splitSign
    split
    · rename_i heq
      cases heq
      exact absurd hdigit (by decide)
    · rename_i heq
      cases heq
      exact absurd hdigit (by decide)
    · rfl
  unfold parseI64
  rw [hsign]
  simp only
  rw [if_pos]
  right
  rw [List.any_eq_true]
  exact ⟨'-', hminus, by decide⟩

theorem WrittenInstant.splitOnce_text (w : WrittenInstant) :
    splitOnce 'T' (w.dateText ++ 'T' :: w.timeText) = some (w.dateText, w.timeText) := by
  apply splitOnce_append
  unfold WrittenInstant.dateText
  simp [w.year.not_mem, w.month.not_mem, w.day.not_mem]

/-- A written instant is read as the instant it names. -/
theorem parseTimestamp_written {value : String} (w : WrittenInstant)
    (hvalue : w.text = value.toList) (h : 0 ≤ w.millis) (h' : w.millis ≤ maxI64) :
    parseTimestamp value = .ok w.millis := by
  have htext : w.text = (w.dateText ++ 'T' :: w.timeText) ++ ['Z'] := by
    unfold WrittenInstant.text
    simp
  unfold parseTimestamp
  rw [← hvalue, w.parseI64_text, htext, List.getLast?_concat, List.dropLast_concat]
  simp only [w.splitOnce_text, w.instantMillis_eq h h']

/-- A text without signs that is read is a number of milliseconds or a written instant. -/
theorem of_parseTimestamp {value : String} (hsign : SignFree value.toList) {millis : Int}
    (h : parseTimestamp value = .ok millis) :
    (∃ n : Numeral, n.text = value.toList ∧ (n.value : Int) = millis ∧ n.value ≤ maxI64) ∨
      ∃ w : WrittenInstant, w.text = value.toList ∧ w.millis = millis ∧ 0 ≤ millis ∧
        millis ≤ maxI64 := by
  unfold parseTimestamp at h
  cases hnumber : parseI64 value.toList with
  | some number =>
      left
      rw [hnumber] at h
      simp only at h
      split at h
      · cases h
        exact Numeral.of_parseI64 hsign.plus hsign.head hnumber
      · cases h
  | none =>
      right
      rw [hnumber] at h
      simp only at h
      split at h
      · rename_i hlast
        split at h
        · cases h
        · rename_i date time hsplit
          split at h
          · cases h
          · rename_i result hinstant
            cases h
            obtain ⟨init, hvalue⟩ := List.getLast?_eq_some_iff.mp hlast
            rw [hvalue, List.dropLast_concat] at hsplit
            have hinit := of_splitOnce hsplit
            simp only at hinit
            have hplus : '+' ∉ init := fun hin =>
              hsign.plus (by rw [hvalue]; exact List.mem_append_left _ hin)
            have hminus : '-' ∉ time := by
              -- the time in the text is the one that was split off, and its `Z`
              have hdate : 'T' ∉ date := not_mem_of_splitOnce hsplit
              have hwhole := hsign.time date (time ++ ['Z']) (by
                rw [hvalue, hinit, List.append_assoc, List.cons_append]
                exact splitOnce_append hdate)
              exact fun hin => hwhole (List.mem_append_left _ hin)
            rw [hinit] at hplus
            simp only [List.mem_append, List.mem_cons, not_or] at hplus
            obtain ⟨w, hdateText, htimeText, hmillis, hlow, hhigh⟩ :=
              WrittenInstant.of_instantMillis hplus.1 hplus.2.2 hminus hinstant
            refine ⟨w, ?_, hmillis, hlow, hhigh⟩
            unfold WrittenInstant.text
            rw [hdateText, htimeText, hvalue, hinit, List.append_assoc, List.cons_append]
      · cases h

/-- `{value:0width}` writes a numeral, at least as long as the width. -/
theorem exists_padded (width : Nat) {value : Int} (h : 0 ≤ value) :
    ∃ n : Numeral, n.text = (padded width value).toList ∧ (n.value : Int) = value ∧
      n.text.length = max width (Nat.toDigits 10 value.natAbs).length := by
  have htext : (padded width value).toList =
      List.replicate (width - (toString value.natAbs).length) '0' ++
        Nat.toDigits 10 value.natAbs := by
    unfold padded
    rw [if_neg (by omega), String.toList_append, String.toList_ofList]
    congr 1
    exact Nat.toList_repr
  have hlength : (toString value.natAbs).length = (Nat.toDigits 10 value.natAbs).length := by
    rw [← String.length_toList]
    exact congrArg List.length Nat.toList_repr
  refine ⟨⟨(padded width value).toList, ?_, ?_⟩, rfl, ?_, ?_⟩
  · rw [htext]
    exact List.append_ne_nil_of_right_ne_nil _ Nat.toDigits_ne_nil
  · intro c hc
    rw [htext, List.mem_append] at hc
    rcases hc with hc | hc
    · rw [List.eq_of_mem_replicate hc]
      decide
    · exact Nat.isDigit_of_mem_toDigits (by decide) (by decide) hc
  · show ((Nat.ofDigitChars 10 (padded width value).toList 0 : Nat) : Int) = value
    rw [htext, Nat.ofDigitChars_append, Nat.ofDigitChars_replicate_zero, Nat.mul_zero,
      Nat.ofDigitChars_ten_toDigits]
    omega
  · show (padded width value).toList.length = _
    rw [htext, List.length_append, List.length_replicate, hlength]
    omega

/-- What `format_timestamp` writes names the instant. -/
theorem exists_written_format (t : Timestamp) :
    ∃ w : WrittenInstant, w.text = (formatTimestamp t).toList ∧ w.millis = t.unixMillis := by
  obtain ⟨hday, hday'⟩ := t.day_in
  obtain ⟨d, hd⟩ := exists_date (((t.unixMillis : Int).ediv 1000).ediv 86400)
  have hmonth := d.month_in
  have hdayIn := d.day_in
  have hyear : 0 ≤ d.year := by
    have hnumber := d.number_eq
    have hbounds := d.inEra.dayOfEra_bounds
    have hmarch : d.marchYear ≤ d.year := by
      unfold Date.marchYear
      split <;> omega
    omega
  have hcivil := civilFromDays_number d (by omega)
  rw [hd] at hcivil
  obtain ⟨seconds, hseconds⟩ : ∃ seconds, seconds = ((t.unixMillis : Int).ediv 1000).emod 86400 :=
    ⟨_, rfl⟩
  obtain ⟨thousandths, hthousandths⟩ :
      ∃ thousandths, thousandths = (t.unixMillis : Int).emod 1000 := ⟨_, rfl⟩
  have hsum : (t.unixMillis : Int) = (d.number * 86400 + seconds) * 1000 + thousandths := by
    rw [hd, hseconds, hthousandths]
    show (t.unixMillis : Int) = ((t.unixMillis : Int) / 1000 / 86400 * 86400 +
      (t.unixMillis : Int) / 1000 % 86400) * 1000 + (t.unixMillis : Int) % 1000
    omega
  have hsecondsIn : 0 ≤ seconds ∧ seconds < 86400 := by
    rw [hseconds]
    show 0 ≤ (t.unixMillis : Int) / 1000 % 86400 ∧ (t.unixMillis : Int) / 1000 % 86400 < 86400
    omega
  have hthousandthsIn : 0 ≤ thousandths ∧ thousandths < 1000 := by
    rw [hthousandths]
    show 0 ≤ (t.unixMillis : Int) % 1000 ∧ (t.unixMillis : Int) % 1000 < 1000
    omega
  have hhour : seconds.tdiv 3600 = seconds / 3600 := Int.tdiv_eq_ediv_of_nonneg hsecondsIn.1
  have hinHour : seconds.tmod 3600 = seconds % 3600 := Int.tmod_eq_emod_of_nonneg hsecondsIn.1
  have hminute : (seconds.tmod 3600).tdiv 60 = seconds % 3600 / 60 := by
    rw [hinHour]
    exact Int.tdiv_eq_ediv_of_nonneg (by omega)
  have hsecond : seconds.tmod 60 = seconds % 60 := Int.tmod_eq_emod_of_nonneg hsecondsIn.1
  obtain ⟨year, hyearText, hyearValue, _⟩ := exists_padded 4 hyear
  obtain ⟨month, hmonthText, hmonthValue, _⟩ := exists_padded 2 (show 0 ≤ d.month by omega)
  obtain ⟨day, hdayText, hdayValue, _⟩ := exists_padded 2 (show 0 ≤ d.day by omega)
  obtain ⟨hour, hhourText, hhourValue, _⟩ := exists_padded 2 (show 0 ≤ seconds / 3600 by omega)
  obtain ⟨minute, hminuteText, hminuteValue, _⟩ :=
    exists_padded 2 (show 0 ≤ seconds % 3600 / 60 by omega)
  obtain ⟨second, hsecondText, hsecondValue, _⟩ :=
    exists_padded 2 (show 0 ≤ seconds % 60 by omega)
  obtain ⟨fraction, hfractionText, hfractionValue, hfractionLength⟩ :=
    exists_padded 3 hthousandthsIn.1
  have hthree : fraction.text.length = 3 := by
    have hdigits := (Nat.length_toDigits_le_iff (b := 10) (n := thousandths.natAbs) (k := 3)
      (by decide) (by decide)).mpr (by omega)
    omega
  let w : WrittenInstant :=
    { year := year, month := month, day := day, hour := hour, minute := minute, second := second
      fraction := some fraction.text
      month_in := by rw [hmonthValue]; exact hmonth
      day_in := by rw [hdayValue, hyearValue, hmonthValue]; exact hdayIn
      clock_in := by omega
      fraction_in := by
        intro digits hdigits
        cases hdigits
        exact ⟨hthree.le, fraction.digits⟩ }
  have hdate : w.date = d := Date.ext_parts hyearValue hmonthValue hdayValue
  have hfraction : w.fractionMillis = fraction.value := by
    show Nat.ofDigitChars 10 fraction.text 0 * 10 ^ (3 - fraction.text.length) = _
    rw [hthree]
    exact Nat.mul_one _
  refine ⟨w, ?_, ?_⟩
  · unfold formatTimestamp
    simp only [hcivil, ← hseconds, ← hthousandths, hhour, hminute, hsecond]
    unfold WrittenInstant.text WrittenInstant.dateText WrittenInstant.timeText
      WrittenInstant.clockText
    simp [w, hyearText, hmonthText, hdayText, hhourText, hminuteText, hsecondText, hfractionText]
  · show w.date.number * 86400000 + hour.value * 3600000 + minute.value * 60000 +
      second.value * 1000 + w.fractionMillis = t.unixMillis
    rw [hdate, hfraction, hhourValue, hminuteValue, hsecondValue, hfractionValue, hsum]
    omega

/-- From the first millisecond to the last: writing a timestamp does not overflow, and reading
it gives it back. The two conversions of dates are inverse on its days. -/
theorem timestamps_round_trip :
    (∀ t : Timestamp, formatTimestampChecked t = some (formatTimestamp t) ∧
      parseTimestamp (formatTimestamp t) = .ok (t.unixMillis : Int)) ∧
    (∀ days, 0 ≤ days → days ≤ maxTimestampDay →
      daysFromCivil (civilFromDays days).1 (civilFromDays days).2.1 (civilFromDays days).2.2 =
        some days) ∧
    ∀ year month day days, -(2 ^ 63) ≤ year → year < 2 ^ 63 → 1 ≤ month ∧ month ≤ 12 →
      daysFromCivil year month day = some days → 0 ≤ days →
        civilFromDays days = (year, month, day) := by
  refine ⟨fun t => ⟨formatTimestampChecked_eq t, ?_⟩, fun days => daysFromCivil_civilFromDays,
    fun year month day days => civilFromDays_daysFromCivil⟩
  obtain ⟨w, htext, hmillis⟩ := exists_written_format t
  have hmax : w.millis ≤ maxI64 := by
    rw [hmillis]
    exact_mod_cast t.isI64
  rw [← hmillis]
  exact parseTimestamp_written w htext (by omega) hmax

theorem timestamps_round_trip_at_the_end :
    parseTimestamp (formatTimestamp ⟨maxTimestampMillis, le_rfl⟩) = .ok (2 ^ 63 - 1) ∧
      civilFromDays 0 = (1970, 1, 1) :=
  ⟨(timestamps_round_trip.1 ⟨maxTimestampMillis, le_rfl⟩).2,
    timestamps_round_trip.2.2 1970 1 1 0 (by decide) (by decide) (by decide) (by decide) le_rfl⟩

/-- Of the texts without a sign, `parse_timestamp` accepts the numbers of milliseconds and the
written instants, each as the instant it stands for. -/
theorem parseTimestamp_iff {value : String} (hsign : SignFree value.toList) (millis : Int) :
    parseTimestamp value = .ok millis ↔
      (∃ n : Numeral, n.text = value.toList ∧ (n.value : Int) = millis ∧ n.value ≤ maxI64) ∨
        ∃ w : WrittenInstant, w.text = value.toList ∧ w.millis = millis ∧ 0 ≤ millis ∧
          millis ≤ maxI64 := by
  constructor
  · exact of_parseTimestamp hsign
  · rintro (⟨n, htext, rfl, hmax⟩ | ⟨w, htext, rfl, hlow, hhigh⟩)
    · unfold parseTimestamp
      rw [← htext, n.parseI64_text, if_pos hmax]
      exact if_pos (by omega)
    · exact parseTimestamp_written w htext hlow hhigh

theorem parseTimestamp_iff_leap_day :
    (∃ n : Numeral, n.text = "2024-2-29T7:05:09.5Z".toList ∧ (n.value : Int) = 1709190309500 ∧
        n.value ≤ maxI64) ∨
      ∃ w : WrittenInstant, w.text = "2024-2-29T7:05:09.5Z".toList ∧ w.millis = 1709190309500 ∧
        0 ≤ (1709190309500 : Int) ∧ (1709190309500 : Int) ≤ maxI64 := by
  have hsplit : splitOnce 'T' "2024-2-29T7:05:09.5Z".toList =
      some ("2024-2-29".toList, "7:05:09.5Z".toList) := by decide +kernel
  refine (parseTimestamp_iff ⟨by decide +kernel, by decide +kernel, ?_⟩ _).mp (by decide +kernel)
  intro date time h
  rw [hsplit] at h
  cases h
  decide +kernel

/-- A plain number of milliseconds is accepted, and is not written as a date and a time. -/
theorem plain_milliseconds_accepted :
    ¬ ∀ value millis, parseTimestamp value = .ok millis →
      ∃ w : WrittenInstant, w.text = value.toList ∧ w.millis = millis := by
  intro h
  obtain ⟨w, htext, _⟩ := h "0" 0 (by decide +kernel)
  have hminus : '-' ∈ w.text := by
    unfold WrittenInstant.text WrittenInstant.dateText
    simp
  rw [htext] at hminus
  revert hminus
  decide

end NextInfra
