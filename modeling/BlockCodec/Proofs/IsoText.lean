import BlockCodec.Proofs.Calendar
import BlockCodec.Proofs.Digits
import Mathlib.Data.List.Basic
import BlockCodec.Literal

namespace BlockCodec.Instant

open Calendar

theorem millis_eq_dayNumber_add (t : Instant) : t.millis = t.dayNumber * 86400000 + t.millis % 86400000 := by
  unfold dayNumber millisPerDay
  omega

theorem fitsInt64_iff (i : Int) :
    fitsInt64 i = true ↔ -9223372036854775808 ≤ i ∧ i ≤ 9223372036854775807 := by
  unfold fitsInt64 int64Max
  simp

theorem ofMillis_eq_ok {millis : Int} {t : Instant} : ofMillis millis = .ok t ↔ t.millis = millis := by
  unfold ofMillis
  split
  · constructor
    · rintro ⟨⟩
      rfl
    · intro same
      cases t
      simp_all
  · rename_i outside
    simp only [reduceCtorEq, false_iff]
    intro same
    exact outside (same ▸ t.inRange)

theorem ofCivil_eq_ok {year : Int} {month day hour minute second milli : Nat} {t : Instant} :
    ofCivil year month day hour minute second milli = .ok t ↔
      ValidDate year month day ∧ hour ≤ 23 ∧ minute ≤ 59 ∧ second ≤ 59 ∧ milli ≤ 999 ∧
        t.millis = daysFromCivil year month day * 86400000 +
          (hour * 3600000 + minute * 60000 + second * 1000 + milli) := by
  unfold ofCivil
  split_ifs with badMonth badDay badHour badMinute badSecond badMilli
  all_goals try (simp only [false_iff, ValidDate]; omega)
  dsimp only
  split
  · rw [ofMillis_eq_ok]
    simp only [ValidDate, millisPerDay, millisPerHour, millisPerMinute, millisPerSecond]
    omega
  · rename_i fits
    simp only [reduceCtorEq, false_iff, ValidDate]
    rintro ⟨-, -, -, -, -, same⟩
    have range := t.inRange
    simp only [Bool.and_eq_true, fitsInt64_iff, millisPerDay, millisPerHour, millisPerMinute,
      millisPerSecond] at fits
    unfold maxMillis at range
    omega

theorem date_spec (t : Instant) :
    ValidDate t.year t.month t.day ∧ daysFromCivil t.year t.month t.day = t.dayNumber :=
  civilFromDays_spec (show civilFromDays t.dayNumber = (t.year, t.month, t.day) from rfl)

theorem timeOfDay_spec (t : Instant) :
    t.hours ≤ 23 ∧ t.minutes ≤ 59 ∧ t.seconds ≤ 59 ∧ t.millisecond ≤ 999 ∧
      t.millis % 86400000 = t.hours * 3600000 + t.minutes * 60000 + t.seconds * 1000 + t.millisecond := by
  unfold hours minutes seconds millisecond millisPerDay millisPerHour millisPerMinute millisPerSecond
  omega

theorem ofCivil_components (t : Instant) :
    ofCivil t.year t.month t.day t.hours t.minutes t.seconds t.millisecond = .ok t := by
  obtain ⟨valid, days⟩ := date_spec t
  obtain ⟨hour, minute, second, milli, clock⟩ := timeOfDay_spec t
  rw [ofCivil_eq_ok, days]
  refine ⟨valid, hour, minute, second, milli, ?_⟩
  have split := millis_eq_dayNumber_add t
  omega

theorem components_of_ofCivil {year : Int} {month day hour minute second milli : Nat} {t : Instant}
    (built : ofCivil year month day hour minute second milli = .ok t) :
    t.year = year ∧ t.month = month ∧ t.day = day ∧ t.hours = hour ∧ t.minutes = minute ∧
      t.seconds = second ∧ t.millisecond = milli := by
  obtain ⟨valid, hourOk, minuteOk, secondOk, milliOk, millisIs⟩ := ofCivil_eq_ok.mp built
  have dayNumberIs : t.dayNumber = daysFromCivil year month day := by
    unfold dayNumber millisPerDay
    omega
  have date : t.date = (year, month, day) := by
    rw [date, dayNumberIs, civilFromDays_daysFromCivil valid]
  simp only [Instant.year, Instant.month, Instant.day, date, hours, minutes, seconds, millisecond,
    millisPerDay, millisPerHour, millisPerMinute, millisPerSecond, true_and]
  omega

/-- The text of an instant after its year: `-MM-DDTHH:MM:SS.sssZ`. -/
def isoTail (month day hour minute second milli : Nat) : List Char :=
  '-' :: fixedDigits 2 month ++ '-' :: fixedDigits 2 day ++ 'T' :: fixedDigits 2 hour ++
    ':' :: fixedDigits 2 minute ++ ':' :: fixedDigits 2 second ++ '.' :: fixedDigits 3 milli ++ ['Z']

theorem toIso_toList (t : Instant) :
    t.toIso.toList = (yearText t.year).toList ++ isoTail t.month t.day t.hours t.minutes t.seconds t.millisecond := by
  obtain ⟨⟨_, monthHigh, _, dayHigh⟩, _⟩ := date_spec t
  have dayShort : daysInMonth t.year t.month ≤ 31 := by
    unfold daysInMonth
    split <;> (try split) <;> omega
  obtain ⟨hour, minute, second, milli, _⟩ := timeOfDay_spec t
  simp only [toIso, String.toList_append, padded_toList (show t.month < 10 ^ 2 by omega) (by omega),
    padded_toList (show t.day < 10 ^ 2 by omega) (by omega), padded_toList (show t.hours < 10 ^ 2 by omega) (by omega),
    padded_toList (show t.minutes < 10 ^ 2 by omega) (by omega),
    padded_toList (show t.seconds < 10 ^ 2 by omega) (by omega),
    padded_toList (show t.millisecond < 10 ^ 3 by omega) (by omega), isoTail]
  simp

theorem digitsValue?_of_fixedDigits {width n : Nat} {cs : List Char} (fits : n < 10 ^ width) (wide : 0 < width)
    (same : fixedDigits width n = cs) : digitsValue? cs = some n :=
  same ▸ digitsValue?_fixedDigits fits wide

theorem splitParts?_isoTail {month day hour minute second milli : Nat} (monthFits : month < 100)
    (dayFits : day < 100) (hourFits : hour < 100) (minuteFits : minute < 100) (secondFits : second < 100)
    (milliFits : milli < 1000) :
    splitParts? (isoTail month day hour minute second milli) = some (month, day, hour, minute, second, milli) := by
  obtain ⟨m1, m2, monthIs⟩ := List.length_eq_two.mp (length_fixedDigits 2 month)
  obtain ⟨d1, d2, dayIs⟩ := List.length_eq_two.mp (length_fixedDigits 2 day)
  obtain ⟨h1, h2, hourIs⟩ := List.length_eq_two.mp (length_fixedDigits 2 hour)
  obtain ⟨i1, i2, minuteIs⟩ := List.length_eq_two.mp (length_fixedDigits 2 minute)
  obtain ⟨s1, s2, secondIs⟩ := List.length_eq_two.mp (length_fixedDigits 2 second)
  obtain ⟨l1, l2, l3, milliIs⟩ := List.length_eq_three.mp (length_fixedDigits 3 milli)
  have monthText := digitsValue?_of_fixedDigits (by norm_num; omega) (by omega) monthIs
  have dayText := digitsValue?_of_fixedDigits (by norm_num; omega) (by omega) dayIs
  have hourText := digitsValue?_of_fixedDigits (by norm_num; omega) (by omega) hourIs
  have minuteText := digitsValue?_of_fixedDigits (by norm_num; omega) (by omega) minuteIs
  have secondText := digitsValue?_of_fixedDigits (by norm_num; omega) (by omega) secondIs
  have milliText := digitsValue?_of_fixedDigits (by norm_num; omega) (by omega) milliIs
  simp only [isoTail, monthIs, dayIs, hourIs, minuteIs, secondIs, milliIs]
  simp [splitParts?, digitsAt?, monthText, dayText, hourText, minuteText, secondText, milliText]

/-- A non-empty run of digits read as `n` is the fixed-width text of `n`. -/
theorem fixedDigits_of_digitsValue? {cs : List Char} {n : Nat} (read : digitsValue? cs = some n) :
    n < 10 ^ cs.length ∧ fixedDigits cs.length n = cs := by
  obtain ⟨_, digits, rfl⟩ := digitsValue?_eq_some.mp read
  exact fixedDigits_digitsValue digits

theorem eq_isoTail_of_splitParts? {rest : List Char} {month day hour minute second milli : Nat}
    (split : splitParts? rest = some (month, day, hour, minute, second, milli)) :
    rest = isoTail month day hour minute second milli := by
  unfold splitParts? at split
  split at split
  · cases split
  rename_i shape
  simp only [not_or, Decidable.not_not] at shape
  obtain ⟨length, c0, c3, c6, c9, c12, c15, c19⟩ := shape
  match rest, length with
  | [a0, a1, a2, a3, a4, a5, a6, a7, a8, a9, a10, a11, a12, a13, a14, a15, a16, a17, a18, a19], _ =>
    simp only [Option.bind_eq_bind, Option.bind_eq_some_iff, Option.pure_def, Option.some.injEq,
      Prod.mk.injEq] at split
    obtain ⟨_, monthRead, _, dayRead, _, hourRead, _, minuteRead, _, secondRead, _, milliRead,
      rfl, rfl, rfl, rfl, rfl, rfl⟩ := split
    simp only [digitsAt?, List.drop, List.take, Nat.reduceSub] at monthRead dayRead hourRead minuteRead secondRead milliRead
    simp only [List.getElem?_cons_succ, List.getElem?_cons_zero, Option.some.injEq] at c0 c3 c6 c9 c12 c15 c19
    subst c0 c3 c6 c9 c12 c15 c19
    have monthIs : fixedDigits 2 _ = [a1, a2] := (fixedDigits_of_digitsValue? monthRead).2
    have dayIs : fixedDigits 2 _ = [a4, a5] := (fixedDigits_of_digitsValue? dayRead).2
    have hourIs : fixedDigits 2 _ = [a7, a8] := (fixedDigits_of_digitsValue? hourRead).2
    have minuteIs : fixedDigits 2 _ = [a10, a11] := (fixedDigits_of_digitsValue? minuteRead).2
    have secondIs : fixedDigits 2 _ = [a13, a14] := (fixedDigits_of_digitsValue? secondRead).2
    have milliIs : fixedDigits 3 _ = [a16, a17, a18] := (fixedDigits_of_digitsValue? milliRead).2
    simp only [isoTail, monthIs, dayIs, hourIs, minuteIs, secondIs, milliIs]
    rfl

theorem yearText_toList (year : Int) (fits : year.natAbs < 1000000) :
    (yearText year).toList =
      if 0 ≤ year ∧ year ≤ 9999 then fixedDigits 4 year.toNat
      else (if year < 0 then '-' else '+') :: fixedDigits 6 year.natAbs := by
  unfold yearText
  split
  · rw [padded_toList (by norm_num; omega) (by omega)]
  · split
    · rw [String.toList_append, padded_toList (by norm_num; omega) (by omega)]
      rfl
    · rw [String.toList_append, padded_toList (by norm_num; omega) (by omega),
        show year.toNat = year.natAbs by omega]
      rfl

theorem ne_sign_of_isAsciiDigit {c : Char} (digit : isAsciiDigit c = true) : ¬(c = '+' ∨ c = '-') := by
  rw [isAsciiDigit_iff] at digit
  rintro (rfl | rfl) <;> simp at digit

theorem splitYear?_yearText {year : Int} (fits : year.natAbs < 1000000) (rest : List Char) :
    splitYear? ((yearText year).toList ++ rest) = some (year, rest) := by
  rw [yearText_toList year fits]
  split
  · rename_i plain
    obtain ⟨first, later, firstIs⟩ : ∃ first later, fixedDigits 4 year.toNat = first :: later :=
      List.exists_cons_of_length_eq_add_one (length_fixedDigits 4 _)
    have digit : isAsciiDigit first = true :=
      isAsciiDigit_of_mem_fixedDigits (firstIs ▸ List.mem_cons_self)
    have value := digitsValue?_fixedDigits (show year.toNat < 10 ^ 4 by norm_num; omega) (by omega)
    have long : ¬(fixedDigits 4 year.toNat ++ rest).length < 4 := by simp
    rw [firstIs, List.cons_append] at long
    rw [firstIs, List.cons_append]
    simp only [splitYear?, if_neg (ne_sign_of_isAsciiDigit digit), if_neg long]
    rw [← List.cons_append, ← firstIs, List.take_left' (length_fixedDigits 4 _),
      List.drop_left' (length_fixedDigits 4 _), value]
    simp [Int.toNat_of_nonneg plain.1]
  · rename_i signed
    have value := digitsValue?_fixedDigits (show year.natAbs < 10 ^ 6 by norm_num; omega) (by omega)
    have long : ¬(fixedDigits 6 year.natAbs ++ rest).length < 6 := by simp
    simp only [List.cons_append, splitYear?]
    rw [if_pos (by split <;> simp), if_neg long, List.take_left' (length_fixedDigits 6 _), value]
    simp only [List.drop_left' (length_fixedDigits 6 _)]
    by_cases negative : year < 0
    · simp only [if_pos negative, if_true, if_neg (show ¬(year.natAbs ≤ 9999 ∧ ('-' = '+' ∨ year.natAbs = 0)) by
        simp; omega)]
      simp only [Option.some.injEq, Prod.mk.injEq, and_true]
      omega
    · have large : ¬(year.natAbs ≤ 9999 ∧ (True ∨ year.natAbs = 0)) := by omega
      simp only [if_neg negative, if_neg large, Option.some.injEq, Prod.mk.injEq, and_true]
      simp only [show ('+' : Char) ≠ '-' by decide, if_false]
      omega

theorem eq_yearText_of_splitYear? {cs rest : List Char} {year : Int}
    (split : splitYear? cs = some (year, rest)) :
    year.natAbs < 1000000 ∧ cs = (yearText year).toList ++ rest := by
  match cs with
  | [] => simp [splitYear?] at split
  | sign :: tail =>
    simp only [splitYear?] at split
    by_cases isSign : sign = '+' ∨ sign = '-'
    · -- a sign and six digits
      have long : ¬tail.length < 6 := by
        intro short
        simp only [if_pos isSign, if_pos short, reduceCtorEq] at split
      simp only [if_pos isSign, if_neg long] at split
      cases read : digitsValue? (tail.take 6) with
      | none => simp [read] at split
      | some y =>
        simp only [read] at split
        have large : ¬(y ≤ 9999 ∧ (sign = '+' ∨ y = 0)) := by
          intro small
          simp only [if_pos small, reduceCtorEq] at split
        rw [if_neg large] at split
        obtain ⟨rfl, rfl⟩ := Prod.mk.inj (Option.some.inj split)
        have taken : (tail.take 6).length = 6 := by simp; omega
        obtain ⟨fits, digits⟩ := fixedDigits_of_digitsValue? read
        rw [taken] at fits digits
        norm_num at fits
        have sixDigits : sign :: tail = sign :: (fixedDigits 6 y ++ tail.drop 6) := by
          rw [digits, List.take_append_drop]
        by_cases minus : sign = '-'
        · subst minus
          have nonzero : y ≠ 0 := by
            rintro rfl
            exact large ⟨by omega, Or.inr rfl⟩
          rw [if_pos rfl, yearText_toList _ (by omega), if_neg (by omega), if_pos (by omega)]
          simp only [Int.natAbs_neg, Int.natAbs_natCast]
          exact ⟨fits, sixDigits⟩
        · have plus : sign = '+' := by tauto
          subst plus
          have above : 9999 < y := by
            by_contra small
            exact large ⟨by omega, Or.inl rfl⟩
          rw [if_neg minus, yearText_toList _ (by omega), if_neg (by omega), if_neg (by omega)]
          simp only [Int.natAbs_natCast]
          exact ⟨fits, sixDigits⟩
    · -- four digits
      have long : ¬(sign :: tail).length < 4 := by
        intro short
        simp only [if_neg isSign, if_pos short, reduceCtorEq] at split
      simp only [if_neg isSign, if_neg long] at split
      cases read : digitsValue? (List.take 4 (sign :: tail)) with
      | none =>
        rw [read] at split
        cases split
      | some y =>
        simp only [read, Option.bind_eq_bind, Option.bind_some, Option.pure_def, Option.map_some,
          Option.some.injEq, Prod.mk.injEq] at split
        obtain ⟨rfl, rfl⟩ := split
        have taken : ((sign :: tail).take 4).length = 4 := by simp only [List.length_take]; omega
        obtain ⟨fits, digits⟩ := fixedDigits_of_digitsValue? read
        rw [taken] at fits digits
        norm_num at fits
        rw [yearText_toList _ (by omega), if_pos (by omega), Int.toNat_natCast, digits,
          List.take_append_drop]
        exact ⟨by omega, rfl⟩

theorem dayNumber_natAbs_le (t : Instant) : t.dayNumber.natAbs ≤ 100000000 := by
  have range := t.inRange
  unfold dayNumber millisPerDay
  unfold maxMillis at range
  omega

/-- Instants lie within 10^8 days of the epoch, so their years have at most six digits. -/
theorem year_natAbs_lt (t : Instant) : t.year.natAbs < 1000000 := by
  obtain ⟨valid, days⟩ := date_spec t
  obtain ⟨low, high⟩ := daysFromCivil_within_era valid
  generalize shifted : (if t.month ≤ 2 then t.year - 1 else t.year) = y at low high
  have near : y = t.year - 1 ∨ y = t.year := by
    rw [← shifted]
    split <;> omega
  have dayBound := dayNumber_natAbs_le t
  unfold epochDays at low high
  omega

theorem parseIso_toIso (t : Instant) : parseIso t.toIso = .ok t := by
  obtain ⟨⟨_, monthHigh, _, dayHigh⟩, _⟩ := date_spec t
  have dayShort : daysInMonth t.year t.month ≤ 31 := by
    unfold daysInMonth
    split <;> (try split) <;> omega
  obtain ⟨hour, minute, second, milli, _⟩ := timeOfDay_spec t
  unfold parseIso
  rw [toIso_toList, splitYear?_yearText (year_natAbs_lt t)]
  simp only
  rw [splitParts?_isoTail (by omega) (by omega) (by omega) (by omega) (by omega) (by omega)]
  exact ofCivil_components t

theorem toIso_of_parseIso {s : String} {t : Instant} (parsed : parseIso s = .ok t) : t.toIso = s := by
  unfold parseIso at parsed
  split at parsed
  · cases parsed
  rename_i year rest yearSplit
  split at parsed
  · cases parsed
  rename_i month day hour minute second milli partsSplit
  obtain ⟨rfl, rfl, rfl, rfl, rfl, rfl, rfl⟩ := components_of_ofCivil parsed
  obtain ⟨-, text⟩ := eq_yearText_of_splitYear? yearSplit
  apply String.toList_inj.mp
  rw [toIso_toList, text, eq_isoTail_of_splitParts? partsSplit]

/-- Reading accepts exactly the texts that writing produces, and gives back the instant written:
each instant has one ISO text and each accepted text one instant. -/
theorem parseIso_eq_ok_iff {s : String} {t : Instant} : parseIso s = .ok t ↔ t.toIso = s :=
  ⟨toIso_of_parseIso, fun written => written ▸ parseIso_toIso t⟩

end BlockCodec.Instant

namespace BlockCodec.Literal

theorem ofJson_toJson (l : Literal) : ofJson l.toJson = .ok l := by
  cases l with
  | instant t => simp [toJson, ofJson, Instant.parseIso_toIso]
  | _ => rfl

theorem eq_toJson_of_ofJson {j : Json} {l : Literal} (read : ofJson j = .ok l) : j = l.toJson := by
  unfold ofJson at read
  split at read
  case h_1 | h_2 | h_3 => cases read; rfl
  case h_4 key v =>
    by_cases dated : key = dateTag
    · rw [if_pos dated] at read
      subst dated
      split at read
      · rename_i text
        split at read
        · rename_i t parsed
          cases read
          rw [toJson, Instant.toIso_of_parseIso parsed]
        · cases read
      · cases read
    · rw [if_neg dated] at read
      cases read
  case h_5 => cases read

theorem ofJson_eq_ok_iff {j : Json} {l : Literal} : ofJson j = .ok l ↔ j = l.toJson :=
  ⟨eq_toJson_of_ofJson, fun encoded => encoded ▸ ofJson_toJson l⟩

end BlockCodec.Literal
