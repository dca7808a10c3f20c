import LeaderLease.Proofs.Text.Decimal
import LeaderLease.Time.Reading

/-!
# Timestamps come back as they were written

The reader is lenient, but it has no choice on a written timestamp: every number is read to its last digit, because
it fills its width or a mark follows it. What is read are the parts of the clock, and they make up the instant again,
unless that has a leap second which does not end a minute: it is written, and read, as the second after.
-/

namespace LeaderLease.Timestamp

/-- If the instant is in a leap second, this is the last of a minute. -/
def IsProper (t : Timestamp) : Prop := t.nanos < 1000000000 ∨ t.second = 59

instance (t : Timestamp) : Decidable t.IsProper := inferInstanceAs (Decidable (_ ∨ _))

/-- The proper instant with the same written form. -/
def asWritten (t : Timestamp) : Timestamp :=
  if h : t.IsProper then t
  else
    { t with
      second := t.second + 1
      nanos := t.nanos - 1000000000
      second_lt := by
        have := t.second_lt
        unfold IsProper at h
        omega
      nanos_lt := by
        have := t.nanos_lt
        omega }

theorem asWritten_of_isProper {t : Timestamp} (h : t.IsProper) : t.asWritten = t := dif_pos h

theorem isProper_asWritten (t : Timestamp) : t.asWritten.IsProper := by
  have hbound := t.nanos_lt
  unfold asWritten
  split
  · assumption
  · left
    dsimp only
    omega

theorem asWritten_eq_self_iff {t : Timestamp} : t.asWritten = t ↔ t.IsProper :=
  ⟨fun h => h ▸ t.isProper_asWritten, asWritten_of_isProper⟩

theorem write_asWritten (t : Timestamp) : t.asWritten.write = t.write := by
  have hbound := t.nanos_lt
  unfold asWritten
  split
  · rfl
  · next h =>
    unfold IsProper at h
    have hsecond : t.second + 1 + (t.nanos - 1000000000) / 1000000000 = t.second + t.nanos / 1000000000 := by omega
    have hnanos : (t.nanos - 1000000000) % 1000000000 = t.nanos % 1000000000 := by omega
    simp only [write, hsecond, hnanos]

def EndsDigits (rest : List Char) : Prop := ∀ c ∈ rest.head?, Decimal.isDigit c = false

theorem not_isWhiteSpace_of_isDigit {c : Char} (hc : Decimal.isDigit c = true) : isWhiteSpace c = false := by
  rw [Decimal.isDigit_iff] at hc
  have hne : ∀ d : Char, d.toNat < 48 ∨ 57 < d.toNat → (c == d) = false := by
    intro d hd
    rw [beq_eq_false_iff_ne]
    rintro rfl
    change 48 ≤ c.toNat ∧ c.toNat ≤ 57 at hc
    omega
  have hlow : decide (c ≤ '\x0D') = false := by
    rw [decide_eq_false_iff_not, Char.le_def, UInt32.le_iff_toNat_le]
    change ¬ c.toNat ≤ 13
    change 48 ≤ c.toNat ∧ c.toNat ≤ 57 at hc
    omega
  have hhigh : decide ('\u2000' ≤ c) = false := by
    rw [decide_eq_false_iff_not, Char.le_def, UInt32.le_iff_toNat_le]
    change ¬ 0x2000 ≤ c.toNat
    change 48 ≤ c.toNat ∧ c.toNat ≤ 57 at hc
    omega
  simp [isWhiteSpace, hlow, hhigh, hne]

theorem trimStart_of_isDigit {ds rest : List Char} (hne : ds ≠ []) (hds : ∀ c ∈ ds, Decimal.isDigit c = true) :
    trimStart (ds ++ rest) = ds ++ rest := by
  cases ds with
  | nil => exact absurd rfl hne
  | cons c cs =>
      have hc := not_isWhiteSpace_of_isDigit (hds c List.mem_cons_self)
      rw [trimStart, List.cons_append, List.dropWhile_cons_of_neg (by simp [hc])]

namespace Scan

theorem run_bind_of_run {α β : Type} {x : Scan α} {f : α → Scan β} {text rest : List Char} {a : α}
    (hx : x.run text = .ok (a, rest)) : (x >>= f).run text = (f a).run rest := by
  rw [StateT.run_bind, hx]
  rfl

theorem run_get_bind {α : Type} (f : List Char → Scan α) (text : List Char) :
    ((get : Scan (List Char)) >>= f).run text = (f text).run text := rfl

theorem run_set_bind {α : Type} (f : PUnit → Scan α) (new text : List Char) :
    ((set new : Scan PUnit) >>= f).run text = (f ⟨⟩).run new := rfl

theorem blanks_run (text : List Char) : blanks.run text = .ok ((), trimStart text) := rfl

theorem literal_run (c : Char) (rest : List Char) : (literal c).run (c :: rest) = .ok ((), rest) := by
  simp only [literal]
  rw [run_get_bind]
  dsimp only
  rw [if_pos rfl]
  rfl

theorem dateEnd_run (rest : List Char) : dateEnd.run ('T' :: rest) = .ok ((), rest) := rfl

/-- Digits are read to the last, either because there is room for no more or because something else follows. -/
theorem digits_run {limit : Nat} {ds : List Char} (rest : List Char) (hne : ds ≠ [])
    (hds : ∀ c ∈ ds, Decimal.isDigit c = true) (hlength : ds.length ≤ limit)
    (hend : ds.length = limit ∨ EndsDigits rest) : (digits limit).run (ds ++ rest) = .ok (ds, rest) := by
  have htake : ((ds ++ rest).take limit).takeWhile Decimal.isDigit = ds := by
    rw [List.take_append, List.take_of_length_le hlength, List.takeWhile_append_of_pos hds]
    have hnone : (rest.take (limit - ds.length)).takeWhile Decimal.isDigit = [] := by
      rcases hend with hfull | hends
      · simp [hfull]
      · cases rest with
        | nil => simp
        | cons c cs =>
            have hc : Decimal.isDigit c = false := hends c rfl
            cases limit - ds.length with
            | zero => rfl
            | succ n => simp [hc]
    rw [hnone, List.append_nil]
  obtain ⟨d, more, hcons⟩ : ∃ d more, ds ++ rest = d :: more := by
    cases ds with
    | nil => exact absurd rfl hne
    | cons d more => exact ⟨d, more ++ rest, rfl⟩
  have hdrop : (ds ++ rest).drop ds.length = rest := List.drop_left
  rw [digits, run_get_bind]
  rw [hcons] at htake hdrop ⊢
  simp only [htake, hdrop]
  rw [if_neg hne]
  rfl

theorem allDigits_run {ds rest : List Char} (hne : ds ≠ []) (hds : ∀ c ∈ ds, Decimal.isDigit c = true)
    (hend : EndsDigits rest) : allDigits.run (ds ++ rest) = .ok (ds, rest) := by
  rw [allDigits, run_get_bind]
  exact digits_run rest hne hds (by simp) (.inr hend)

theorem number_run {width least greatest n : Nat} (rest : List Char) (hwidth : 0 < width) (hfits : n < 10 ^ width)
    (hleast : least ≤ n) (hgreatest : n ≤ greatest) :
    (number width least greatest).run (Decimal.padded width n ++ rest) = .ok (n, rest) := by
  have hds : ∀ c ∈ Decimal.padded width n, Decimal.isDigit c = true := fun _ => Decimal.isDigit_of_mem_padded
  have hlength := Decimal.length_padded hwidth hfits
  rw [number, run_bind_of_run (blanks_run _), trimStart_of_isDigit (Decimal.padded_ne_nil _ _) hds,
    run_bind_of_run (digits_run rest (Decimal.padded_ne_nil _ _) hds (Nat.le_of_eq hlength) (.inl hlength)),
    Decimal.value_padded]
  dsimp only
  rw [if_pos ⟨hleast, hgreatest⟩]
  rfl

theorem trimStart_of_mark {c : Char} (hc : isWhiteSpace c = false) (rest : List Char) :
    trimStart (c :: rest) = c :: rest := by
  rw [trimStart, List.dropWhile_cons_of_neg (by simp [hc])]

theorem separator_run {c : Char} (hc : isWhiteSpace c = false) (rest : List Char) :
    (separator c).run (c :: rest) = .ok ((), rest) := by
  rw [separator, run_bind_of_run (blanks_run _), trimStart_of_mark hc]
  exact literal_run c rest

theorem year_run {y : Int} (hlow : Date.firstYear ≤ y) (hhigh : y ≤ Date.lastYear) (rest : List Char) :
    year.run (writeYear y ++ '-' :: rest) = .ok (y, '-' :: rest) := by
  have hends : EndsDigits ('-' :: rest) := by
    rintro c hc
    cases hc
    rfl
  have hrange : -2147483648 ≤ y ∧ y ≤ 2147483647 := by
    unfold Date.firstYear at hlow
    unfold Date.lastYear at hhigh
    omega
  have hdone : (if -2147483648 ≤ y ∧ y ≤ 2147483647 then pure y else throw ReadError.outOfRange : Scan Int).run
      ('-' :: rest) = .ok (y, '-' :: rest) := by
    rw [if_pos hrange]
    rfl
  have hds : ∀ n : Nat, ∀ c ∈ Decimal.padded 4 n, Decimal.isDigit c = true := fun _ _ => Decimal.isDigit_of_mem_padded
  have hne : ∀ n : Nat, Decimal.padded 4 n ≠ [] := Decimal.padded_ne_nil 4
  have hall (n : Nat) : allDigits.run (Decimal.padded 4 n ++ '-' :: rest) = .ok (Decimal.padded 4 n, '-' :: rest) :=
    allDigits_run (hne n) (hds n) hends
  unfold year writeYear
  rw [run_bind_of_run (blanks_run _)]
  by_cases hplain : 0 ≤ y ∧ y ≤ 9999
  · have hlength : (Decimal.padded 4 y.toNat).length = 4 := Decimal.length_padded (by omega) (by omega)
    have hyear : ((y.toNat : Nat) : Int) = y := Int.toNat_of_nonneg hplain.1
    rw [if_pos hplain, trimStart_of_isDigit (hne _) (hds _), run_get_bind]
    have hdigits := digits_run ('-' :: rest) (hne y.toNat) (hds y.toNat) (Nat.le_of_eq hlength) (.inl hlength)
    -- the first character is a digit, so neither sign is there
    obtain ⟨d, more, hcons⟩ := List.exists_cons_of_ne_nil (hne y.toNat)
    have hd : Decimal.isDigit d = true := hds y.toNat d (by simp [hcons])
    have hminus : d ≠ '-' := by
      rintro rfl
      exact absurd hd (by decide)
    have hplus : d ≠ '+' := by
      rintro rfl
      exact absurd hd (by decide)
    split
    · next heq =>
      rw [hcons] at heq
      exact absurd (List.cons.inj heq).1 hminus
    · next heq =>
      rw [hcons] at heq
      exact absurd (List.cons.inj heq).1 hplus
    · rw [run_bind_of_run hdigits, Decimal.value_padded, hyear, pure_bind]
      exact hdone
  · rw [if_neg hplain]
    by_cases hneg : y < 0
    · have hyear : -((y.natAbs : Nat) : Int) = y := by omega
      rw [if_pos hneg, List.cons_append, trimStart_of_mark rfl, run_get_bind]
      change StateT.run (set _ >>= _) _ = _
      rw [run_set_bind, run_bind_of_run (hall _), Decimal.value_padded, hyear, pure_bind]
      exact hdone
    · have hyear : ((y.natAbs : Nat) : Int) = y := by omega
      rw [if_neg hneg, List.cons_append, trimStart_of_mark rfl, run_get_bind]
      change StateT.run (set _ >>= _) _ = _
      rw [run_set_bind, run_bind_of_run (hall _), Decimal.value_padded, hyear, pure_bind]
      exact hdone

theorem fraction_run {nanos : Nat} (hnanos : nanos < 1000000000) :
    fraction.run (writeFraction nanos ++ ['Z']) = .ok (nanos, ['Z']) := by
  have hends : EndsDigits ['Z'] := by
    rintro c hc
    cases hc
    rfl
  have hscaled {width n : Nat} (hwidth : 0 < width) (hsmall : width ≤ 9) (hfits : n < 10 ^ width) :
      fraction.run ('.' :: Decimal.padded width n ++ ['Z']) = .ok (n * 10 ^ (9 - width), ['Z']) := by
    have hlength := Decimal.length_padded hwidth hfits
    have hroom : (Decimal.padded width n).length ≤ 9 := by omega
    have hdigits := digits_run ['Z'] (Decimal.padded_ne_nil width n) (fun _ => Decimal.isDigit_of_mem_padded) hroom
      (.inr hends)
    rw [fraction, List.cons_append, run_get_bind]
    change StateT.run (set _ >>= _) _ = _
    rw [run_set_bind, run_bind_of_run hdigits, Decimal.value_padded, hlength]
    rfl
  unfold writeFraction
  split_ifs with hzero hmillis hmicros
  · subst hzero
    rfl
  · rw [hscaled (by omega) (by omega) (by omega)]
    congr 2
    omega
  · rw [hscaled (by omega) (by omega) (by omega)]
    congr 2
    omega
  · rw [hscaled (by omega) (by omega) (by omega)]
    congr 2
    omega

/-- The parts of an instant as its text shows them: a leap second is second 60. -/
def ofTimestamp (t : Timestamp) : Parts where
  year := t.date.year
  month := t.date.month
  day := t.date.day
  hour := t.hour
  minute := t.minute
  second := t.second + t.nanos / 1000000000
  nanos := t.nanos % 1000000000
  offset := 0

theorem parts_run (t : Timestamp) : parts.run t.write = .ok (ofTimestamp t, []) := by
  obtain ⟨hfirst, hlast, hmonth, hmonth', hday, hday'⟩ := t.date.valid
  have hdays : Date.daysInMonth t.date.year t.date.month ≤ 31 := by
    unfold Date.daysInMonth
    split_ifs <;> omega
  have hhour := t.hour_lt
  have hminute := t.minute_lt
  have hsecond : t.second + t.nanos / 1000000000 ≤ 60 := by
    have := t.second_lt
    have := t.nanos_lt
    omega
  have hnanos : t.nanos % 1000000000 < 1000000000 := Nat.mod_lt _ (by decide)
  simp only [write, List.append_assoc, List.cons_append]
  unfold parts
  rw [run_bind_of_run (year_run hfirst hlast _),
    run_bind_of_run (separator_run rfl _), run_bind_of_run (number_run _ (by omega) (by omega) hmonth hmonth'),
    run_bind_of_run (separator_run rfl _), run_bind_of_run (number_run _ (by omega) (by omega) hday (by omega)),
    run_bind_of_run (dateEnd_run _), run_bind_of_run (number_run _ (by omega) (by omega) (by omega) (by omega)),
    run_bind_of_run (separator_run rfl _),
    run_bind_of_run (number_run _ (by omega) (by omega) (by omega) (by omega)),
    run_bind_of_run (separator_run rfl _),
    run_bind_of_run (number_run _ (by omega) (by omega) (by omega) hsecond),
    run_bind_of_run (fraction_run hnanos)]
  rfl

end Scan

theorem minutesEarlier?_zero (t : Timestamp) : t.minutesEarlier? 0 = some t := by
  have hhour := t.hour_lt
  have hminute := t.minute_lt
  have hclock : ¬ ((t.hour : Int) * 60 + t.minute - 0 < 0) := by omega
  have hday : (t.hour : Int) * 60 + t.minute - 0 < 1440 := by omega
  rw [minutesEarlier?, if_neg hclock, if_pos hday, Option.map_some, Option.some.injEq]
  ext
  case hour => dsimp only; omega
  case minute => dsimp only; omega
  all_goals rfl

/-- The parts of a proper instant make it up again: a leap second is shown as the second after the one that it is kept
in. -/
theorem ofParts_ofTimestamp {t : Timestamp} (h : t.IsProper) : ofParts (Scan.ofTimestamp t) = .ok t := by
  have hbound := t.nanos_lt
  have hsecond_lt := t.second_lt
  unfold IsProper at h
  have hdate : Date.ofFields? t.date.year t.date.month t.date.day = some t.date := dif_pos t.date.valid
  have hsecond : (if t.second + t.nanos / 1000000000 = 60 then 59 else t.second + t.nanos / 1000000000) = t.second := by
    split_ifs <;> omega
  have hnanos :
      (if t.second + t.nanos / 1000000000 = 60 then 1000000000 + t.nanos % 1000000000
        else t.nanos % 1000000000) = t.nanos := by
    split_ifs <;> omega
  unfold Scan.ofTimestamp ofParts
  simp only [hdate, hsecond, hnanos]
  rw [dif_pos ⟨t.hour_lt, t.minute_lt, t.second_lt, h.imp_right fun hlast => ⟨hlast, hbound⟩⟩, if_pos (by decide)]
  simp only [minutesEarlier?_zero t]

/-- **Round trip.** What was written is read again. -/
theorem read_write (t : Timestamp) : read t.write = .ok t.asWritten := by
  have hparts := Scan.parts_run t.asWritten
  rw [write_asWritten] at hparts
  rw [read, hparts]
  exact ofParts_ofTimestamp t.isProper_asWritten

end LeaderLease.Timestamp
