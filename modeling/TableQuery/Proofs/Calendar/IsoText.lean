import TableQuery.Calendar.Iso
import TableQuery.Proofs.Calendar.Printed

/-!
# Reading printed moments

The reader of the international form gives back the date, the time and the offset that were
printed. Only an offset of less than a second is taken for that of universal time.
-/

namespace TableQuery.Calendar.Iso

open TableQuery.Text

section Lengths

theorem byteLength_append (s t : List Char) :
    byteLength (s ++ t) = byteLength s + byteLength t := by
  induction s with
  | nil => exact (Nat.zero_add _).symm
  | cons c s ih => rw [List.cons_append, byteLength, byteLength, ih, Nat.add_assoc]

theorem length_le_byteLength (s : List Char) : s.length ≤ byteLength s := by
  induction s with
  | nil => exact Nat.le_refl 0
  | cons c s ih =>
      have hc := c.utf8Size_pos
      rw [List.length_cons, byteLength]
      omega

theorem byteLength_eq_length {s : List Char} (h : ∀ c ∈ s, c.utf8Size = 1) :
    byteLength s = s.length := by
  induction s with
  | nil => rfl
  | cons c s ih =>
      rw [List.forall_mem_cons] at h
      rw [byteLength, h.1, ih h.2, Nat.add_comm, List.length_cons]

theorem utf8Size_of_isAsciiDigit : ∀ c, isAsciiDigit c = true → c.utf8Size = 1 :=
  forall_of_isAsciiDigit (by decide)

theorem byteLength_padded {width n : Nat} (h : n < 10 ^ (width + 1)) :
    byteLength (padded (width + 1) n) = width + 1 := by
  rw [byteLength_eq_length fun c hc => utf8Size_of_isAsciiDigit c (isAsciiDigit_of_mem_padded hc),
    length_padded h]

end Lengths

section Digits

theorem digits?_add (m k acc : Nat) (s : List Char) :
    digits? (m + k) acc s = (digits? m acc s).bind fun r => digits? k r.1 r.2 := by
  induction m generalizing acc s with
  | zero => rw [Nat.zero_add]; rfl
  | succ m ih =>
      rw [Nat.succ_add]
      cases s with
      | nil => rfl
      | cons c s =>
          rw [digits?, digits?]
          split_ifs
          · exact ih _ s
          · rfl

theorem digits?_lastDigits (width n acc : Nat) (rest : List Char) :
    digits? width acc (lastDigits width n ++ rest) =
      some (acc * 10 ^ width + n % 10 ^ width, rest) := by
  induction width generalizing n rest with
  | zero => simp [digits?, lastDigits, Nat.mod_one]
  | succ width ih =>
      have hdigit : ∀ d < 10, isAsciiDigit d.digitChar = true ∧ d.digitChar.toNat - 48 = d := by
        decide
      obtain ⟨hascii, hvalue⟩ := hdigit (n % 10) (Nat.mod_lt n (by decide))
      have hmod := Nat.mod_mul (a := 10) (b := 10 ^ width) (x := n)
      rw [lastDigits, List.append_assoc, digits?_add, ih, Option.bind_some, List.singleton_append,
        digits?, if_pos hascii, hvalue, digits?, Nat.pow_succ', hmod]
      congr 2
      rw [Nat.add_mul, Nat.mul_assoc, Nat.mul_comm (10 ^ width), Nat.add_assoc,
        Nat.add_comm (n % 10), Nat.mul_comm 10 (n / 10 % 10 ^ width)]

theorem digits?_padded {width n : Nat} (h : n < 10 ^ (width + 1)) (rest : List Char) :
    digits? (width + 1) 0 (padded (width + 1) n ++ rest) = some (n, rest) := by
  rw [padded_eq_lastDigits h, digits?_lastDigits, Nat.zero_mul, Nat.zero_add, Nat.mod_eq_of_lt h]

theorem digits?_append_cons {ds : List Char} {c : Char} (hc : isAsciiDigit c = false) {n : Nat}
    (h : ds.length < n) (acc : Nat) (rest : List Char) :
    digits? n acc (ds ++ c :: rest) = none := by
  induction ds generalizing n acc with
  | nil =>
      obtain ⟨n, rfl⟩ := Nat.exists_eq_succ_of_ne_zero (Nat.ne_of_gt h)
      rw [List.nil_append, digits?, hc]
      rfl
  | cons d ds ih =>
      obtain ⟨n, rfl⟩ := Nat.exists_eq_succ_of_ne_zero (Nat.ne_of_gt (Nat.zero_lt_of_lt h))
      rw [List.cons_append, digits?]
      split_ifs
      · exact ih (Nat.lt_of_succ_lt_succ h) _
      · rfl

theorem exists_digits?_append {ds : List Char} (hds : ∀ d ∈ ds, isAsciiDigit d = true)
    (acc : Nat) (rest : List Char) : ∃ n, digits? ds.length acc (ds ++ rest) = some (n, rest) := by
  induction ds generalizing acc with
  | nil => exact ⟨acc, rfl⟩
  | cons d ds ih =>
      rw [List.forall_mem_cons] at hds
      rw [List.length_cons, List.cons_append, digits?, if_pos hds.1]
      exact ih hds.2 _

/-- Every date starts with a year of four digits. -/
theorem date?_append_cons {ds : List Char} {c : Char} (hc : isAsciiDigit c = false)
    (h : ds.length < 4) (rest : List Char) (length : Nat) :
    date? length (ds ++ c :: rest) = none := by
  rw [date?, digits?_append_cons hc h]

theorem read?_of_date? {s : List Char} (h : ∀ length, date? length s = none) : read? s = none := by
  rw [read?]
  split_ifs
  · rfl
  · dsimp only
    rw [h]

end Digits

section Dates

variable (d : Date) (rest : List Char)

theorem chars_append : d.chars ++ rest = padded 4 d.year ++ '-' ::
    (padded 2 d.month ++ '-' :: (padded 2 d.day ++ rest)) := by
  simp [Date.chars]

theorem exists_month_eq_cons : ∃ c s, padded 2 d.month = c :: s ∧ c ≠ 'W' := by
  obtain ⟨c, s, hmonth, hc⟩ := exists_padded_eq_cons d.month_lt
  exact ⟨c, s, hmonth, forall_of_isAsciiDigit (P := (· ≠ 'W')) (by decide) c hc⟩

theorem dateLength_chars (h : byteLength (d.chars ++ rest) ≠ 7) :
    dateLength (d.chars ++ rest) = 10 := by
  obtain ⟨c, s, hmonth, hc⟩ := exists_month_eq_cons d
  have h4 : (d.chars ++ rest).drop 4 = '-' :: (padded 2 d.month ++ '-' ::
      (padded 2 d.day ++ rest)) := by
    rw [chars_append, List.drop_left' (length_padded d.year_lt)]
  have h5 : (d.chars ++ rest).drop 5 = padded 2 d.month ++ '-' :: (padded 2 d.day ++ rest) := by
    rw [show 5 = 4 + 1 from rfl, ← List.drop_drop, h4, List.drop_one, List.tail_cons]
  rw [dateLength]
  simp only [if_neg h, h4, h5, hmonth, headChar, List.cons_append, beq_self_eq_true, if_true,
    beq_iff_eq, hc, if_false]

theorem date?_chars : date? 10 (d.chars ++ rest) = some d := by
  obtain ⟨c, s, hmonth, hc⟩ := exists_month_eq_cons d
  have hread : monthDate? d.year true 5
      (padded 2 d.month ++ '-' :: (padded 2 d.day ++ rest)) = some d := by
    rw [monthDate?, digits?_padded d.month_lt]
    simp only [headChar, bne_self_eq_false, Bool.and_false, Bool.false_eq_true, if_false, if_true,
      List.drop_one, List.tail_cons]
    rw [digits?_padded d.day_lt]
    simp only [Date.of?_eq_some_iff, and_self]
  rw [date?, chars_append, digits?_padded d.year_lt]
  simp only [headChar, beq_self_eq_true, if_true, List.drop_one, List.tail_cons]
  rw [← hread, hmonth, List.cons_append]
  split
  · next week heq => exact absurd (List.cons.inj heq).1 hc
  · rfl

end Dates

section Clocks

variable {left n : Nat} {fields : List Nat} (hn : n < 10 ^ 2)
include hn

theorem clock?_colon {room : Nat} {colons : Option Bool} (hroom : 3 < room)
    (hcolons : colons.getD true = true) (rest : List Char) :
    clock? (left + 1) fields colons room (padded 2 n ++ ':' :: rest) =
      clock? left (fields ++ [n]) (some true) (room - 3) rest := by
  rw [clock?, digits?_padded hn]
  simp [headChar, hcolons, Nat.not_le.2 hroom]

theorem clock?_end {room : Nat} (hroom : room ≤ 3) (colons : Option Bool) (rest : List Char) :
    clock? (left + 1) fields colons room (padded 2 n ++ rest) =
      some ⟨fields ++ [n], 0, headChar rest != '\x00'⟩ := by
  rw [clock?, digits?_padded hn]
  simp only [if_pos hroom]

theorem clock?_fraction {micro : Nat} (hmicro : micro < 10 ^ 6) (rest : List Char) :
    clock? (left + 1) fields (some true) 9 (padded 2 n ++ '.' :: (padded 6 micro ++ rest)) =
      some ⟨fields ++ [n], micro, headChar (rest.dropWhile isAsciiDigit) != '\x00'⟩ := by
  have hone : tenPow 0 = 1 := rfl
  rw [clock?, digits?_padded hn]
  simp [headChar, fraction?, digits?_padded hmicro, hone]

end Clocks

/-- Reading a printed time gives its fields, whatever follows that starts with no digit. -/
theorem clock?_timeChars (t : TimeOfDay) {rest : List Char}
    (hrest : rest.dropWhile isAsciiDigit = rest) :
    clock? 3 [] none (byteLength t.chars) (t.chars ++ rest) =
      some ⟨[t.hour, t.minute, t.second], t.micro, headChar rest != '\x00'⟩ := by
  have hminute := lt_hundred_of_lt_sixty t.minute_lt
  have hsecond := lt_hundred_of_lt_sixty t.second_lt
  rw [byteLength_eq_length (t.forall_mem_chars utf8Size_of_isAsciiDigit rfl rfl), t.length_chars,
    TimeOfDay.chars, fractionText]
  split_ifs with hmicro
  · simp only [List.append_assoc, List.cons_append, List.append_nil]
    rw [clock?_colon t.hour_lt (by decide) rfl, clock?_colon hminute (by decide) rfl,
      clock?_end hsecond (by decide), hmicro]
    rfl
  · simp only [List.append_assoc, List.cons_append]
    rw [clock?_colon t.hour_lt (by decide) rfl, clock?_colon hminute (by decide) rfl,
      clock?_fraction hsecond t.micro_lt, hrest]
    rfl

theorem offset?_of_clock {sign : Char} (hsign : sign ≠ 'Z') {s : List Char} {fields : List Nat}
    {micros : Nat} (h : clock? 3 [] none (byteLength s) s = some ⟨fields, micros, false⟩)
    {seconds : Nat}
    (hseconds : fields.getD 0 0 * 3600 + fields.getD 1 0 * 60 + fields.getD 2 0 = seconds) :
    offset? (sign :: s) = if seconds = 0 then some .zero
      else Offset.of? (if sign == '-' then -(seconds * 1000000 + micros : Nat)
        else (seconds * 1000000 + micros : Nat)) := by
  subst hseconds
  rw [offset?.eq_def]
  split
  · next heq => cases heq
  · next heq => exact absurd (List.cons.inj heq).1 hsign
  · next heq =>
      obtain ⟨rfl, rfl⟩ := List.cons.inj heq
      simp only [h]

section Offsets

variable (o : Offset)

/-- The offset that is read where an offset was printed: one of less than a second is lost. -/
def readOffset : Offset :=
  if o.micros.natAbs < 1000000 then .zero else o

theorem offset?_of_clock_size {s : List Char} {fields : List Nat}
    (h : clock? 3 [] none (byteLength s) s = some ⟨fields, o.size.micro, false⟩)
    (hfields : fields.getD 0 0 * 3600 + fields.getD 1 0 * 60 + fields.getD 2 0 =
      o.micros.natAbs / 1000000) :
    offset? ((if o.micros < 0 then '-' else '+') :: s) = some (readOffset o) := by
  have hsign : (if o.micros < 0 then '-' else '+') ≠ 'Z' := by
    split_ifs <;> decide
  have htotal : o.micros.natAbs / 1000000 * 1000000 + o.size.micro = o.micros.natAbs :=
    Nat.div_add_mod' _ _
  have hsigned : (if (if o.micros < 0 then '-' else '+') == '-' then -(o.micros.natAbs : Int)
      else o.micros.natAbs) = o.micros := by
    by_cases hneg : o.micros < 0
    · rw [if_pos hneg, if_pos (by decide)]
      omega
    · rw [if_neg hneg, if_neg (by decide)]
      omega
  have hself : Offset.of? o.micros = some o := dif_pos o.lt_day
  rw [offset?_of_clock hsign h hfields, htotal, hsigned, hself, readOffset]
  split_ifs with hseconds hlt hlt
  · rfl
  · omega
  · omega
  · rfl

theorem offset?_chars : offset? o.chars = some (readOffset o) := by
  have hminute := lt_hundred_of_lt_sixty o.size.minute_lt
  have hmicros : o.micros.natAbs =
      ((o.size.hour * 60 + o.size.minute) * 60 + o.size.second) * 10 ^ 6 + o.size.micro :=
    o.size.micros_eq
  have hmicro := o.size.micro_lt
  by_cases hshort : o.size.second = 0 ∧ o.size.micro = 0
  · rw [o.chars_eq, if_pos hshort]
    apply offset?_of_clock_size
    · have hroom :
          byteLength (padded 2 o.size.hour ++ ':' :: (padded 2 o.size.minute ++ [])) = 5 := by
        rw [byteLength_append, ← List.singleton_append, byteLength_append, byteLength_append,
          byteLength_padded o.size.hour_lt, byteLength_padded hminute]
        rfl
      rw [hroom, clock?_colon o.size.hour_lt (by decide) rfl, clock?_end hminute (by decide),
        hshort.2]
      rfl
    · change o.size.hour * 3600 + o.size.minute * 60 + 0 = _
      omega
  · have hclock : clock? 3 [] none (byteLength o.size.chars) (o.size.chars ++ []) = _ :=
      clock?_timeChars o.size rfl
    rw [List.append_nil] at hclock
    rw [o.chars_eq, if_neg hshort]
    refine offset?_of_clock_size o hclock ?_
    change o.size.hour * 3600 + o.size.minute * 60 + o.size.second = _
    omega

end Offsets

/-- What may follow a printed time: an offset, or nothing. -/
def offsetChars : Option Offset → List Char
  | none => []
  | some o => o.chars

section Moments

variable (t : TimeOfDay) (o : Option Offset)

theorem startsOffset_of_mem_timeChars : ∀ c ∈ t.chars, (!startsOffset c) = true :=
  t.forall_mem_chars (forall_of_isAsciiDigit (by decide)) (by decide) (by decide)

/-- The time ends where an offset starts. -/
theorem time?_append {rest : List Char} (htake : rest.takeWhile (fun c => !startsOffset c) = [])
    (hdrop : rest.dropWhile (fun c => !startsOffset c) = rest)
    (hdigit : rest.dropWhile isAsciiDigit = rest) :
    time? (t.chars ++ rest) =
      if rest.isEmpty then (if headChar rest != '\x00' then none else some (t, none))
      else (offset? rest).map fun o => (t, some o) := by
  have hbefore := startsOffset_of_mem_timeChars t
  rw [time?, List.takeWhile_append_of_pos hbefore, List.dropWhile_append_of_pos hbefore, htake,
    hdrop, List.append_nil, clock?_timeChars t hdigit]
  simp only [List.getD_cons_zero, List.getD_cons_succ, t.of?_fields]

theorem time?_chars : time? (t.chars ++ offsetChars o) = some (t, o.map readOffset) := by
  cases o with
  | none => exact time?_append t rfl rfl rfl
  | some o =>
      obtain ⟨sign, s, hchars, hsign, hdigit⟩ : ∃ sign s, o.chars = sign :: s ∧
          startsOffset sign = true ∧ isAsciiDigit sign = false := by
        refine ⟨_, _, rfl, ?_⟩
        split_ifs <;> decide
      have hread := time?_append t (by simp [hsign] : (sign :: s).takeWhile _ = [])
        (by simp [hsign]) (by simp [hdigit])
      rw [← hchars] at hread
      rw [offsetChars, hread, offset?_chars, hchars]
      rfl

end Moments

theorem read?_dateChars (d : Date) : read? d.chars = some (.ofDate d, none) := by
  have hlength := d.length_chars
  have hdate := date?_chars d []
  have hdateLength := dateLength_chars d []
  rw [List.append_nil] at hdate hdateLength
  have hdrop : d.chars.drop 10 = [] := List.drop_eq_nil_of_le (Nat.le_of_eq hlength)
  have hlong := length_le_byteLength d.chars
  rw [read?, if_neg (by omega), hdateLength (by omega)]
  simp only [hdate, hdrop]

theorem read?_chars (t : Timestamp) (sep : Char) (o : Option Offset) :
    read? (t.chars sep ++ offsetChars o) = some (t, o.map readOffset) := by
  have hlength := t.date.length_chars
  have hdrop : (t.date.chars ++ sep :: (t.time.chars ++ offsetChars o)).drop 10 =
      sep :: (t.time.chars ++ offsetChars o) := List.drop_left' hlength
  have hlong : 10 < byteLength (t.date.chars ++ sep :: (t.time.chars ++ offsetChars o)) := by
    refine Nat.lt_of_lt_of_le ?_ (length_le_byteLength _)
    rw [List.length_append, hlength, List.length_cons]
    omega
  rw [Timestamp.chars, List.append_assoc, List.cons_append, read?, if_neg (by omega),
    dateLength_chars t.date _ (by omega)]
  simp only [date?_chars, hdrop, time?_chars, Option.map_some]

end TableQuery.Calendar.Iso
