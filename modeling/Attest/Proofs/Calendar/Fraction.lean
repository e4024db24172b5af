import Attest.Proofs.Calendar.Front
import Attest.Proofs.Calendar.Seconds
import Attest.Proofs.Number.Numeral
import Attest.Proofs.Text.Utf8
import Mathlib.Tactic.Ring

/-! Reading a time with a fraction of a second. The fraction gives the microseconds and nothing else:
without it the same day, time and offset are read. -/

namespace Attest

namespace Iso8601

/-- Two digits for each of some numbers, with colons in between or without. -/
def joined (colons : Bool) : List Nat → List Char
  | [] => []
  | [n] => DateTime.padded 2 n
  | n :: m :: rest =>
    if colons then DateTime.padded 2 n ++ ':' :: joined colons (m :: rest)
    else DateTime.padded 2 n ++ joined colons (m :: rest)

section Time

variable {n : Nat} (hn : n < 100) (fuel : Nat) (values : List Nat) (colons : Bool) (after : Bytes)
include hn

/-- What is read after two digits depends on the byte behind them. -/
theorem time_step {b : UInt8} (hb : b ≠ 0) {rest : Bytes} (hrest : rest ≠ []) {next : Bool}
    (hnext : (if values = [] then b == byte ':' else colons) = next) :
    time (fuel + 1) values colons ((DateTime.padded 2 n).map byte ++ b :: rest) after =
      if next && b == byte ':' then time fuel (values ++ [n]) next rest after
      else if b == byte '.' || b == byte ',' then fraction (values ++ [n]) rest after
      else if next then none else time fuel (values ++ [n]) next (b :: rest) after := by
  have hmore : ¬(b :: rest).length ≤ 1 := by
    have := List.length_pos_iff.mpr hrest
    rw [List.length_cons]
    omega
  have hhead : next? (b :: (rest ++ after)) = some b := by
    simp [next?, hb]
  have hfirst : ((values ++ [n]).length = 1) = (values = []) := by simp
  rw [time, number_padded (by decide) hn]
  simp only [Option.bind_eq_bind, Option.bind_some, List.cons_append, hhead, hmore, if_false,
    List.tail_cons, hfirst]
  subst hnext
  rfl

theorem time_point {point : Char} (hpoint : point = '.' ∨ point = ',') {digits : Bytes}
    (hdigits : digits ≠ []) :
    time (fuel + 1) values colons ((DateTime.padded 2 n).map byte ++ byte point :: digits) after =
      fraction (values ++ [n]) digits after := by
  have hcolon : (byte point == byte ':') = false := by rcases hpoint with rfl | rfl <;> decide
  have hbegins : (byte point == byte '.' || byte point == byte ',') = true := by
    rcases hpoint with rfl | rfl <;> decide
  have hzero : byte point ≠ 0 := by rcases hpoint with rfl | rfl <;> decide
  rw [time_step hn fuel values colons after hzero hdigits rfl, hcolon, Bool.and_false, hbegins]
  rfl

end Time

theorem joined_cons (colons : Bool) {n : Nat} (hn : n < 100) (rest : List Nat) :
    ∃ d e tail, d < 10 ∧ joined colons (n :: rest) = Nat.digitChar d :: e :: tail := by
  have hpadded : DateTime.padded 2 n =
      [Nat.digitChar (n / 10 ^ 1 % 10), Nat.digitChar (n / 10 ^ 0 % 10)] :=
    DateTime.padded_eq_map (by decide) hn
  have hd : n / 10 ^ 1 % 10 < 10 := Nat.mod_lt _ (by decide)
  cases rest with
  | nil => exact ⟨_, _, [], hd, hpadded⟩
  | cons m rest =>
    unfold joined
    rw [hpadded]
    split <;> exact ⟨_, _, _, hd, rfl⟩

section Fields

variable {fields : List Nat} (hfields : ∀ n ∈ fields, n < 100)
include hfields

/-- Once a field is read it is known whether there are colons. -/
theorem time_joined_next {n m : Nat} {rest : List Nat} (h : fields = n :: m :: rest) {colons start : Bool}
    {values : List Nat} (hstart : values = [] ∨ start = colons) (fuel : Nat) (x after : Bytes) :
    time (fuel + 1) values start ((joined colons fields).map byte ++ x) after =
      time fuel (values ++ [n]) colons ((joined colons (m :: rest)).map byte ++ x) after := by
  subst h
  obtain ⟨hn, hm⟩ := List.forall_mem_cons.mp hfields
  obtain ⟨d, e, tail, hd, hnext⟩ := joined_cons colons (hm m List.mem_cons_self) rest
  cases colons with
  | true =>
    have htext : (joined true (n :: m :: rest)).map byte ++ x = (DateTime.padded 2 n).map byte ++
        byte ':' :: ((joined true (m :: rest)).map byte ++ x) := by simp [joined]
    have hcolons : (if values = [] then byte ':' == byte ':' else start) = true := by
      rcases hstart with rfl | rfl
      · rfl
      · exact ite_self _
    rw [htext, time_step hn fuel values start after (by decide) (by simp [hnext]) hcolons]
    rfl
  | false =>
    have htext : (joined false (n :: m :: rest)).map byte ++ x = (DateTime.padded 2 n).map byte ++
        byte (Nat.digitChar d) :: (byte e :: (tail.map byte ++ x)) := by simp [joined, hnext]
    have hne {b : UInt8} (hb : digit? b = none) : (byte (Nat.digitChar d) == b) = false :=
      beq_eq_false_iff_ne.mpr (byte_digitChar_ne hd hb)
    have hcolons : (if values = [] then byte (Nat.digitChar d) == byte ':' else start) = false := by
      rcases hstart with rfl | rfl
      · exact hne (by decide)
      · rw [hne (by decide), ite_self]
    rw [htext, time_step hn fuel values start after (byte_digitChar_ne hd (by decide))
      (List.cons_ne_nil _ _) hcolons, hne (show digit? (byte '.') = none by decide),
      hne (show digit? (byte ',') = none by decide), hnext]
    rfl

/-- All fields are read, and what is between them and the offset is the fraction. -/
theorem time_joined (hne : fields ≠ []) {fuel : Nat} (hfuel : fields.length ≤ fuel)
    {colons start : Bool} {values : List Nat} (hstart : values = [] ∨ start = colons) (after : Bytes) :
    time fuel values start ((joined colons fields).map byte) after =
      some (Fields.ofList (values ++ fields) 0, (next? after).isSome) := by
  induction fields generalizing fuel values start with
  | nil => exact absurd rfl hne
  | cons n rest ih =>
    obtain ⟨fuel, rfl⟩ : ∃ k, fuel = k + 1 := ⟨fuel - 1, by simp at hfuel; omega⟩
    cases rest with
    | nil => exact time_last (hfields n List.mem_cons_self) fuel values start after
    | cons m rest =>
      have hnext := time_joined_next hfields rfl hstart fuel [] after
      rw [List.append_nil, List.append_nil] at hnext
      rw [hnext, ih (List.forall_mem_cons.mp hfields).2 (List.cons_ne_nil _ _)
        (Nat.le_of_succ_le_succ hfuel) (.inr rfl), List.append_assoc]
      rfl

theorem time_joined_point (hne : fields ≠ []) {fuel : Nat} (hfuel : fields.length ≤ fuel)
    {colons start : Bool} {values : List Nat} (hstart : values = [] ∨ start = colons)
    {point : Char} (hpoint : point = '.' ∨ point = ',') {digits : Bytes} (hdigits : digits ≠ [])
    (after : Bytes) :
    time fuel values start ((joined colons fields).map byte ++ byte point :: digits) after =
      fraction (values ++ fields) digits after := by
  induction fields generalizing fuel values start with
  | nil => exact absurd rfl hne
  | cons n rest ih =>
    obtain ⟨fuel, rfl⟩ : ∃ k, fuel = k + 1 := ⟨fuel - 1, by simp at hfuel; omega⟩
    cases rest with
    | nil => exact time_point (hfields n List.mem_cons_self) fuel values start after hpoint hdigits
    | cons m rest =>
      rw [time_joined_next hfields rfl hstart, ih (List.forall_mem_cons.mp hfields).2
        (List.cons_ne_nil _ _) (Nat.le_of_succ_le_succ hfuel) (.inr rfl), List.append_assoc]
      rfl

end Fields

theorem digit?_byte {c : Char} (h : c.isDigit = true) : digit? (byte c) = some (c.toNat - '0'.toNat) := by
  simp only [Char.isDigit, Bool.and_eq_true, decide_eq_true_eq] at h
  have hlow : 0x30 ≤ c.toNat := h.1
  have hhigh : c.toNat ≤ 0x39 := h.2
  have hbyte : (byte c).toNat = c.toNat := Text.Utf8.toNat_byte (by omega)
  have hrange : (0x30 ≤ byte c && byte c ≤ 0x39) = true := by
    rw [Bool.and_eq_true, decide_eq_true_eq, decide_eq_true_eq, UInt8.le_iff_toNat_le,
      UInt8.le_iff_toNat_le, hbyte]
    exact ⟨hlow, hhigh⟩
  rw [digit?, if_pos hrange, hbyte]
  rfl

section Digits

variable {digits : List Char} (hdigits : ∀ c ∈ digits, c.isDigit = true)
include hdigits

theorem isDigit_bytes : ∀ b ∈ digits.map byte, isDigit b = true := by
  intro b hb
  obtain ⟨c, hc, rfl⟩ := List.mem_map.mp hb
  rw [isDigit, digit?_byte (hdigits c hc)]
  rfl

theorem numberAfter_digits {width : Nat} (hwidth : width ≤ digits.length) (n : Nat) :
    numberAfter n width (digits.map byte) =
      some (Nat.ofDigitChars 10 (digits.take width) n, (digits.drop width).map byte) := by
  induction width generalizing digits n with
  | zero =>
    unfold numberAfter
    rfl
  | succ width ih =>
    cases digits with
    | nil => simp at hwidth
    | cons c digits =>
      obtain ⟨hc, hrest⟩ := List.forall_mem_cons.mp hdigits
      rw [List.map_cons, numberAfter, digit?_byte hc]
      exact ih hrest (Nat.le_of_succ_le_succ hwidth) _

end Digits

theorem dropWhile_eq_self {p : UInt8 → Bool} {x : Bytes} (hx : x.takeWhile p = []) :
    x.dropWhile p = x := by
  have happend := List.takeWhile_append_dropWhile (p := p) (l := x)
  rw [hx, List.nil_append] at happend
  exact happend

/-- The microseconds that the decimal places of a second give, of which six count. -/
def microsecondsOf (digits : List Char) : Nat :=
  natOfDigits (digits.take (min digits.length 6)) * 10 ^ (6 - min digits.length 6)

theorem fraction_digits {digits : List Char} (h : ∀ c ∈ digits, c.isDigit = true)
    {after : Bytes} (hafter : after.takeWhile isDigit = []) (values : List Nat) :
    fraction values (digits.map byte) after =
      some (Fields.ofList values (microsecondsOf digits), (next? after).isSome) := by
  have hnumber := numberAfter_digits h (Nat.min_le_left digits.length 6) 0
  have hrest : ((digits.drop (min digits.length 6)).map byte ++ after).dropWhile isDigit = after := by
    rw [List.dropWhile_append_of_pos (isDigit_bytes fun c hc => h c (List.mem_of_mem_drop hc))]
    exact dropWhile_eq_self hafter
  unfold fraction number
  rw [List.length_map]
  simp only [hnumber, Option.bind_eq_bind, Option.bind_some, hrest]
  rfl

/-- The microseconds are what the places give, less than one being left out. -/
theorem microsecondsOf_bounds {digits : List Char} (h : ∀ c ∈ digits, c.isDigit = true) :
    microsecondsOf digits * 10 ^ digits.length ≤ natOfDigits digits * microsecondsPerSecond ∧
      natOfDigits digits * microsecondsPerSecond < (microsecondsOf digits + 1) * 10 ^ digits.length := by
  obtain ⟨width, hwidth⟩ : ∃ width, width = min digits.length 6 := ⟨_, rfl⟩
  obtain ⟨k, hk⟩ : ∃ k, width + k = digits.length := ⟨digits.length - width, by omega⟩
  have hlength : (digits.drop width).length = k := by
    rw [List.length_drop]
    omega
  have hless : natOfDigits (digits.drop width) < 10 ^ k := by
    rw [← hlength]
    exact natOfDigits_lt fun c hc => h c (List.mem_of_mem_drop hc)
  have hsum : natOfDigits digits = natOfDigits (digits.take width) * 10 ^ k + natOfDigits (digits.drop width) := by
    rw [← hlength, ← natOfDigits_append, List.take_append_drop]
  have hsix : microsecondsPerSecond = 10 ^ width * 10 ^ (6 - width) := by
    rw [← Nat.pow_add, show width + (6 - width) = 6 by omega]
    rfl
  -- If digits are left out then six count, and what is left out is less than one of the last place.
  have hout : natOfDigits (digits.drop width) * microsecondsPerSecond < 10 ^ width * 10 ^ k := by
    rw [hsix]
    rcases Nat.eq_zero_or_pos k with rfl | hpos
    · obtain hnone : natOfDigits (digits.drop width) = 0 := Nat.lt_one_iff.mp hless
      rw [hnone, Nat.zero_mul]
      exact Nat.mul_pos (Nat.pow_pos (by decide)) Nat.one_pos
    · obtain rfl : width = 6 := by omega
      rw [Nat.sub_self, Nat.pow_zero, Nat.mul_one, Nat.mul_comm (10 ^ 6)]
      exact Nat.mul_lt_mul_of_pos_right hless (by decide)
  have hin : natOfDigits digits * microsecondsPerSecond =
      microsecondsOf digits * 10 ^ digits.length +
        natOfDigits (digits.drop width) * microsecondsPerSecond := by
    rw [hsum, Nat.add_mul, microsecondsOf, ← hwidth, ← hk, Nat.pow_add, hsix]
    ring
  rw [Nat.add_mul, Nat.one_mul, hin, ← hk, Nat.pow_add]
  exact ⟨Nat.le_add_right _ _, Nat.add_lt_add_left hout _⟩

/-- What may stand behind a time of day: nothing, or an offset. -/
inductive IsZone : Bytes → Prop
  | none : IsZone []
  | offset {sign : UInt8} (h : beginsOffset sign = true) (rest : Bytes) : IsZone (sign :: rest)

theorem isDigit_of_beginsOffset {b : UInt8} (h : beginsOffset b = true) : isDigit b = false := by
  simp only [beginsOffset, Bool.or_eq_true, beq_iff_eq] at h
  rcases h with (rfl | rfl) | rfl <;> decide

section Zone

variable {zone : Bytes} (hzone : IsZone zone)
include hzone

theorem takeWhile_isDigit_zone : zone.takeWhile isDigit = [] := by
  cases hzone with
  | none => rfl
  | offset h rest => rw [List.takeWhile_cons_of_neg (by rw [isDigit_of_beginsOffset h]; decide)]

theorem takeWhile_zone : zone.takeWhile (fun b => !beginsOffset b) = [] := by
  cases hzone with
  | none => rfl
  | offset h rest => rw [List.takeWhile_cons_of_neg (by simp [h])]

/-- The offset that stands behind a time of day. It is not asked for if something else follows. -/
def offsetBehind (zone : Bytes) (more : Bool) : Option (Option Offset) :=
  match zone with
  | [] => if more then none else some none
  | sign :: rest => (offset sign rest).map some

theorem timeAndOffset_zone {before : Bytes} (hbefore : ∀ b ∈ before, (!beginsOffset b) = true)
    {fields : Fields} {more : Bool} (htime : time 3 [] true before zone = some (fields, more)) :
    timeAndOffset (before ++ zone) =
      (TimeOfDay.of? fields.hour fields.minute fields.second fields.microsecond).bind fun clock =>
        (offsetBehind zone more).map (clock, ·) := by
  unfold timeAndOffset
  rw [List.takeWhile_append_of_pos hbefore, List.dropWhile_append_of_pos hbefore,
    takeWhile_zone hzone, dropWhile_eq_self (takeWhile_zone hzone), List.append_nil]
  simp only [htime, Option.bind_eq_bind, Option.bind_some]
  apply Option.bind_congr
  intro clock _
  cases zone with
  | nil => cases more <;> rfl
  | cons sign rest =>
    simp only [offsetBehind]
    cases offset sign rest <;> rfl

end Zone

theorem beginsOffset_joined (colons : Bool) {fields : List Nat} (hfields : ∀ n ∈ fields, n < 100) :
    ∀ b ∈ (joined colons fields).map byte, (!beginsOffset b) = true := by
  induction fields with
  | nil => exact nofun
  | cons n rest ih =>
    obtain ⟨hn, hrest⟩ := List.forall_mem_cons.mp hfields
    cases rest with
    | nil => exact beginsOffset_padded hn
    | cons m rest =>
      unfold joined
      split
      · rw [List.map_append, List.map_cons, List.forall_mem_append, List.forall_mem_cons]
        exact ⟨beginsOffset_padded hn, by decide, ih hrest⟩
      · rw [List.map_append, List.forall_mem_append]
        exact ⟨beginsOffset_padded hn, ih hrest⟩

theorem of?_without_microsecond {hour minute second microsecond : Nat} {clock : TimeOfDay}
    (h : TimeOfDay.of? hour minute second microsecond = some clock) :
    clock.microsecond = microsecond ∧ TimeOfDay.of? hour minute second 0 =
      some { clock with microsecond := ⟨0, microsecondsPerSecond_pos⟩ } := by
  unfold TimeOfDay.of? at h ⊢
  split at h
  · rename_i hrange
    cases h
    exact ⟨rfl, dif_pos ⟨hrange.1, hrange.2.1, hrange.2.2.1, by decide⟩⟩
  · cases h

theorem timeAndOffset_without_fraction {colons : Bool} {fields : List Nat}
    (hfields : ∀ n ∈ fields, n < 100) (hne : fields ≠ []) (hthree : fields.length ≤ 3) {point : Char}
    (hpoint : point = '.' ∨ point = ',') {digits : List Char} (hdigits : ∀ c ∈ digits, c.isDigit = true)
    (hsome : digits ≠ []) {zone : Bytes} (hzone : IsZone zone) {clock : TimeOfDay}
    {offset : Option Offset}
    (h : timeAndOffset ((joined colons fields).map byte ++ byte point :: digits.map byte ++ zone) =
      some (clock, offset)) :
    clock.microsecond = microsecondsOf digits ∧
      timeAndOffset ((joined colons fields).map byte ++ zone) =
        some ({ clock with microsecond := ⟨0, microsecondsPerSecond_pos⟩ }, offset) := by
  have hjoined := beginsOffset_joined colons hfields
  have hpointDigits : ∀ b ∈ byte point :: digits.map byte, (!beginsOffset b) = true := by
    refine List.forall_mem_cons.mpr ⟨by rcases hpoint with rfl | rfl <;> decide, fun b hb => ?_⟩
    rw [Bool.not_eq_true', Bool.eq_false_iff]
    intro hbegins
    exact Bool.false_ne_true ((isDigit_of_beginsOffset hbegins).symm.trans (isDigit_bytes hdigits b hb))
  have hfraction := fraction_digits hdigits (takeWhile_isDigit_zone hzone) fields
  have hstart : ([] : List Nat) = [] ∨ true = colons := .inl rfl
  have hbytes : digits.map byte ≠ [] := fun hnil => hsome (List.map_eq_nil_iff.mp hnil)
  have hwith := time_joined_point hfields hne hthree hstart hpoint hbytes zone
  have hwithout := time_joined hfields hne hthree hstart zone
  rw [List.nil_append] at hwith hwithout
  rw [timeAndOffset_zone hzone (List.forall_mem_append.mpr ⟨hjoined, hpointDigits⟩)
    (hwith.trans hfraction), Option.bind_eq_some_iff] at h
  obtain ⟨clock', hclock, h⟩ := h
  obtain ⟨offset', hoffset, hpair⟩ := Option.map_eq_some_iff.mp h
  obtain ⟨rfl, rfl⟩ := Prod.mk.inj hpair
  obtain ⟨hmicrosecond, hwhole⟩ := of?_without_microsecond hclock
  have hzero : TimeOfDay.of? (Fields.ofList fields 0).hour (Fields.ofList fields 0).minute
      (Fields.ofList fields 0).second (Fields.ofList fields 0).microsecond = _ := hwhole
  refine ⟨hmicrosecond, ?_⟩
  rw [timeAndOffset_zone hzone hjoined hwithout, hzero, Option.bind_some, hoffset]
  rfl

theorem two_le_length_joined (colons : Bool) {fields : List Nat} (hfields : ∀ n ∈ fields, n < 100)
    (hne : fields ≠ []) : 2 ≤ ((joined colons fields).map byte).length := by
  obtain ⟨n, rest, rfl⟩ := List.exists_cons_of_ne_nil hne
  obtain ⟨d, e, tail, -, htext⟩ := joined_cons colons (hfields n List.mem_cons_self) rest
  rw [htext, List.length_map]
  exact Nat.le_add_left 2 tail.length

/-- Where the day, one character and a time of day stand at the front, they are read from there. -/
theorem parse?_front {day more clock x : Bytes} {b : UInt8} (hmore : more.length = characterLength b - 1)
    (hclock : 2 ≤ clock.length) (hx : x.takeWhile isDigit = []) (hlow : 7 ≤ day.length)
    (hday : dateLength (day ++ b :: (more ++ clock)) = some day.length) :
    parse? (day ++ b :: (more ++ clock) ++ x) = (do
      let date ← Iso8601.date day.length (day ++ b :: (more ++ clock))
      let (time, offset) ← timeAndOffset (clock ++ x)
      return ⟨date, time, offset⟩) := by
  have hfront : day.length + 3 ≤ (day ++ b :: (more ++ clock)).length := by
    simp only [List.length_append, List.length_cons]
    omega
  have hdrop : (day ++ b :: (more ++ clock) ++ x).drop day.length = b :: (more ++ (clock ++ x)) := by
    rw [List.append_assoc, List.drop_left, List.cons_append, List.append_assoc]
  have htime : (more ++ (clock ++ x)).drop (characterLength b - 1) = clock ++ x := by
    rw [← hmore, List.drop_left]
  have hten : 10 ≤ (day ++ b :: (more ++ clock)).length := Nat.le_trans (by omega) hfront
  unfold parse?
  rw [(dateLength_append_iff hx hten hfront).mpr hday]
  simp only [Option.bind_eq_bind, Option.bind_some, date_append hten, hdrop, htime]

/-- Without a fraction of a second the same day, time and offset are read, to the second. -/
theorem parse?_without_fraction {day more : Bytes} {b : UInt8}
    (hmore : more.length = characterLength b - 1) {colons : Bool} {fields : List Nat}
    (hfields : ∀ n ∈ fields, n < 100) (hne : fields ≠ []) (hthree : fields.length ≤ 3) {point : Char}
    (hpoint : point = '.' ∨ point = ',') {digits : List Char} (hdigits : ∀ c ∈ digits, c.isDigit = true)
    (hsome : digits ≠ []) {zone : Bytes} (hzone : IsZone zone)
    (hday : dateLength (day ++ b :: (more ++ (joined colons fields).map byte) ++
      (byte point :: digits.map byte ++ zone)) = some day.length) {t : DateTime}
    (h : parse? (day ++ b :: (more ++ (joined colons fields).map byte) ++
      (byte point :: digits.map byte ++ zone)) = some t) :
    t.time.microsecond = microsecondsOf digits ∧
      parse? (day ++ b :: (more ++ (joined colons fields).map byte) ++ zone) = some t.atWholeSecond := by
  have hlow := seven_le_dateLength hday
  have hclock := two_le_length_joined colons hfields hne
  have hstop : (byte point :: digits.map byte ++ zone).takeWhile isDigit = [] :=
    List.takeWhile_cons_of_neg (by rcases hpoint with rfl | rfl <;> decide)
  have hfront := (dateLength_append_iff hstop
    (by simp only [List.length_append, List.length_cons]; omega)
    (by simp only [List.length_append, List.length_cons]; omega)).mp hday
  rw [parse?_front hmore hclock hstop hlow hfront] at h
  rw [parse?_front hmore hclock (takeWhile_isDigit_zone hzone) hlow hfront]
  simp only [Option.bind_eq_bind, Option.bind_eq_some_iff] at h ⊢
  obtain ⟨date, hdate, ⟨clock, offset⟩, htime, hresult⟩ := h
  cases hresult
  rw [← List.append_assoc] at htime
  obtain ⟨hmicrosecond, hwhole⟩ :=
    timeAndOffset_without_fraction hfields hne hthree hpoint hdigits hsome hzone htime
  exact ⟨hmicrosecond, date, hdate, _, hwhole, rfl⟩

end Iso8601

end Attest
