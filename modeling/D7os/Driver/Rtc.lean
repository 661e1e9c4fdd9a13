import D7os.Lib.Except
import D7os.Net.Bytes

/-!
# The CMOS real-time clock

`modules/driver_rtc/src/lib.rs`. The driver reads status register B once to
learn how the chip stores its time (binary or BCD, 24-hour or 12-hour clock),
then answers every `rtc/read` by reading the time registers, checking their
ranges and building a `chrono` date and time from them.

In 12-hour mode the chip sets bit 7 of the hours register at PM. The driver
converts the register from BCD before it looks at that bit, which turns it into
80 hours: in BCD with a 12-hour clock every PM hour fails the assertion
`m <= 12`, and every other configuration reads the time back. The read loop is
left out (the registers hold still); `chrono`'s `NaiveDate::from_ymd` and
`and_hms` are parameters, with their documented behaviour as hypotheses.
-/

namespace D7os

namespace Rtc

inductive Mode where
  | binary
  | bcd
  deriving DecidableEq, Repr

namespace Mode

/-- `Mode::to_bin`: a BCD byte's tens digit is worth `8 + 2` times its nibble. -/
def toBin : Mode → UInt8 → UInt8
  | binary, v => v
  | bcd, v => ((v &&& 0xf0) >>> 1) + ((v &&& 0xf0) >>> 3) + (v &&& 0xf)

end Mode

inductive HoursMode where
  | _12
  | _24
  deriving DecidableEq, Repr

namespace HoursMode

def to24h : HoursMode → UInt8 → Except Panic UInt8
  | _24, v => .ok v
  | _12, v => do
    let pm := v &&& ((1 : UInt8) <<< 7) != 0
    let m := v &&& ~~~((1 : UInt8) <<< 7)
    -- 12h clock has no zero
    assert (m != 0) "m != 0"
    assert (m <= 12) "m <= 12"
    if pm then pure (if m = 12 then 12 else m + 12)
    else pure (if m = 12 then 0 else m)

end HoursMode

/-- `read_config`, from the value of status register B. -/
def readConfig (b : UInt8) : Mode × HoursMode :=
  (if b &&& ((1 : UInt8) <<< 2) != 0 then .binary else .bcd,
    if b &&& ((1 : UInt8) <<< 1) != 0 then ._24 else ._12)

structure TimeRegisterSnapshot where
  seconds : UInt8
  minutes : UInt8
  hours : UInt8
  day : UInt8
  month : UInt8
  yearLastDigits : UInt8
  maybeCentury : UInt8
  deriving DecidableEq, Repr

/-- `TimeRegisterSnapshot::read`; `readRegister` gives the value of each CMOS register. -/
def TimeRegisterSnapshot.read (config : Mode × HoursMode) (readRegister : UInt8 → UInt8) :
    Except Panic TimeRegisterSnapshot := do
  let (mode, hoursf) := config
  let hours ← hoursf.to24h (mode.toBin (readRegister 0x04))
  pure {
    seconds := mode.toBin (readRegister 0x00)
    minutes := mode.toBin (readRegister 0x02)
    hours
    day := mode.toBin (readRegister 0x07)
    month := mode.toBin (readRegister 0x08)
    yearLastDigits := mode.toBin (readRegister 0x09)
    maybeCentury := mode.toBin (readRegister 0x32) }

/-! ## What the driver uses of `chrono`

`chrono` is a dependency of `libd7`, not part of the repository: the driver's
`NaiveDate::from_ymd` and `NaiveDate::and_hms` are parameters of the model, and
what their documentation promises is stated as `FromYmdSpec` and `AndHmsSpec`. -/

def isLeapYear (year : Int) : Bool := year % 4 == 0 && (year % 100 != 0 || year % 400 == 0)

def daysInMonth (year : Int) (month : Nat) : Nat :=
  if month = 2 then (if isLeapYear year then 29 else 28)
  else if month = 4 ∨ month = 6 ∨ month = 9 ∨ month = 11 then 30
  else 31

/-- `chrono::naive::MIN_YEAR` and `MAX_YEAR`: `i32::MIN >> 13` and `i32::MAX >> 13`. -/
def MIN_YEAR : Int := -262144
def MAX_YEAR : Int := 262143

section Chrono

variable {Date DateTime : Type}

/-- `NaiveDate::from_ymd` as documented: it "panics on the out-of-range date,
invalid month and/or day", so it makes a date from every day of the proleptic
Gregorian calendar in chrono's year range, with that year, month and day
(`Datelike`). -/
structure FromYmdSpec (fromYmd : Int → Nat → Nat → Except Panic Date) (ymd : Date → Int × Nat × Nat) :
    Prop where
  valid_date : ∀ year month day, MIN_YEAR ≤ year → year ≤ MAX_YEAR → 1 ≤ month → month ≤ 12 →
    1 ≤ day → day ≤ daysInMonth year month → ∃ date, fromYmd year month day = .ok date ∧ ymd date = (year, month, day)

/-- `NaiveDate::and_hms` as documented: it "panics on invalid hour, minute and/or
second" and allows no leap second, so it makes a date and time from every hour
below 24, minute below 60 and second below 60, with the date's fields and that
time (`Datelike`, `Timelike`). -/
structure AndHmsSpec (andHms : Date → Nat → Nat → Nat → Except Panic DateTime) (ymd : Date → Int × Nat × Nat)
    (fields : DateTime → Int × Nat × Nat × Nat × Nat × Nat) : Prop where
  valid_time : ∀ date hour min sec, hour < 24 → min < 60 → sec < 60 →
    ∃ dt, andHms date hour min sec = .ok dt ∧
      fields dt = ((ymd date).1, (ymd date).2.1, (ymd date).2.2, hour, min, sec)

end Chrono

/-! ### A calendar that meets both

`NaiveDate` and `NaiveDateTime` as plain records, with `from_ymd_opt` and
`and_hms_opt`'s checks followed by `expect`. -/

structure NaiveDate where
  year : Int
  month : Nat
  day : Nat
  deriving DecidableEq, Repr

structure NaiveDateTime where
  year : Int
  month : Nat
  day : Nat
  hour : Nat
  minute : Nat
  second : Nat
  deriving DecidableEq, Repr

def NaiveDate.ymd (d : NaiveDate) : Int × Nat × Nat := (d.year, d.month, d.day)

def NaiveDateTime.fields (dt : NaiveDateTime) : Int × Nat × Nat × Nat × Nat × Nat :=
  (dt.year, dt.month, dt.day, dt.hour, dt.minute, dt.second)

def NaiveDate.fromYmd (year : Int) (month day : Nat) : Except Panic NaiveDate :=
  if MIN_YEAR ≤ year ∧ year ≤ MAX_YEAR ∧ 1 ≤ month ∧ month ≤ 12 ∧ 1 ≤ day ∧ day ≤ daysInMonth year month then
    .ok ⟨year, month, day⟩
  else .error "invalid or out-of-range date"

def NaiveDate.andHms (d : NaiveDate) (hour min sec : Nat) : Except Panic NaiveDateTime :=
  if hour < 24 ∧ min < 60 ∧ sec < 60 then .ok ⟨d.year, d.month, d.day, hour, min, sec⟩
  else .error "invalid time"

theorem NaiveDate.fromYmd_spec : FromYmdSpec NaiveDate.fromYmd NaiveDate.ymd :=
  ⟨fun _ _ _ h₁ h₂ h₃ h₄ h₅ h₆ => ⟨_, if_pos ⟨h₁, h₂, h₃, h₄, h₅, h₆⟩, rfl⟩⟩

theorem NaiveDate.andHms_spec : AndHmsSpec NaiveDate.andHms NaiveDate.ymd NaiveDateTime.fields :=
  ⟨fun _ _ _ _ h₁ h₂ h₃ => ⟨_, if_pos ⟨h₁, h₂, h₃⟩, rfl⟩⟩

/-! ## Reading the time -/

section Read

variable {Date DateTime : Type} (fromYmd : Int → Nat → Nat → Except Panic Date)
  (andHms : Date → Nat → Nat → Nat → Except Panic DateTime)

/-- The checks of `get_current_time` after the read loop, and the date and time
built from the snapshot it settled on. -/
def TimeRegisterSnapshot.toDateTime (t : TimeRegisterSnapshot) : Except Panic DateTime := do
  -- Do not allow leap seconds
  assert (t.seconds < 60) "t.seconds < 60"
  assert (t.minutes < 60) "t.minutes < 60"
  assert (t.hours < 24) "t.hours < 24"
  assert (t.day != 0 && t.day <= 31) "t.day != 0 && t.day <= 31"
  assert (t.month != 0 && t.month <= 12) "t.month != 0 && t.month <= 12"
  let year ← if t.maybeCentury = 0 then pure (2000 + t.yearLastDigits.toUInt16) else do
    assert (t.maybeCentury >= 20) "t.maybe_century >= 20"
    pure (100 * t.maybeCentury.toUInt16 + t.yearLastDigits.toUInt16)
  let date ← fromYmd year.toNat t.month.toNat t.day.toNat
  andHms date t.hours.toNat t.minutes.toNat t.seconds.toNat

/-- `get_current_time` over a register file that holds still while it is read:
the loop's two snapshots agree at once. -/
def getCurrentTime (config : Mode × HoursMode) (readRegister : UInt8 → UInt8) : Except Panic DateTime := do
  let t ← TimeRegisterSnapshot.read config readRegister
  t.toDateTime fromYmd andHms

/-- The driver's `rtc/read` handler, with the configuration it read at start. -/
def rtcRead (readRegister : UInt8 → UInt8) : Except Panic DateTime :=
  getCurrentTime fromYmd andHms (readConfig (readRegister 0x0b)) readRegister

end Read

/-! ## The chip's side -/

/-- A date and time the chip can hold, with a century register. -/
structure ClockTime where
  year : Nat
  month : Nat
  day : Nat
  hour : Nat
  minute : Nat
  second : Nat
  year_range : 2000 ≤ year ∧ year < 10000
  month_range : 1 ≤ month ∧ month ≤ 12
  day_range : 1 ≤ day ∧ day ≤ daysInMonth year month
  hour_lt : hour < 24
  minute_lt : minute < 60
  second_lt : second < 60

def toBcd (n : Nat) : UInt8 := (n / 10 * 16 + n % 10).toUInt8

/-- A value below 100 as the chip stores it. -/
def encode : Mode → Nat → UInt8
  | .binary, n => n.toUInt8
  | .bcd, n => toBcd n

/-- The hours register: in 12-hour mode the hour from 1 to 12, with bit 7 set at PM. -/
def encodeHours (mode : Mode) : HoursMode → Nat → UInt8
  | ._24, hour => encode mode hour
  | ._12, hour => encode mode (if hour % 12 = 0 then 12 else hour % 12) ||| (if 12 ≤ hour then 0x80 else 0)

/-- The registers of a chip that holds `t`, configured by status register B; no
update is in progress. -/
def registers (statusB : UInt8) (t : ClockTime) (r : UInt8) : UInt8 :=
  let (mode, hoursMode) := readConfig statusB
  if r = 0x00 then encode mode t.second
  else if r = 0x02 then encode mode t.minute
  else if r = 0x04 then encodeHours mode hoursMode t.hour
  else if r = 0x07 then encode mode t.day
  else if r = 0x08 then encode mode t.month
  else if r = 0x09 then encode mode (t.year % 100)
  else if r = 0x32 then encode mode (t.year / 100)
  else if r = 0x0b then statusB
  else 0

def ClockTime.snapshot (t : ClockTime) : TimeRegisterSnapshot :=
  ⟨t.second.toUInt8, t.minute.toUInt8, t.hour.toUInt8, t.day.toUInt8, t.month.toUInt8,
    (t.year % 100).toUInt8, (t.year / 100).toUInt8⟩

/-! ## Decoding the registers -/

/-- Every BCD byte of a value below 100 converts back, checked value by value. -/
theorem bcd_toBin_toBcd : ∀ n < 100, Mode.bcd.toBin (toBcd n) = n.toUInt8 := by decide

theorem toBin_encode (mode : Mode) {n : Nat} (h : n < 100) : mode.toBin (encode mode n) = n.toUInt8 := by
  cases mode with
  | binary => rfl
  | bcd => exact bcd_toBin_toBcd n h

/-- The hours register decodes to the hour, checked hour by hour in each
configuration; in BCD with a 12-hour clock the PM bit has become 80 hours by the
time `to_24h` looks for it. -/
theorem to24h_encodeHours (mode : Mode) (hm : HoursMode) :
    ∀ h < 24, hm.to24h (mode.toBin (encodeHours mode hm h)) =
      if mode = .bcd ∧ hm = ._12 ∧ 12 ≤ h then .error (assertFailed "m <= 12") else .ok h.toUInt8 := by
  cases mode <;> cases hm <;> decide

theorem daysInMonth_le (year : Int) (month : Nat) : daysInMonth year month ≤ 31 := by
  unfold daysInMonth
  split_ifs <;> omega

theorem read_registers (statusB : UInt8) (t : ClockTime) :
    TimeRegisterSnapshot.read (readConfig statusB) (registers statusB t) =
      if readConfig statusB = (.bcd, ._12) ∧ 12 ≤ t.hour then .error (assertFailed "m <= 12")
      else .ok t.snapshot := by
  rcases hconfig : readConfig statusB with ⟨mode, hm⟩
  have hyear := t.year_range
  have hmonth := t.month_range.2
  have hday := Nat.le_trans t.day_range.2 (daysInMonth_le t.year t.month)
  have hhours := to24h_encodeHours mode hm t.hour t.hour_lt
  simp +decide only [TimeRegisterSnapshot.read, registers, hconfig, if_false, if_true, hhours,
    Prod.mk.injEq, and_assoc]
  split
  · rfl
  · rw [Except.ok_bind, toBin_encode mode (Nat.lt_trans t.second_lt (by decide)),
      toBin_encode mode (Nat.lt_trans t.minute_lt (by decide)),
      toBin_encode mode (by omega : t.day < 100), toBin_encode mode (by omega : t.month < 100),
      toBin_encode mode (Nat.mod_lt _ (by omega)), toBin_encode mode (by omega : t.year / 100 < 100)]
    rfl

section Bytes

variable {n : Nat} {k : UInt8}

theorem toUInt8_lt_of_lt (h : n < k.toNat) : n.toUInt8 < k := by
  rw [UInt8.lt_iff_toNat_lt, toNat_toUInt8_of_lt (Nat.lt_trans h k.toNat_lt)]
  exact h

theorem toUInt8_le_of_le (h : n ≤ k.toNat) : n.toUInt8 ≤ k := by
  rw [UInt8.le_iff_toNat_le, toNat_toUInt8_of_lt (Nat.lt_of_le_of_lt h k.toNat_lt)]
  exact h

theorem le_toUInt8_of_le (hn : n < 256) (h : k.toNat ≤ n) : k ≤ n.toUInt8 := by
  rw [UInt8.le_iff_toNat_le, toNat_toUInt8_of_lt hn]
  exact h

theorem toUInt8_ne_zero (hn : n < 256) (h : 0 < n) : n.toUInt8 ≠ 0 := by
  intro h0
  have := congrArg UInt8.toNat h0
  rw [toNat_toUInt8_of_lt hn, UInt8.toNat_zero] at this
  omega

end Bytes

/-- The century and the year in it, as the driver adds them in `u16`. -/
theorem year_toUInt16 {year : Nat} (h : year < 10000) :
    (100 * (year / 100).toUInt8.toUInt16 + (year % 100).toUInt8.toUInt16).toNat = year := by
  have hc : year / 100 % 256 = year / 100 := Nat.mod_eq_of_lt (by omega)
  have hy : year % 100 % 256 = year % 100 := Nat.mod_eq_of_lt (by omega)
  simp [hc, hy]
  omega

section Read

variable {Date DateTime : Type} (fromYmd : Int → Nat → Nat → Except Panic Date)
  (andHms : Date → Nat → Nat → Nat → Except Panic DateTime)

/-- The snapshot of a time the chip can hold passes every check of the driver,
which hands that date and time to `chrono`. -/
theorem toDateTime_snapshot (t : ClockTime) :
    t.snapshot.toDateTime fromYmd andHms = (fromYmd t.year t.month t.day >>= fun date =>
      andHms date t.hour t.minute t.second) := by
  obtain ⟨hy₁, hy₂⟩ := t.year_range
  obtain ⟨hm₁, hm₂⟩ := t.month_range
  obtain ⟨hd₁, hd₂⟩ := t.day_range
  have hd₃ := Nat.le_trans hd₂ (daysInMonth_le t.year t.month)
  have hs : t.second.toUInt8 < 60 := toUInt8_lt_of_lt t.second_lt
  have hmi : t.minute.toUInt8 < 60 := toUInt8_lt_of_lt t.minute_lt
  have hh : t.hour.toUInt8 < 24 := toUInt8_lt_of_lt t.hour_lt
  have hday₀ : (t.day.toUInt8 != 0) = true := bne_iff_ne.mpr (toUInt8_ne_zero (by omega) hd₁)
  have hday : t.day.toUInt8 ≤ 31 := toUInt8_le_of_le hd₃
  have hmonth₀ : (t.month.toUInt8 != 0) = true := bne_iff_ne.mpr (toUInt8_ne_zero (by omega) hm₁)
  have hmonth : t.month.toUInt8 ≤ 12 := toUInt8_le_of_le hm₂
  have hc₀ : (t.year / 100).toUInt8 ≠ 0 := toUInt8_ne_zero (by omega) (by omega)
  have hc₂₀ : (t.year / 100).toUInt8 ≥ 20 := le_toUInt8_of_le (by omega) (by simp only [UInt8.reduceToNat]; omega)
  simp only [TimeRegisterSnapshot.toDateTime, ClockTime.snapshot, hs, hmi, hh, hday₀, hday, hmonth₀, hmonth, hc₂₀,
    decide_true, Bool.and_self, assert_true, Except.ok_bind, pure_bind, if_neg hc₀,
    year_toUInt16 hy₂, toNat_toUInt8_of_lt (by omega : t.month < 256),
    toNat_toUInt8_of_lt (by omega : t.day < 256), toNat_toUInt8_of_lt (Nat.lt_trans t.hour_lt (by decide)),
    toNat_toUInt8_of_lt (Nat.lt_trans t.minute_lt (by decide)),
    toNat_toUInt8_of_lt (Nat.lt_trans t.second_lt (by decide))]

/-- What `rtc/read` does with the registers of a chip that holds `t`: it
panics in BCD with a 12-hour clock from noon on, and otherwise asks `chrono`
for exactly the date and time the chip holds. -/
theorem rtcRead_registers (statusB : UInt8) (t : ClockTime) :
    rtcRead fromYmd andHms (registers statusB t) =
      if readConfig statusB = (.bcd, ._12) ∧ 12 ≤ t.hour then .error (assertFailed "m <= 12")
      else fromYmd t.year t.month t.day >>= fun date => andHms date t.hour t.minute t.second := by
  have hb : registers statusB t 0x0b = statusB := rfl
  rw [rtcRead, hb, getCurrentTime, read_registers]
  split
  · rfl
  · rw [Except.ok_bind, toDateTime_snapshot]

/-- **What `rtc/read` answers.** On a chip that holds a date and time from 2000
to 9999, in any configuration of status register B, and with `chrono` doing what
its documentation says, the driver answers with that date and time, except in
BCD with a 12-hour clock from noon on, where the PM bit fails the assertion
`m <= 12` and the driver panics. -/
theorem rtc_read_returns_clock_time {ymd : Date → Int × Nat × Nat}
    {fields : DateTime → Int × Nat × Nat × Nat × Nat × Nat}
    (hymd : FromYmdSpec fromYmd ymd) (hhms : AndHmsSpec andHms ymd fields) (statusB : UInt8) (t : ClockTime) :
    (readConfig statusB = (.bcd, ._12) ∧ 12 ≤ t.hour →
      rtcRead fromYmd andHms (registers statusB t) = .error (assertFailed "m <= 12")) ∧
    (¬ (readConfig statusB = (.bcd, ._12) ∧ 12 ≤ t.hour) →
      ∃ dt, rtcRead fromYmd andHms (registers statusB t) = .ok dt ∧
        fields dt = ((t.year : Int), t.month, t.day, t.hour, t.minute, t.second)) := by
  rw [rtcRead_registers]
  refine ⟨fun hpm => if_pos hpm, fun hpm => ?_⟩
  rw [if_neg hpm]
  obtain ⟨hy₁, hy₂⟩ := t.year_range
  -- chrono's year range holds every year the chip can hold
  obtain ⟨date, hdate, hymdDate⟩ := hymd.valid_date t.year t.month t.day
    (by simp only [MIN_YEAR]; omega) (by simp only [MAX_YEAR]; omega)
    t.month_range.1 t.month_range.2 t.day_range.1 t.day_range.2
  obtain ⟨dt, hdt, hfields⟩ := hhms.valid_time date t.hour t.minute t.second t.hour_lt t.minute_lt t.second_lt
  refine ⟨dt, by rw [hdate, Except.ok_bind, hdt], ?_⟩
  rw [hfields, hymdDate]

end Read

/-- A leap day at 13:45:30 on a chip in BCD with a 12-hour clock (status B `0x00`),
with the calendar for `chrono`: the hours register holds `0x81`, and the driver
panics. -/
theorem rtc_read_panics_at_one_pm :
    FromYmdSpec NaiveDate.fromYmd NaiveDate.ymd ∧ AndHmsSpec NaiveDate.andHms NaiveDate.ymd NaiveDateTime.fields ∧
    rtcRead NaiveDate.fromYmd NaiveDate.andHms (registers 0x00 ⟨2024, 2, 29, 13, 45, 30, by decide, by decide,
      by decide, by decide, by decide, by decide⟩) = .error (assertFailed "m <= 12") :=
  ⟨NaiveDate.fromYmd_spec, NaiveDate.andHms_spec,
    (rtc_read_returns_clock_time NaiveDate.fromYmd NaiveDate.andHms NaiveDate.fromYmd_spec NaiveDate.andHms_spec
      0x00 _).1 ⟨by decide, by decide⟩⟩

end Rtc

end D7os
