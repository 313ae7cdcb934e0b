import SlurmExporter.Float64.Basic

/-!
# Go's `time`: monotonic readings, `Sub` and `Seconds`

`FetchMetrics` compares `time.Since(cache.t).Seconds()` with the cache's `limit`. Its readings
come from `time.Now()`, whose monotonic part counts the nanoseconds since the process started:
an `int64` that is never negative. `Sub` of two such readings is their difference (`subMono`
saturates at the bounds of `Duration`, which two readings never reach), and `Seconds` is
`float64(sec) + float64(nsec)/1e9`, rounded twice.

1. `seconds_eq`: on a non-negative duration, `Seconds` is one rounding of `sec + nsec / 1e9`,
   with `nsec / 1e9` rounded first;
2. `ageBelow_of_seconds_lt`, `ageBelow_since`: when `Seconds` is below a limit, so is the exact
   duration;
3. `seconds_lt_of_le`, `seconds_since_lt_of_now_le`: `Seconds` is monotone on non-negative
   durations, so an earlier check sees a stamp no older;
4. `not_seconds_since_lt`: `Seconds` of a non-negative duration is never below a limit that is
   not positive;
5. the converse of 2 fails: `100ms` is below the `float64` `0.1`, and its
   `Seconds` is that `0.1`.
-/

namespace SlurmExporter

set_option maxRecDepth 20000

open F64

/-! A `time.Duration` is an `int64` of nanoseconds; it is modelled as an integer. -/

def minDuration : ℤ := -2 ^ 63

def maxDuration : ℤ := 2 ^ 63 - 1

def second : ℤ := 1000000000

/-- A `time.Time` by its monotonic reading, the nanoseconds since the process started
(`runtimeNano() - startNano`): a non-negative `int64`. -/
structure Time where
  mono : ℤ
  nonneg : 0 ≤ mono
  lt : mono < 2 ^ 63
  deriving DecidableEq

/-- The zero `time.Time`, which `gpuCache` starts with. -/
def Time.zero : Time := ⟨0, le_rfl, by norm_num⟩

/-- The reading `n` nanoseconds after start, for `n < 2 ^ 63`. -/
def Time.ofNat (n : ℕ) : Time :=
  ⟨(n % 2 ^ 63 : ℕ), Int.natCast_nonneg _, by have := Nat.mod_lt n (Nat.two_pow_pos 63); omega⟩

/-- `t.Sub(u)` for two monotonic readings (`subMono`): the difference, saturated at the bounds
of `Duration`. -/
def Time.sub (t u : Time) : ℤ := max minDuration (min maxDuration (t.mono - u.mono))

/-- `time.Since(t)`, `now` being the reading it takes. -/
def since (now t : Time) : ℤ := now.sub t

/-- `Duration.Seconds`: `float64(d / Second) + float64(d % Second) / 1e9`, the division and
remainder truncated as Go's are. -/
def Duration.seconds (d : ℤ) : F64 :=
  ofInt (d.tdiv second) + ofInt (d.tmod second) / 1e9

/-- `d` nanoseconds is less than `limit` seconds, compared exactly. -/
def AgeBelow (d : ℤ) (limit : F64) : Prop :=
  limit.isNaN = false ∧ d * unit < limit.key * 1000000000

instance (d : ℤ) (limit : F64) : Decidable (AgeBelow d limit) :=
  inferInstanceAs (Decidable (_ ∧ _))

/-! ## `Sub` -/

theorem Time.sub_eq (t u : Time) : t.sub u = t.mono - u.mono := by
  have := t.nonneg; have := t.lt; have := u.nonneg; have := u.lt
  simp only [Time.sub, minDuration, maxDuration]
  omega

theorem since_eq (now t : Time) : since now t = now.mono - t.mono := Time.sub_eq now t

/-! ## `Seconds` -/

section Seconds

theorem roundedMag_nsec_le {ns : ℕ} (h : ns ≤ 1000000000) :
    roundedMag (ns * unit) 1000000000 ≤ unit :=
  calc roundedMag (ns * unit) 1000000000 ≤ roundedMag (unit * 1000000000) 1000000000 :=
        roundedMag_mono (by norm_num) (by norm_num) (by nlinarith)
    _ = unit := roundedMag_self representable_unit (by norm_num)

/-- On `0 ≤ d < 2 ^ 63`, `Seconds` is one rounding of `sec + q`, `q` being `ns / 1e9` rounded. -/
theorem seconds_eq {n : ℕ} (hn : n < 2 ^ 63) :
    Duration.seconds n = round false
      (n / 1000000000 * unit + roundedMag (n % 1000000000 * unit) 1000000000) 1 := by
  have hsec : (n : ℤ).tdiv second = ((n / 1000000000 : ℕ) : ℤ) := by
    rw [Int.tdiv_eq_ediv (Int.natCast_nonneg n) (by norm_num [second])]; rfl
  have hns : (n : ℤ).tmod second = ((n % 1000000000 : ℕ) : ℤ) := by
    rw [Int.tmod_eq_emod (Int.natCast_nonneg n) (by norm_num [second])]; rfl
  have hr1 := representable_mul_unit (n := n / 1000000000) (by omega)
  have hr2 := representable_mul_unit (n := n % 1000000000) (by omega)
  have hr3 := representable_mul_unit (n := 1000000000) (by norm_num)
  have hq : roundedMag (n % 1000000000 * unit) 1000000000 < 2 ^ 2098 :=
    (roundedMag_nsec_le (Nat.mod_lt _ (by norm_num)).le).trans_lt representable_unit.lt
  have h1e9 : (1e9 : F64) = fin false (1000000000 * unit) hr3 := by
    rw [ofScientific_eq, Nat.one_mul, show 10 ^ 9 = 1000000000 from rfl, round_self hr3]
  rw [Duration.seconds, hsec, hns, ofInt_natCast, ofInt_natCast, round_self hr1, round_self hr2,
    h1e9, div_fin_fin _ _ (Nat.mul_pos (by norm_num) unit_pos).ne',
    show (false != false) = false from rfl,
    round_scale false unit_pos, round_of_lt false hq, add_fin_fin, if_pos rfl]

theorem key_seconds {n : ℕ} (hn : n < 2 ^ 63) :
    (Duration.seconds n).key =
      ((min (roundedMag (n / 1000000000 * unit + roundedMag (n % 1000000000 * unit) 1000000000) 1)
        (2 ^ 2098) : ℕ) : ℤ) := by
  rw [seconds_eq hn, key_round]; simp [signed]

theorem representable_sub_seconds {l sec : ℕ} (hl : Representable l) (h1 : sec * unit < l)
    (h2 : l < (sec + 1) * unit) : Representable (l - sec * unit) := by
  obtain ⟨m, p, hm, hp, rfl⟩ := hl
  rcases le_or_lt p 1074 with hp' | hp'
  · have e : sec * unit = sec * 2 ^ (1074 - p) * 2 ^ p := by
      rw [mul_assoc, ← pow_add, Nat.sub_add_cancel hp']; rfl
    rw [e]; exact Representable.sub hm hp
  · -- a spacing of two units or more: `l` would be a whole number of seconds
    exfalso
    have e : m * 2 ^ p = m * 2 ^ (p - 1074) * unit := by
      rw [mul_assoc, unit, ← pow_add, Nat.sub_add_cancel hp'.le]
    rw [e] at h1 h2
    have := Nat.lt_of_mul_lt_mul_right h1
    have := Nat.lt_of_mul_lt_mul_right h2
    omega

theorem le_roundedMag_seconds {n l : ℕ} (hl : Representable l) (h : l * 1000000000 ≤ n * unit) :
    l ≤ roundedMag (n / 1000000000 * unit + roundedMag (n % 1000000000 * unit) 1000000000) 1 := by
  have hn : n * unit = n / 1000000000 * unit * 1000000000 + n % 1000000000 * unit := by
    nth_rewrite 1 [← Nat.div_add_mod n 1000000000]; ring
  have hmod : n % 1000000000 * unit < unit * 1000000000 :=
    Nat.mul_lt_mul_of_pos_right (Nat.mod_lt _ (by norm_num)) unit_pos |>.trans_eq (mul_comm _ _)
  generalize n / 1000000000 = sec at hn ⊢
  generalize hq : roundedMag (n % 1000000000 * unit) 1000000000 = q
  suffices hlq : l ≤ sec * unit + q by
    calc l = roundedMag (l * 1) 1 := (roundedMag_self hl one_pos).symm
      _ ≤ _ := roundedMag_mono one_pos one_pos (by omega)
  rcases le_or_lt l (sec * unit) with hle | hlt
  · omega
  have hr := representable_sub_seconds hl hlt (by rw [Nat.add_mul]; omega)
  have hrq : l - sec * unit ≤ q :=
    calc l - sec * unit = roundedMag ((l - sec * unit) * 1000000000) 1000000000 :=
          (roundedMag_self hr (by norm_num)).symm
      _ ≤ q := hq ▸ roundedMag_mono (by norm_num) (by norm_num) (by
          rw [Nat.sub_mul]; exact Nat.mul_le_mul_right _ (by omega))
  omega

/-- If `Seconds` of a duration is below `limit`, the exact duration is below `limit` seconds. -/
theorem ageBelow_of_seconds_lt {n : ℕ} (hn : n < 2 ^ 63) {limit : F64}
    (h : Duration.seconds n < limit) : AgeBelow n limit := by
  rw [lt_iff, key_seconds hn] at h
  obtain ⟨-, hnan, hlt⟩ := h
  refine ⟨hnan, ?_⟩
  rcases limit with _ | s | ⟨s, l, hl⟩
  · exact absurd hnan (by decide)
  · cases s
    · have : n * unit < 2 ^ 2098 * 1000000000 :=
        calc n * unit < 2 ^ 63 * unit := Nat.mul_lt_mul_of_pos_right hn unit_pos
          _ ≤ 2 ^ 2098 * 1000000000 := by rw [unit, ← pow_add]; norm_num
      show (n : ℤ) * unit < ((2 ^ 2098 : ℕ) : ℤ) * 1000000000
      exact_mod_cast this
    · simp only [key, signed, if_true] at hlt
      exact absurd hlt (not_lt.mpr ((neg_nonpos.mpr (Int.natCast_nonneg _)).trans
        (Int.natCast_nonneg _)))
  · cases s
    · simp only [key, signed, Bool.false_eq_true, if_false] at hlt ⊢
      have hlt' := Int.ofNat_lt.mp hlt
      by_contra hge
      have hle := le_roundedMag_seconds hl (by exact_mod_cast not_lt.mp hge)
      exact absurd hlt' (not_lt.mpr (le_min hle hl.lt.le))
    · simp only [key, signed, if_true] at hlt
      exact absurd hlt (not_lt.mpr ((neg_nonpos.mpr (Int.natCast_nonneg _)).trans
        (Int.natCast_nonneg _)))

/-- When `time.Since(t).Seconds()` is below a limit, so is the exact time since `t`. -/
theorem ageBelow_since {now t : Time} (h : t.mono ≤ now.mono) {limit : F64}
    (hs : Duration.seconds (since now t) < limit) : AgeBelow (now.mono - t.mono) limit := by
  have := now.lt; have := t.nonneg
  rw [since_eq] at hs
  rw [← Int.toNat_of_nonneg (sub_nonneg.mpr h)] at hs ⊢
  exact ageBelow_of_seconds_lt (by omega) hs

/-- `Seconds` of a non-negative duration is never below a limit that is not positive, NaN
included. -/
theorem not_seconds_since_lt {now t : Time} (h : t.mono ≤ now.mono) {limit : F64}
    (hlim : ¬ 0 < limit) : ¬ Duration.seconds (since now t) < limit := by
  have := now.lt; have := t.nonneg
  rw [since_eq, ← Int.toNat_of_nonneg (sub_nonneg.mpr h), lt_iff, key_seconds (by omega)]
  rintro ⟨-, hnan, hlt⟩
  exact hlim ⟨by rw [zero_eq]; rfl, hnan,
    by rw [key_zero]; exact (Int.natCast_nonneg _).trans_lt hlt⟩

theorem seconds_mag_mono {n n' : ℕ} (h : n ≤ n') :
    n / 1000000000 * unit + roundedMag (n % 1000000000 * unit) 1000000000 ≤
      n' / 1000000000 * unit + roundedMag (n' % 1000000000 * unit) 1000000000 := by
  have hdiv := Nat.div_le_div_right (c := 1000000000) h
  rcases Nat.lt_or_ge (n / 1000000000) (n' / 1000000000) with hlt | hge
  · have hq := roundedMag_nsec_le (Nat.mod_lt n (by norm_num : 0 < 1000000000)).le
    have := Nat.mul_le_mul_right unit (Nat.succ_le_of_lt hlt)
    rw [Nat.succ_mul] at this
    omega
  · have e : n / 1000000000 = n' / 1000000000 := le_antisymm hdiv hge
    have hmod : n % 1000000000 ≤ n' % 1000000000 := by omega
    rw [e]
    exact Nat.add_le_add_left (roundedMag_mono (by norm_num) (by norm_num)
      (Nat.mul_le_mul_right _ (Nat.mul_le_mul_right _ hmod))) _

/-- `Seconds` is monotone: a shorter non-negative duration is below any limit a longer one is. -/
theorem seconds_lt_of_le {n n' : ℕ} (h : n ≤ n') (hn' : n' < 2 ^ 63) {limit : F64}
    (hlt : Duration.seconds n' < limit) : Duration.seconds n < limit := by
  have hn := h.trans_lt hn'
  rw [lt_iff] at hlt ⊢
  refine ⟨by rw [seconds_eq hn]; exact isNaN_round _ _ _, hlt.2.1, lt_of_le_of_lt ?_ hlt.2.2⟩
  rw [key_seconds hn, key_seconds hn']
  exact Int.ofNat_le.mpr (min_le_min_right _ (roundedMag_mono one_pos one_pos (by
    simpa using seconds_mag_mono h)))

theorem seconds_since_lt_of_now_le {now now' t : Time} (ht : t.mono ≤ now.mono)
    (hnow : now.mono ≤ now'.mono) {limit : F64} (h : Duration.seconds (since now' t) < limit) :
    Duration.seconds (since now t) < limit := by
  have := now'.lt; have := t.nonneg
  rw [since_eq, ← Int.toNat_of_nonneg (sub_nonneg.mpr ht)]
  rw [since_eq, ← Int.toNat_of_nonneg (sub_nonneg.mpr (ht.trans hnow))] at h
  exact seconds_lt_of_le (by omega) (by omega) h

end Seconds

/-- `100ms` is below the `float64` `0.1` seconds, which is `0.1000000000000000055...`, yet its
`Seconds` is that `0.1`: `Seconds() < 0.1` is false. -/
example : AgeBelow 100000000 0.1 ∧ Duration.seconds 100000000 = 0.1 := by
  decide

end SlurmExporter
