import Mathlib.Tactic.Linarith
import Mathlib.Tactic.Positivity
import Mathlib.Tactic.GCongr
import Mathlib.Tactic.Ring

/-!
# Rounding to binary64 on scaled naturals

Every finite binary64 value is an integer multiple of `2 ^ -1074`, so a magnitude is stored as
a natural number `k` in those units. It is `Representable` when `k = m * 2 ^ p` with
`m < 2 ^ 53` and `p ≤ 2045`; the largest is `(2 ^ 53 - 1) * 2 ^ 2045`, just under `2 ^ 2098`,
which is `2 ^ 1024` in these units.

Rounding the exact magnitude `a / d` (same units, `d > 0`) to nearest, ties to even:

1. `ulpExp a d` is the exponent of the spacing `2 ^ p` of the binade of `a / d`, `0` in the
   subnormal range (`lt_mul_two_pow_ulpExp`, `ulpExp_normal`);
2. `rne a (d * 2 ^ p)` is `a / (d * 2 ^ p)` rounded to the nearest natural, ties to even;
3. `roundedMag a d` is that natural times `2 ^ p`; `round` reports overflow at `2 ^ 2098`.

The facts the rest of the development uses: `representable_roundedMag` (the result is a
binary64 magnitude), `roundedMag_self` (a representable magnitude rounds to itself),
`roundedMag_mono` (rounding is monotone), `roundedMag_scale` (it depends on `a / d` only).
-/

namespace SlurmExporter.F64

/-! ## Binary digits -/

/-- The number of binary digits of `n` (`0` for `0`), counted by halving at most `fuel` times. -/
def binDigits : ℕ → ℕ → ℕ
  | 0, _ => 0
  | fuel + 1, n => if n = 0 then 0 else binDigits fuel (n / 2) + 1

/-- The number of binary digits of `n`: `n` halvings always suffice. -/
def bitLength (n : ℕ) : ℕ := binDigits n n

@[simp] theorem binDigits_zero (fuel : ℕ) : binDigits fuel 0 = 0 := by
  cases fuel <;> simp [binDigits]

theorem binDigits_spec : ∀ fuel n, n < 2 ^ fuel →
    n < 2 ^ binDigits fuel n ∧ (0 < n → 2 ^ binDigits fuel n ≤ 2 * n)
  | 0, n, h => by
    have : n = 0 := by simpa using h
    subst this; simp
  | fuel + 1, n, h => by
    rcases Nat.eq_zero_or_pos n with rfl | hn
    · simp
    have ih := binDigits_spec fuel (n / 2) (by rw [pow_succ] at h; omega)
    simp only [binDigits, hn.ne', if_false, pow_succ]
    refine ⟨by omega, fun _ => ?_⟩
    rcases Nat.eq_zero_or_pos (n / 2) with h2 | h2
    · simp [h2]; omega
    · have := ih.2 h2; omega

theorem lt_two_pow_bitLength (n : ℕ) : n < 2 ^ bitLength n :=
  (binDigits_spec n n n.lt_two_pow).1

theorem two_pow_bitLength_le {n : ℕ} (hn : 0 < n) : 2 ^ bitLength n ≤ 2 * n :=
  (binDigits_spec n n n.lt_two_pow).2 hn

theorem bitLength_le_of_lt {n e : ℕ} (h : n < 2 ^ e) : bitLength n ≤ e := by
  rcases Nat.eq_zero_or_pos n with rfl | hn
  · simp [bitLength]
  · have h1 := two_pow_bitLength_le hn
    have h2 : 2 ^ bitLength n < 2 ^ (e + 1) := by rw [pow_succ]; omega
    exact Nat.lt_succ_iff.mp ((Nat.pow_lt_pow_iff_right (by norm_num)).mp h2)

/-! ## Nearest natural, ties to even -/

/-- `a / d` rounded to the nearest natural number, ties to even. -/
def rne (a d : ℕ) : ℕ :=
  if 2 * (a % d) < d then a / d
  else if d < 2 * (a % d) then a / d + 1
  else if a / d % 2 = 0 then a / d else a / d + 1

theorem rne_bounds (a d : ℕ) : a / d ≤ rne a d ∧ rne a d ≤ a / d + 1 := by
  unfold rne; split_ifs <;> omega

theorem rne_mul_self {d : ℕ} (hd : 0 < d) (m : ℕ) : rne (m * d) d = m := by
  simp [rne, Nat.mul_mod_left, Nat.mul_div_cancel _ hd, hd]

/-- The integer quotient is monotone in the rational `a / d`. -/
theorem div_le_div_of_mul_le {a d a' d' : ℕ} (hd : 0 < d) (hd' : 0 < d')
    (h : a * d' ≤ a' * d) : a / d ≤ a' / d' := by
  rw [Nat.le_div_iff_mul_le hd']
  refine Nat.le_of_mul_le_mul_right ?_ hd
  calc a / d * d' * d = a / d * d * d' := by ring
    _ ≤ a * d' := Nat.mul_le_mul_right d' (Nat.div_mul_le_self a d)
    _ ≤ a' * d := h

theorem rne_mono {a d a' d' : ℕ} (hd : 0 < d) (hd' : 0 < d') (h : a * d' ≤ a' * d) :
    rne a d ≤ rne a' d' := by
  have hq := div_le_div_of_mul_le hd hd' h
  have b := rne_bounds a d
  have b' := rne_bounds a' d'
  rcases Nat.lt_or_ge (a / d) (a' / d') with hlt | hge
  · omega
  have hq' : a / d = a' / d' := le_antisymm hq hge
  -- equal quotients: compare the remainders
  have ea := Nat.div_add_mod a d
  have ea' := Nat.div_add_mod a' d'
  have hr : 2 * (a % d) * d' ≤ 2 * (a' % d') * d := by
    rw [hq'] at ea
    have : (d * (a' / d') + a % d) * d' ≤ (d' * (a' / d') + a' % d') * d := by
      rw [ea, ea']; exact h
    rw [add_mul, add_mul, show d' * (a' / d') * d = d * (a' / d') * d' by ring] at this
    rw [mul_assoc, mul_assoc]
    exact Nat.mul_le_mul_left 2 (Nat.le_of_add_le_add_left this)
  unfold rne
  rw [hq']
  have hlt₁ : d < 2 * (a % d) → d' < 2 * (a' % d') := fun hx =>
    Nat.lt_of_mul_lt_mul_right (calc d' * d = d * d' := mul_comm _ _
      _ < 2 * (a % d) * d' := Nat.mul_lt_mul_of_pos_right hx hd'
      _ ≤ 2 * (a' % d') * d := hr)
  have hle₁ : d ≤ 2 * (a % d) → d' ≤ 2 * (a' % d') := fun hx =>
    Nat.le_of_mul_le_mul_right (calc d' * d = d * d' := mul_comm _ _
      _ ≤ 2 * (a % d) * d' := Nat.mul_le_mul_right d' hx
      _ ≤ 2 * (a' % d') * d := hr) hd
  split_ifs <;> omega

theorem rne_scale {a d c : ℕ} (hc : 0 < c) : rne (a * c) (d * c) = rne a d := by
  unfold rne
  rw [Nat.mul_div_mul_right _ _ hc, Nat.mul_mod_mul_right]
  have e : 2 * (a % d * c) = 2 * (a % d) * c := by ring
  simp only [e, Nat.mul_lt_mul_right hc]

/-! ## The binade -/

/-- The exponent of the binary64 spacing around `a / d`: `0` in the subnormal range. -/
def ulpExp (a d : ℕ) : ℕ := bitLength (a / d) - 53

theorem lt_mul_two_pow_ulpExp {a d : ℕ} (hd : 0 < d) : a < d * 2 ^ (ulpExp a d + 53) := by
  have hq := lt_two_pow_bitLength (a / d)
  have ha : a < d * (a / d + 1) := by have := Nat.lt_mul_div_succ a hd; linarith
  have hle : 2 ^ bitLength (a / d) ≤ 2 ^ (ulpExp a d + 53) :=
    Nat.pow_le_pow_right (by norm_num) (by unfold ulpExp; omega)
  calc a < d * (a / d + 1) := ha
    _ ≤ d * 2 ^ (ulpExp a d + 53) := Nat.mul_le_mul_left d (by omega)

theorem ulpExp_normal (a d : ℕ) :
    ulpExp a d = 0 ∨ d * 2 ^ (ulpExp a d + 52) ≤ a := by
  by_cases hp : ulpExp a d = 0
  · exact .inl hp
  refine .inr ?_
  have hL : ulpExp a d + 53 = bitLength (a / d) := by unfold ulpExp at hp ⊢; omega
  have hq : 0 < a / d := by
    rcases Nat.eq_zero_or_pos (a / d) with h | h
    · simp [ulpExp, h, bitLength] at hp
    · exact h
  have h2 := two_pow_bitLength_le hq
  rw [← hL, pow_succ] at h2
  calc d * 2 ^ (ulpExp a d + 52) ≤ d * (a / d) := Nat.mul_le_mul_left d (by omega)
    _ ≤ a := Nat.mul_div_le a d

theorem ulpExp_le_of_lt {a d p : ℕ} (hd : 0 < d) (h : a < d * 2 ^ (p + 53)) :
    ulpExp a d ≤ p := by
  have : a / d < 2 ^ (p + 53) := (Nat.div_lt_iff_lt_mul hd).mpr (by linarith)
  have := bitLength_le_of_lt this
  unfold ulpExp; omega

theorem ulpExp_mono {a d a' d' : ℕ} (hd : 0 < d) (hd' : 0 < d') (h : a * d' ≤ a' * d) :
    ulpExp a d ≤ ulpExp a' d' := by
  rcases ulpExp_normal a d with h0 | hn
  · omega
  by_contra hlt
  have h1 := lt_mul_two_pow_ulpExp (a := a') hd'
  have h2 : 2 ^ (ulpExp a' d' + 53) ≤ 2 ^ (ulpExp a d + 52) :=
    Nat.pow_le_pow_right (by norm_num) (by omega)
  have : a' * d < a * d' := by
    calc a' * d < d' * 2 ^ (ulpExp a' d' + 53) * d := Nat.mul_lt_mul_of_pos_right h1 hd
      _ ≤ d' * 2 ^ (ulpExp a d + 52) * d := by gcongr
      _ = d * 2 ^ (ulpExp a d + 52) * d' := by ring
      _ ≤ a * d' := Nat.mul_le_mul_right d' hn
  omega

theorem ulpExp_scale {a d c : ℕ} (hc : 0 < c) : ulpExp (a * c) (d * c) = ulpExp a d := by
  simp [ulpExp, Nat.mul_div_mul_right _ _ hc]

/-! ## Rounded magnitudes -/

/-- The binary64 magnitude nearest `a / d`, before the overflow check. -/
def roundedMag (a d : ℕ) : ℕ := rne a (d * 2 ^ ulpExp a d) * 2 ^ ulpExp a d

/-- `k` is the magnitude of a finite binary64 value, in units of `2 ^ -1074`. -/
def Representable (k : ℕ) : Prop := ∃ m p, m < 2 ^ 53 ∧ p ≤ 2045 ∧ k = m * 2 ^ p

theorem representable_zero : Representable 0 := ⟨0, 0, by norm_num, by norm_num, rfl⟩

theorem Representable.lt {k : ℕ} (h : Representable k) : k < 2 ^ 2098 := by
  obtain ⟨m, p, hm, hp, rfl⟩ := h
  calc m * 2 ^ p < 2 ^ 53 * 2 ^ 2045 :=
        Nat.mul_lt_mul_of_lt_of_le hm (Nat.pow_le_pow_right (by norm_num) hp) (Nat.two_pow_pos _)
    _ = 2 ^ 2098 := by rw [← pow_add]

/-- Removing a multiple of a value's spacing keeps it representable. -/
theorem Representable.sub {m p j : ℕ} (hm : m < 2 ^ 53) (hp : p ≤ 2045) :
    Representable (m * 2 ^ p - j * 2 ^ p) :=
  ⟨m - j, p, by omega, hp, by rw [Nat.sub_mul]⟩

theorem rne_le_two_pow {a d : ℕ} (hd : 0 < d) : rne a (d * 2 ^ ulpExp a d) ≤ 2 ^ 53 := by
  have hD : 0 < d * 2 ^ ulpExp a d := Nat.mul_pos hd (Nat.two_pow_pos _)
  have h := lt_mul_two_pow_ulpExp (a := a) hd
  have : a / (d * 2 ^ ulpExp a d) < 2 ^ 53 := by
    rw [Nat.div_lt_iff_lt_mul hD]
    calc a < d * 2 ^ (ulpExp a d + 53) := h
      _ = 2 ^ 53 * (d * 2 ^ ulpExp a d) := by ring
  have := rne_bounds a (d * 2 ^ ulpExp a d)
  omega

theorem two_pow_le_rne {a d : ℕ} (hd : 0 < d) (hn : d * 2 ^ (ulpExp a d + 52) ≤ a) :
    2 ^ 52 ≤ rne a (d * 2 ^ ulpExp a d) := by
  have hD : 0 < d * 2 ^ ulpExp a d := Nat.mul_pos hd (Nat.two_pow_pos _)
  have : 2 ^ 52 ≤ a / (d * 2 ^ ulpExp a d) := by
    rw [Nat.le_div_iff_mul_le hD]
    calc 2 ^ 52 * (d * 2 ^ ulpExp a d) = d * 2 ^ (ulpExp a d + 52) := by ring
      _ ≤ a := hn
  exact this.trans (rne_bounds _ _).1

theorem representable_roundedMag {a d : ℕ} (h : roundedMag a d < 2 ^ 2098) :
    Representable (roundedMag a d) := by
  rcases Nat.eq_zero_or_pos d with rfl | hd
  · -- a zero divisor only arises for junk inputs: the result is `0` or `1`
    have : roundedMag a 0 ≤ 1 := by
      simp only [roundedMag, ulpExp, Nat.div_zero, bitLength, binDigits_zero, pow_zero, mul_one,
        rne, Nat.mod_zero, Nat.zero_mul]
      split_ifs <;> omega
    exact ⟨roundedMag a 0, 0, by omega, by norm_num, by simp⟩
  unfold roundedMag at h ⊢
  set p := ulpExp a d
  set m := rne a (d * 2 ^ p)
  have hm := rne_le_two_pow (a := a) hd
  rcases Nat.lt_or_ge m (2 ^ 53) with hlt | hge
  · refine ⟨m, p, hlt, ?_, rfl⟩
    rcases ulpExp_normal a d with h0 | hn
    · omega
    · have h52 := two_pow_le_rne hd hn
      by_contra hp
      have : 2 ^ 2098 ≤ m * 2 ^ p :=
        calc 2 ^ 2098 = 2 ^ 52 * 2 ^ 2046 := by rw [← pow_add]
          _ ≤ m * 2 ^ p := Nat.mul_le_mul h52 (Nat.pow_le_pow_right (by norm_num) (by omega))
      omega
  · have hm53 : m = 2 ^ 53 := le_antisymm hm hge
    rw [hm53] at h ⊢
    refine ⟨2 ^ 52, p + 1, by norm_num, ?_, by ring⟩
    by_contra hp
    have : 2 ^ 2098 ≤ 2 ^ 53 * 2 ^ p := by
      rw [← pow_add]; exact Nat.pow_le_pow_right (by norm_num) (by omega)
    omega

theorem roundedMag_scale {a d c : ℕ} (hc : 0 < c) :
    roundedMag (a * c) (d * c) = roundedMag a d := by
  unfold roundedMag
  rw [ulpExp_scale hc, show d * c * 2 ^ ulpExp a d = d * 2 ^ ulpExp a d * c by ring, rne_scale hc]

/-- A representable magnitude rounds to itself. -/
theorem roundedMag_self {k c : ℕ} (hk : Representable k) (hc : 0 < c) :
    roundedMag (k * c) c = k := by
  obtain ⟨m, p, hm, -, rfl⟩ := hk
  have hlt : m * 2 ^ p * c < c * 2 ^ (p + 53) := by
    rw [mul_comm c, pow_add, mul_comm (2 ^ p)]
    exact Nat.mul_lt_mul_of_pos_right (Nat.mul_lt_mul_of_pos_right hm (Nat.two_pow_pos _)) hc
  have hq := ulpExp_le_of_lt hc hlt
  unfold roundedMag
  set q := ulpExp (m * 2 ^ p * c) c
  have e : m * 2 ^ p * c = m * 2 ^ (p - q) * (c * 2 ^ q) := by
    rw [show p = p - q + q from (Nat.sub_add_cancel hq).symm, pow_add]
    rw [Nat.add_sub_cancel]; ring
  rw [e, rne_mul_self (Nat.mul_pos hc (Nat.two_pow_pos _)), mul_assoc, ← pow_add,
    Nat.sub_add_cancel hq]

/-- Rounding preserves the order of the rationals `a / d ≤ a' / d'`. -/
theorem roundedMag_mono {a d a' d' : ℕ} (hd : 0 < d) (hd' : 0 < d') (h : a * d' ≤ a' * d) :
    roundedMag a d ≤ roundedMag a' d' := by
  have hp := ulpExp_mono hd hd' h
  unfold roundedMag
  rcases Nat.lt_or_ge (ulpExp a d) (ulpExp a' d') with hlt | hge
  · -- a higher binade: the first value is at most `2 ^ (p + 53) ≤ 2 ^ (p' + 52)`
    have h1 := rne_le_two_pow (a := a) hd
    have hn := (ulpExp_normal a' d').resolve_left (by omega)
    have h2 := two_pow_le_rne hd' hn
    calc rne a (d * 2 ^ ulpExp a d) * 2 ^ ulpExp a d ≤ 2 ^ 53 * 2 ^ ulpExp a d :=
          Nat.mul_le_mul_right _ h1
      _ = 2 ^ (ulpExp a d + 53) := by ring
      _ ≤ 2 ^ (ulpExp a' d' + 52) := Nat.pow_le_pow_right (by norm_num) (by omega)
      _ = 2 ^ 52 * 2 ^ ulpExp a' d' := by ring
      _ ≤ _ := Nat.mul_le_mul_right _ h2
  · have he : ulpExp a d = ulpExp a' d' := le_antisymm hp hge
    rw [he]
    refine Nat.mul_le_mul_right _
      (rne_mono (Nat.mul_pos hd (Nat.two_pow_pos _)) (Nat.mul_pos hd' (Nat.two_pow_pos _)) ?_)
    rw [← he]
    calc a * (d' * 2 ^ ulpExp a d) = a * d' * 2 ^ ulpExp a d := by ring
      _ ≤ a' * d * 2 ^ ulpExp a d := Nat.mul_le_mul_right _ h
      _ = a' * (d * 2 ^ ulpExp a d) := by ring

theorem roundedMag_zero (d : ℕ) : roundedMag 0 d = 0 := by simp [roundedMag, rne]

/-- A magnitude of at least one unit does not round to zero. -/
theorem roundedMag_pos {a d : ℕ} (hd : 0 < d) (h : d ≤ a) : 0 < roundedMag a d := by
  unfold roundedMag
  rcases ulpExp_normal a d with h0 | hn
  · have : 1 ≤ rne a (d * 2 ^ ulpExp a d) := by
      have hb := (rne_bounds a (d * 2 ^ ulpExp a d)).1
      rw [h0, pow_zero, mul_one] at hb ⊢
      have : 1 ≤ a / d := (Nat.le_div_iff_mul_le hd).mpr (by simpa using h)
      omega
    exact Nat.mul_pos this (Nat.two_pow_pos _)
  · exact Nat.mul_pos (lt_of_lt_of_le (Nat.two_pow_pos 52) (two_pow_le_rne hd hn))
      (Nat.two_pow_pos _)

end SlurmExporter.F64
