import SlurmExporter.Float64.Round

/-!
# Go's `float64`

The values the fetchers compute with: NaN, the two infinities, and finite values with a sign
bit, so that `-0.0` exists. A finite value is its sign and its magnitude in units of
`2 ^ -1074` (`Round`). Every NaN is the one `nan`: no payload is observable in the code modelled.

Arithmetic is IEEE 754 round-to-nearest-even, as Go's `+`, `-`, `/` and conversions are:
the exact result is computed on naturals and rounded once by `round`. Comparisons are Go's:
every comparison with NaN is false, and `-0.0` equals `0.0`.

`key` places a non-NaN value on the integer line (infinities at `±2 ^ 2098`, beyond every
finite value), and `key_add`, `key_round` and `sround_mono` reduce order facts about sums to
`roundedMag_mono`.
-/

namespace SlurmExporter

/-- A Go `float64`. `fin neg k` is `±k * 2 ^ -1074`; `k` is a binary64 magnitude. -/
inductive F64
  | nan
  | inf (neg : Bool)
  | fin (neg : Bool) (k : ℕ) (hk : F64.Representable k)
  deriving DecidableEq

namespace F64

def unit : ℕ := 2 ^ 1074

theorem unit_pos : 0 < unit := by unfold unit; positivity

/-- The value nearest `±a / d` in units of `2 ^ -1074`, ties to even, keeping the sign. -/
def round (neg : Bool) (a d : ℕ) : F64 :=
  if h : roundedMag a d < 2 ^ 2098 then fin neg (roundedMag a d) (representable_roundedMag h)
  else inf neg

def posZero : F64 := fin false 0 representable_zero

def negZero : F64 := fin true 0 representable_zero

/-- The `float64` constant `n`, as Go rounds an untyped constant. -/
def ofNat (n : ℕ) : F64 := round false (n * unit) 1

instance (n : ℕ) : OfNat F64 n := ⟨ofNat n⟩

/-- A decimal `float64` constant `m * 10 ^ ±e`, rounded as Go rounds constants. -/
instance : OfScientific F64 where
  ofScientific m neg e :=
    if neg then round false (m * unit) (10 ^ e) else round false (m * 10 ^ e * unit) 1

/-- `float64(n)` for an integer `n`. -/
def ofInt (n : ℤ) : F64 := round (decide (n < 0)) (n.natAbs * unit) 1

/-- Negation: flips the sign bit. -/
def neg : F64 → F64
  | nan => nan
  | inf s => inf (!s)
  | fin s k hk => fin (!s) k hk

/-- `x + y`. Opposite infinities give NaN; an exact zero sum of opposite signs is `0.0`. -/
def add : F64 → F64 → F64
  | nan, _ => nan
  | _, nan => nan
  | inf s, inf t => if s = t then inf s else nan
  | inf s, fin _ _ _ => inf s
  | fin _ _ _, inf t => inf t
  | fin s k _, fin t l _ =>
    if s = t then round s (k + l) 1
    else if l < k then round s (k - l) 1
    else if k < l then round t (l - k) 1
    else posZero

/-- `x / y`, with the IEEE rules for zeros, infinities and NaN operands. -/
def div : F64 → F64 → F64
  | nan, _ => nan
  | _, nan => nan
  | inf _, inf _ => nan
  | inf s, fin t _ _ => inf (s != t)
  | fin s _ _, inf t => fin (s != t) 0 representable_zero
  | fin s k _, fin t l _ =>
    if l = 0 then (if k = 0 then nan else inf (s != t)) else round (s != t) (k * unit) l

instance : Neg F64 := ⟨neg⟩
instance : Add F64 := ⟨add⟩
instance : Sub F64 := ⟨fun x y => add x (neg y)⟩
instance : Div F64 := ⟨div⟩

theorem sub_def (x y : F64) : x - y = add x (neg y) := rfl

/-- Whether the value is NaN. -/
def isNaN : F64 → Bool
  | nan => true
  | _ => false

/-- Whether the value is finite. -/
def isFinite : F64 → Bool
  | fin _ _ _ => true
  | _ => false

def signed (neg : Bool) (k : ℕ) : ℤ := if neg then -(k : ℤ) else k

/-- A non-NaN value's place on the integer line; the infinities lie beyond every finite value. -/
def key : F64 → ℤ
  | nan => 0
  | inf s => signed s (2 ^ 2098)
  | fin s k _ => signed s k

/-- Go's `x < y`: false when either side is NaN. -/
protected def lt (x y : F64) : Prop := x.isNaN = false ∧ y.isNaN = false ∧ x.key < y.key

/-- Go's `x <= y`: false when either side is NaN. -/
protected def le (x y : F64) : Prop := x.isNaN = false ∧ y.isNaN = false ∧ x.key ≤ y.key

instance : LT F64 := ⟨F64.lt⟩
instance : LE F64 := ⟨F64.le⟩
instance (x y : F64) : Decidable (x < y) :=
  inferInstanceAs (Decidable (x.isNaN = false ∧ y.isNaN = false ∧ x.key < y.key))
instance (x y : F64) : Decidable (x ≤ y) :=
  inferInstanceAs (Decidable (x.isNaN = false ∧ y.isNaN = false ∧ x.key ≤ y.key))

theorem lt_iff {x y : F64} : x < y ↔ x.isNaN = false ∧ y.isNaN = false ∧ x.key < y.key :=
  Iff.rfl
theorem le_iff {x y : F64} : x ≤ y ↔ x.isNaN = false ∧ y.isNaN = false ∧ x.key ≤ y.key :=
  Iff.rfl

/-! ## Rounding -/

/-- The place of `round neg a d`: the rounded magnitude, capped at the infinities. -/
theorem key_round (neg : Bool) (a d : ℕ) :
    (round neg a d).key = signed neg (min (roundedMag a d) (2 ^ 2098)) := by
  unfold round
  split_ifs with h
  · simp [key, min_eq_left h.le]
  · simp [key, min_eq_right (not_lt.mp h)]

@[simp] theorem isNaN_round (neg : Bool) (a d : ℕ) : (round neg a d).isNaN = false := by
  unfold round; split_ifs <;> rfl

theorem round_self {neg : Bool} {k : ℕ} (hk : Representable k) : round neg k 1 = fin neg k hk := by
  have e : roundedMag k 1 = k := by simpa using roundedMag_self hk one_pos
  unfold round
  rw [dif_pos (by rw [e]; exact hk.lt)]
  simp [e]

theorem round_zero (neg : Bool) (d : ℕ) : round neg 0 d = fin neg 0 representable_zero := by
  have e := roundedMag_zero d
  unfold round
  rw [dif_pos (by rw [e]; positivity)]
  simp [e]

/-- The rounding depends on the quotient `a / d` only. -/
theorem round_scale (neg : Bool) {a d c : ℕ} (hc : 0 < c) :
    round neg (a * c) (d * c) = round neg a d := by
  unfold round; simp only [roundedMag_scale hc]

theorem round_of_lt (neg : Bool) {a d : ℕ} (h : roundedMag a d < 2 ^ 2098) :
    round neg a d = fin neg (roundedMag a d) (representable_roundedMag h) := dif_pos h

/-- A decimal constant without a negative exponent is the rounding of an integer. -/
theorem ofScientific_eq (m e : ℕ) :
    (OfScientific.ofScientific m false e : F64) = round false (m * 10 ^ e * unit) 1 :=
  if_neg (by decide)

theorem div_fin_fin {s t : Bool} {k l : ℕ} (hk : Representable k) (hl : Representable l)
    (h : l ≠ 0) : fin s k hk / fin t l hl = round (s != t) (k * unit) l :=
  if_neg h

theorem ofInt_natCast (n : ℕ) : ofInt n = round false (n * unit) 1 := by
  simp only [ofInt, Int.natAbs_ofNat, decide_eq_false (Int.not_lt.mpr (Int.natCast_nonneg n))]

theorem zero_eq : (0 : F64) = posZero := by
  show ofNat 0 = posZero
  unfold ofNat; rw [Nat.zero_mul, round_zero]; rfl

theorem round_ne_fin_of_ne {neg s : Bool} (h : neg ≠ s) (a d k : ℕ) (hk : Representable k) :
    round neg a d ≠ fin s k hk := by
  unfold round; split_ifs
  · intro he; rw [fin.injEq] at he; exact h he.1
  · exact fun he => F64.noConfusion he

theorem round_ne_zero {a d : ℕ} (hd : 0 < d) (h : d ≤ a) (neg s : Bool) :
    round neg a d ≠ fin s 0 representable_zero := by
  have hpos := roundedMag_pos hd h
  unfold round
  split_ifs
  · intro he; rw [fin.injEq] at he; omega
  · exact fun he => F64.noConfusion he

/-! ## Sums -/

/-- The rounding of an exact signed sum `z` (units of `2 ^ -1074`), placed on the integer line. -/
def sround (z : ℤ) : ℤ := signed (decide (z < 0)) (min (roundedMag z.natAbs 1) (2 ^ 2098))

theorem add_fin_fin {s t : Bool} {k l : ℕ} (hk : Representable k) (hl : Representable l) :
    fin s k hk + fin t l hl =
      if s = t then round s (k + l) 1
      else if l < k then round s (k - l) 1
      else if k < l then round t (l - k) 1
      else posZero := rfl

theorem sround_signed (s : Bool) (a : ℕ) : sround (signed s a) = (round s a 1).key := by
  rw [key_round]
  rcases Nat.eq_zero_or_pos a with rfl | ha
  · simp [sround, signed, roundedMag_zero]
  · cases s <;> simp [sround, signed, ha]

/-- The sum of two finite values is the rounding of the sum of their places. -/
theorem key_add_fin {s t : Bool} {k l : ℕ} (hk : Representable k) (hl : Representable l) :
    (fin s k hk + fin t l hl).key = sround (signed s k + signed t l) := by
  rw [add_fin_fin]
  split_ifs with h1 h2 h3
  · subst h1
    rw [show signed s k + signed s l = signed s (k + l) by cases s <;> simp [signed]; ring,
      sround_signed]
  · rw [show signed s k + signed t l = signed s (k - l) by
      cases s <;> cases t <;> simp_all [signed] <;> omega, sround_signed]
  · rw [show signed s k + signed t l = signed t (l - k) by
      cases s <;> cases t <;> simp_all [signed] <;> omega, sround_signed]
  · rw [show signed s k + signed t l = signed false 0 by
      cases s <;> cases t <;> simp_all [signed] <;> omega, sround_signed, round_zero]
    rfl

/-- Every value other than `-0.0` is unchanged by `+ 0.0`. -/
theorem add_posZero {x : F64} (hx : x ≠ negZero) : x + posZero = x := by
  show add x posZero = x
  rcases x with _ | s | ⟨s, k, hk⟩
  · rfl
  · rfl
  · cases s
    · simp [add, posZero, round_self hk]
    · have hk0 : k ≠ 0 := by rintro rfl; exact hx rfl
      simp [add, posZero, Nat.pos_of_ne_zero hk0, round_self hk]

/-- Adding anything to a value other than `-0.0` never gives `-0.0`. -/
theorem add_ne_negZero {x : F64} (hx : x ≠ negZero) (y : F64) : x + y ≠ negZero := by
  show add x y ≠ negZero
  rcases x with _ | s | ⟨s, k, hk⟩ <;> rcases y with _ | t | ⟨t, l, hl⟩ <;>
    simp only [add, negZero, ne_eq, reduceCtorEq, not_false_eq_true]
  · split_ifs <;> simp
  · have hk1 : s = true → 1 ≤ k := by rintro rfl; rcases Nat.eq_zero_or_pos k with rfl | h
                                      · exact absurd rfl hx
                                      · exact h
    split_ifs with h1 h2 h3
    · subst h1
      cases s
      · exact round_ne_fin_of_ne (by decide) _ _ _ _
      · exact round_ne_zero one_pos (by have := hk1 rfl; omega) _ _
    · exact round_ne_zero one_pos (by omega) _ _
    · exact round_ne_zero one_pos (by omega) _ _
    · simp [posZero]

/-- Addition is commutative, NaN and infinities included. -/
protected theorem add_comm (x y : F64) : x + y = y + x := by
  show add x y = add y x
  rcases x with _ | s | ⟨s, k, hk⟩ <;> rcases y with _ | t | ⟨t, l, hl⟩ <;> try rfl
  · by_cases h : s = t
    · subst h; rfl
    · simp [add, h, Ne.symm h]
  · by_cases h : s = t
    · subst h; simp only [add, if_true, Nat.add_comm]
    · simp only [add, if_neg h, if_neg (Ne.symm h)]
      rcases lt_trichotomy k l with hkl | rfl | hkl
      · simp [hkl, Nat.not_lt.mpr hkl.le]
      · simp
      · simp [hkl, Nat.not_lt.mpr hkl.le]

theorem posZero_add {x : F64} (hx : x ≠ negZero) : posZero + x = x := by
  rw [F64.add_comm]; exact add_posZero hx

/-- A sum started from anything but `-0.0` is not `-0.0`. -/
theorem foldl_add_ne_negZero {a : F64} (ha : a ≠ negZero) (l : List F64) :
    l.foldl (· + ·) a ≠ negZero := by
  induction l generalizing a with
  | nil => exact ha
  | cons x l ih => exact ih (add_ne_negZero ha x)

/-- Removing `0.0` terms does not change a sum started from anything but `-0.0`. -/
theorem foldl_add_filter {a : F64} (ha : a ≠ negZero) (l : List F64) :
    l.foldl (· + ·) a = (l.filter (· ≠ posZero)).foldl (· + ·) a := by
  induction l generalizing a with
  | nil => rfl
  | cons x l ih =>
    by_cases hx : x = posZero
    · subst hx
      simp only [List.foldl_cons, List.filter_cons, ne_eq, not_true_eq_false, decide_False,
        Bool.false_eq_true, if_false, add_posZero ha]
      exact ih ha
    · simp only [List.foldl_cons, List.filter_cons, ne_eq, hx, not_false_eq_true, decide_True,
        if_true]
      exact ih (add_ne_negZero ha x)

theorem zero_ne_negZero : (0 : F64) ≠ negZero := by rw [zero_eq]; decide

/-- Two lists with the same nonzero terms have the same sum from `0.0`. -/
theorem foldl_add_eq_of_filter {l l' : List F64}
    (h : l.filter (· ≠ posZero) = l'.filter (· ≠ posZero)) :
    l.foldl (· + ·) 0 = l'.foldl (· + ·) 0 := by
  rw [foldl_add_filter zero_ne_negZero l, foldl_add_filter zero_ne_negZero l', h]

/-! ## Whole numbers

Below `2 ^ 53` every natural number is a `float64`, and a sum of such numbers that stays below
`2 ^ 53` is exact: it is not rounded, so it does not depend on the order of its terms. -/

theorem representable_mul_unit {n : ℕ} (hn : n < 2 ^ 53) : Representable (n * unit) :=
  ⟨n, 1074, hn, by norm_num, rfl⟩

theorem ofNat_eq_fin {n : ℕ} (hn : n < 2 ^ 53) :
    ofNat n = fin false (n * unit) (representable_mul_unit hn) :=
  round_self _

theorem isFinite_round (neg : Bool) (a d : ℕ) :
    (round neg a d).isFinite = decide (roundedMag a d < 2 ^ 2098) := by
  unfold round; split_ifs with h <;> simp [isFinite, h]

theorem ofNat_add_ofNat {a b : ℕ} (h : a + b < 2 ^ 53) : ofNat a + ofNat b = ofNat (a + b) := by
  rw [ofNat_eq_fin (by omega : a < 2 ^ 53), ofNat_eq_fin (by omega : b < 2 ^ 53), add_fin_fin,
    if_pos rfl, ← Nat.add_mul]
  rfl

theorem zero_add_ofNat {n : ℕ} (hn : n < 2 ^ 53) : 0 + ofNat n = ofNat n := by
  show ofNat 0 + ofNat n = ofNat n
  rw [ofNat_add_ofNat (by omega), Nat.zero_add]

/-- A term adding to `0.0` as the whole `b` adds `b` to every whole number below the bound. -/
theorem ofNat_add_of_zero_add {x : F64} {a b : ℕ} (hx : 0 + x = ofNat b) (h : a + b < 2 ^ 53) :
    ofNat a + x = ofNat (a + b) := by
  by_cases hz : x = negZero
  · subst hz
    have hb : b = 0 := by
      have hpos : ofNat b = posZero := by rw [← hx, zero_eq]; rfl
      rw [ofNat_eq_fin (by omega), posZero, fin.injEq] at hpos
      simpa [unit_pos.ne'] using hpos.2
    subst hb
    rw [Nat.add_zero, ofNat_eq_fin (by omega), negZero, add_fin_fin]
    simp only [Bool.false_eq_true, if_false, Nat.sub_zero, Nat.not_lt_zero]
    split_ifs with hpos
    · exact round_self _
    · simp [posZero, Nat.eq_zero_of_not_pos hpos]
  · rw [zero_eq, posZero_add hz] at hx
    rw [hx, ofNat_add_ofNat h]

theorem ofNat_sub_ofNat {a b : ℕ} (hb : b ≤ a) (ha : a < 2 ^ 53) :
    ofNat a - ofNat b = ofNat (a - b) := by
  rw [sub_def, ofNat_eq_fin ha, ofNat_eq_fin (hb.trans_lt ha)]
  rcases hb.lt_or_eq with hlt | rfl
  · have hk : b * unit < a * unit := Nat.mul_lt_mul_of_pos_right hlt unit_pos
    simp only [neg, add, Bool.not_false, Bool.false_eq_true, if_false, if_pos hk, ← Nat.sub_mul]
    rfl
  · simp only [neg, add, Bool.not_false, Bool.false_eq_true, if_false, lt_irrefl, Nat.sub_self]
    exact zero_eq.symm

theorem ofNat_div_ofNat {a b : ℕ} (ha : a < 2 ^ 53) (hb : b < 2 ^ 53) (h0 : 0 < b) :
    ofNat a / ofNat b = round false (a * unit) b := by
  rw [ofNat_eq_fin ha, ofNat_eq_fin hb, div_fin_fin _ _ (Nat.mul_pos h0 unit_pos).ne',
    ← round_scale false unit_pos (a := a * unit) (d := b)]
  rfl

theorem zero_lt_ofNat_iff {n : ℕ} (hn : n < 2 ^ 53) : 0 < ofNat n ↔ 0 < n := by
  rw [lt_iff, zero_eq, ofNat_eq_fin hn]
  simp [key, signed, isNaN, posZero, unit_pos]

/-- A left-to-right sum of whole-number terms is exact while the total is below `2 ^ 53`. -/
theorem foldl_add_exact {l : List F64} {ns : List ℕ}
    (h : List.Forall₂ (fun x n => 0 + x = ofNat n) l ns) (m : ℕ) (hn : m + ns.sum < 2 ^ 53) :
    l.foldl (· + ·) (ofNat m) = ofNat (m + ns.sum) := by
  induction h generalizing m with
  | nil => simp
  | cons hx _ ih =>
    rw [List.sum_cons] at hn
    rw [List.foldl_cons, ofNat_add_of_zero_add hx (by omega), ih _ (by omega), List.sum_cons,
      Nat.add_assoc]

/-! ## Order -/

theorem key_zero : (0 : F64).key = 0 := by rw [zero_eq]; rfl

theorem zero_le_iff {x : F64} : 0 ≤ x ↔ x.isNaN = false ∧ 0 ≤ x.key := by
  rw [le_iff, key_zero, zero_eq]; simp [isNaN, posZero]

theorem zero_le_zero : (0 : F64) ≤ 0 :=
  zero_le_iff.mpr ⟨by rw [zero_eq]; rfl, by rw [key_zero]⟩

theorem sround_nonneg {z : ℤ} (hz : 0 ≤ z) : 0 ≤ sround z := by
  simp [sround, signed, not_lt.mpr hz]

theorem signed_nonneg_iff {s : Bool} {k : ℕ} : 0 ≤ signed s k ↔ s = false ∨ k = 0 := by
  cases s <;> simp [signed]

theorem inf_add_fin {s t : Bool} {l : ℕ} (hl : Representable l) : inf s + fin t l hl = inf s := rfl
theorem fin_add_inf {s t : Bool} {k : ℕ} (hk : Representable k) : fin s k hk + inf t = inf t := rfl
theorem inf_add_inf (s t : Bool) : inf s + inf t = if s = t then inf s else nan := rfl

theorem isNaN_add_fin {s t : Bool} {k l : ℕ} (hk : Representable k) (hl : Representable l) :
    (fin s k hk + fin t l hl).isNaN = false := by
  rw [add_fin_fin]
  split_ifs
  · exact isNaN_round _ _ _
  · exact isNaN_round _ _ _
  · exact isNaN_round _ _ _
  · rfl

/-- A sum of two values `≥ 0` is `≥ 0`. -/
theorem zero_le_add {x y : F64} (hx : 0 ≤ x) (hy : 0 ≤ y) : 0 ≤ x + y := by
  rw [zero_le_iff] at hx hy ⊢
  rcases x with _ | s | ⟨s, k, hk⟩
  · simp [isNaN] at hx
  · have hs : s = false := by
      have := signed_nonneg_iff.mp hx.2; simpa using this
    subst hs
    rcases y with _ | t | ⟨t, l, hl⟩
    · simp [isNaN] at hy
    · have ht : t = false := by
        have := signed_nonneg_iff.mp hy.2; simpa using this
      subst ht; rw [inf_add_inf, if_pos rfl]; exact hx
    · rw [inf_add_fin]; exact hx
  · rcases y with _ | t | ⟨t, l, hl⟩
    · simp [isNaN] at hy
    · rw [fin_add_inf]; exact hy
    · refine ⟨isNaN_add_fin hk hl, ?_⟩
      rw [key_add_fin]
      exact sround_nonneg (by simp only [key] at hx hy; omega)

/-! ## Differences and quotients -/

theorem signed_not (s : Bool) (k : ℕ) : signed (!s) k = -signed s k := by
  cases s <;> simp [signed]

theorem representable_unit : Representable unit :=
  ⟨1, 1074, by norm_num, by norm_num, by simp [unit]⟩

theorem one_eq : (1 : F64) = fin false unit representable_unit := by
  show ofNat 1 = _
  rw [ofNat, one_mul, round_self representable_unit]

theorem key_fin_zero (b : Bool) : (fin b 0 representable_zero).key = 0 := by
  cases b <;> simp [key, signed]

/-- If `0 ≤ x ≤ y` and `x` is finite, `y - x ≥ 0`. -/
theorem zero_le_sub {x y : F64} (hx : 0 ≤ x) (hxy : x ≤ y) (hfin : x.isFinite = true) :
    0 ≤ y - x := by
  rcases x with _ | s | ⟨s, k, hk⟩
  · simp [isFinite] at hfin
  · simp [isFinite] at hfin
  rw [le_iff] at hxy
  rw [zero_le_iff] at hx ⊢
  rcases y with _ | t | ⟨t, l, hl⟩
  · simp [isNaN] at hxy
  · have ht : t = false := by
      cases t
      · rfl
      · have : (0 : ℤ) < 2 ^ 2098 := by positivity
        simp only [key, signed, if_true] at hxy hx; omega
    subst ht
    exact ⟨rfl, by simp [sub_def, add, neg, key, signed]⟩
  · show (fin t l hl + fin (!s) k hk).isNaN = false ∧ 0 ≤ (fin t l hl + fin (!s) k hk).key
    refine ⟨isNaN_add_fin hl hk, ?_⟩
    rw [key_add_fin, signed_not]
    exact sround_nonneg (by simp only [key] at hxy; omega)

theorem key_round_div_le {k l : ℕ} (hkl : k ≤ l) (hl : 0 < l) :
    0 ≤ (round false (k * unit) l).key ∧ (round false (k * unit) l).key ≤ unit := by
  rw [key_round]
  have hle : roundedMag (k * unit) l ≤ unit := by
    calc roundedMag (k * unit) l ≤ roundedMag (unit * l) l :=
          roundedMag_mono hl hl (by
            calc k * unit * l ≤ l * unit * l := Nat.mul_le_mul_right _ (Nat.mul_le_mul_right _ hkl)
              _ = unit * l * l := by ring)
      _ = unit := roundedMag_self representable_unit hl
  constructor
  · simp [signed]
  · simp only [signed, if_false, Bool.false_eq_true]
    exact_mod_cast (min_le_left _ _).trans hle

/-- If `0 ≤ x ≤ y`, `0 < y` and `x` is finite, `0 ≤ x / y ≤ 1`. -/
theorem div_mem_unit {x y : F64} (hx : 0 ≤ x) (hxy : x ≤ y) (hy : 0 < y)
    (hfin : x.isFinite = true) : 0 ≤ x / y ∧ x / y ≤ 1 := by
  rcases x with _ | s | ⟨s, k, hk⟩
  · simp [isFinite] at hfin
  · simp [isFinite] at hfin
  rw [le_iff] at hxy
  rw [lt_iff, key_zero] at hy
  have hs : s = false ∨ k = 0 := signed_nonneg_iff.mp (zero_le_iff.mp hx).2
  -- the quotient is a zero, or the rounding of `k / l` with `k ≤ l`
  suffices h : (∃ b, fin s k hk / y = fin b 0 representable_zero) ∨
      ∃ l, 0 < l ∧ k ≤ l ∧ fin s k hk / y = round false (k * unit) l by
    rw [zero_le_iff, le_iff, one_eq]
    rcases h with ⟨b, e⟩ | ⟨l, hl, hkl, e⟩ <;> rw [e]
    · refine ⟨⟨rfl, (key_fin_zero b).ge⟩, rfl, rfl, ?_⟩
      rw [key_fin_zero]; exact Int.natCast_nonneg unit
    · exact ⟨⟨isNaN_round _ _ _, (key_round_div_le hkl hl).1⟩, isNaN_round _ _ _, rfl,
        (key_round_div_le hkl hl).2⟩
  rcases y with _ | t | ⟨t, l, hl⟩
  · exact absurd hy.2.1 (by decide)
  · exact .inl ⟨s != t, rfl⟩
  · have ht : t = false ∧ 0 < l := by
      cases t <;> simp only [key, signed, if_true, if_false, Bool.false_eq_true] at hy
      · exact ⟨rfl, by exact_mod_cast hy.2.2⟩
      · omega
    obtain ⟨rfl, hl0⟩ := ht
    show (∃ b, div (fin s k hk) (fin false l hl) = _) ∨
      ∃ l', 0 < l' ∧ k ≤ l' ∧ div (fin s k hk) (fin false l hl) = _
    simp only [div, Nat.pos_iff_ne_zero.mp hl0, if_false, Bool.bne_false]
    rcases hs with rfl | rfl
    · refine .inr ⟨l, hl0, ?_, rfl⟩
      simp only [key, signed, if_false, Bool.false_eq_true] at hxy; exact_mod_cast hxy.2.2
    · exact .inl ⟨s, by rw [Nat.zero_mul, round_zero]⟩

end F64

end SlurmExporter
