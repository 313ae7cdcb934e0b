import SlurmExporter.Float64.Basic
import SlurmExporter.GoString

/-!
# `strconv.ParseFloat(s, 64)`

Go's `atof64`: `special` reads the spellings of infinity and NaN, `readFloat` reads a decimal
or hexadecimal number (sign, digits with at most one point and `_` separators, exponent), and
`ParseFloat` fails unless one of them read the whole string.

The value: Go converts the digits read by a fast path (`atof64exact`, Eisel–Lemire) or, when
those cannot decide, by a slow exact decimal conversion; all of them return the binary64 value
nearest the number read, ties to even, with a range error when that is an infinity. `convert`
computes this value directly from the exact digits. The digits are read as Go reads them,
including its cap on exponents: exponent digits stop counting once the exponent reaches
`10000`.

Go's `lower` is `c | 0x20`; every test in which it appears compares the result with an ASCII
lower-case letter, and for those tests it agrees with `Go.asciiLower`.
-/

namespace SlurmExporter.Strconv

set_option maxRecDepth 20000

open Go

/-- The error kinds of `strconv.ParseFloat`: `ErrSyntax` and `ErrRange`. -/
inductive NumErr
  | errSyntax
  | errRange
  deriving DecidableEq, Repr

def isDigit (c : Char) : Bool := '0' ≤ c && c ≤ '9'

def digitVal (c : Char) : ℕ := c.toNat - '0'.toNat

/-- `commonPrefixLenIgnoreCase(s, prefix)`, `prefix` in lower case. -/
def commonPrefixLenIgnoreCase : List Char → List Char → ℕ
  | c :: s, p :: ps => if asciiLower c = p then commonPrefixLenIgnoreCase s ps + 1 else 0
  | _, _ => 0

/-- The infinity case of `special`, after an optional sign: `inf` or `infinity`. -/
def specialInf (neg : Bool) (nsign : ℕ) (s : List Char) : Option (F64 × ℕ) :=
  let n := commonPrefixLenIgnoreCase s "infinity".toList
  let n := if 3 < n ∧ n < 8 then 3 else n
  if n = 3 ∨ n = 8 then some (.inf neg, nsign + n) else none

/-- `special(s)`: a possibly signed `inf`/`infinity`, or `nan`, with the length read. -/
def special : List Char → Option (F64 × ℕ)
  | [] => none
  | c :: s =>
    if c = '+' ∨ c = '-' then specialInf (c = '-') 1 s
    else if c = 'i' ∨ c = 'I' then specialInf false 0 (c :: s)
    else if c = 'n' ∨ c = 'N' then
      if commonPrefixLenIgnoreCase (c :: s) "nan".toList = 3 then some (.nan, 3) else none
    else none

/-! ## `readFloat` -/

/-- The state of `readFloat`'s digit loop; `mant` keeps every significant digit read. -/
structure Digits where
  mant : ℕ := 0
  nd : ℕ := 0
  dp : ℤ := 0
  sawdot : Bool := false
  sawdigits : Bool := false
  underscores : Bool := false
  deriving DecidableEq, Repr

/-- `readFloat`'s digit loop: digits, `_` and one `.`, in base 16 when `hex`. Returns the state
and the unread rest. -/
def readDigits (hex : Bool) : Digits → List Char → Digits × List Char
  | st, [] => (st, [])
  | st, c :: s =>
    if c = '_' then readDigits hex { st with underscores := true } s
    else if c = '.' then
      if st.sawdot then (st, c :: s) else readDigits hex { st with sawdot := true, dp := st.nd } s
    else if isDigit c then
      if c = '0' ∧ st.nd = 0 then readDigits hex { st with sawdigits := true, dp := st.dp - 1 } s
      else readDigits hex
        { st with sawdigits := true, nd := st.nd + 1,
                  mant := st.mant * (if hex then 16 else 10) + digitVal c } s
    else if hex ∧ 'a' ≤ asciiLower c ∧ asciiLower c ≤ 'f' then
      readDigits hex
        { st with sawdigits := true, nd := st.nd + 1,
                  mant := st.mant * 16 + ((asciiLower c).toNat - 'a'.toNat + 10) } s
    else (st, c :: s)

/-- The exponent digits: `e` stops growing once it reaches `10000`. Returns the exponent,
whether an underscore was read, and the unread rest. -/
def readExpDigits : ℕ → Bool → List Char → ℕ × Bool × List Char
  | e, u, [] => (e, u, [])
  | e, u, c :: s =>
    if c = '_' then readExpDigits e true s
    else if isDigit c then readExpDigits (if e < 10000 then e * 10 + digitVal c else e) u s
    else (e, u, c :: s)

def readSign : List Char → Bool × List Char
  | c :: s => if c = '+' then (false, s) else if c = '-' then (true, s) else (false, c :: s)
  | [] => (false, [])

/-- What `underscoreOK` has seen last. -/
inductive Saw
  | start
  | digit
  | underscore
  | other
  deriving DecidableEq

/-- The loop of `underscoreOK`. -/
def underscoreLoop (hex : Bool) : Saw → List Char → Bool
  | saw, [] => saw != .underscore
  | saw, c :: s =>
    if isDigit c || (hex && 'a' ≤ asciiLower c && asciiLower c ≤ 'f') then
      underscoreLoop hex .digit s
    else if c = '_' then (saw == .digit) && underscoreLoop hex .underscore s
    else (saw != .underscore) && underscoreLoop hex .other s

/-- `underscoreOK(s)`: an underscore only between digits, or between a base prefix and a
digit. -/
def underscoreOK (s : List Char) : Bool :=
  match (readSign s).2 with
  | z :: b :: r =>
    if z = '0' ∧ (asciiLower b = 'b' ∨ asciiLower b = 'o' ∨ asciiLower b = 'x') then
      underscoreLoop (asciiLower b = 'x') .digit r
    else underscoreLoop false .start (z :: b :: r)
  | s => underscoreLoop false .start s

/-- A number `readFloat` has read: `±mant * base ^ exp` and the length `n` read. -/
structure Read where
  neg : Bool
  hex : Bool
  mant : ℕ
  exp : ℤ
  n : ℕ
  deriving DecidableEq, Repr

def readBase : List Char → Bool × List Char
  | z :: x :: c :: s =>
    if z = '0' ∧ asciiLower x = 'x' then (true, c :: s) else (false, z :: x :: c :: s)
  | s => (false, s)

def readExpSign : List Char → ℤ × List Char
  | c :: s => if c = '+' then (1, s) else if c = '-' then (-1, s) else (1, c :: s)
  | [] => (1, [])

/-- The signed exponent after `e` or `p`: a sign and at least one digit, `none` otherwise. -/
def readExpValue (u : Bool) (s : List Char) : Option (ℤ × Bool × List Char) :=
  let (esign, s) := readExpSign s
  match s with
  | d :: _ =>
    if isDigit d then
      let (e, u, rest) := readExpDigits 0 u s
      some (esign * e, u, rest)
    else none
  | [] => none

/-- The optional exponent after the digits, required in hexadecimal; `none` when malformed. -/
def readExponent (hex : Bool) (u : Bool) : List Char → Option (ℤ × Bool × List Char)
  | c :: s =>
    if asciiLower c = (if hex then 'p' else 'e') then readExpValue u s
    else if hex then none else some (0, u, c :: s)
  | [] => if hex then none else some (0, u, [])

/-- `readFloat(s)`. -/
def readFloat (s : List Char) : Option Read :=
  if s = [] then none else
  let (neg, s1) := readSign s
  let (hex, s2) := readBase s1
  let (st, s3) := readDigits hex {} s2
  if !st.sawdigits then none else
  let dp : ℤ := if st.sawdot then st.dp else st.nd
  match readExponent hex st.underscores s3 with
  | none => none
  | some (e, u, rest) =>
    let n := s.length - rest.length
    if u && !underscoreOK (s.take n) then none
    else some
      { neg, hex, mant := st.mant, n,
        exp := if hex then 4 * (dp - st.nd) + e else dp - st.nd + e }

/-! ## The value -/

/-- The exact magnitude `mant * base ^ exp` as a fraction `a / d` in units of `2 ^ -1074`. -/
def Read.frac (r : Read) : ℕ × ℕ :=
  let base := if r.hex then 2 else 10
  if 0 ≤ r.exp then (r.mant * base ^ r.exp.toNat * F64.unit, 1)
  else (r.mant * F64.unit, base ^ (-r.exp).toNat)

/-- The value nearest the number read, or the range error when it rounds to an infinity. -/
def convert (r : Read) : Except NumErr F64 :=
  if F64.roundedMag r.frac.1 r.frac.2 < 2 ^ 2098 then .ok (F64.round r.neg r.frac.1 r.frac.2)
  else .error .errRange

/-- `strconv.ParseFloat(s, 64)`. -/
def parseFloat (s : List Char) : Except NumErr F64 :=
  match special s with
  | some (f, n) => if n = s.length then .ok f else .error .errSyntax
  | none =>
    match readFloat s with
    | none => .error .errSyntax
    | some r => if r.n = s.length then convert r else .error .errSyntax

/-! ## Letter case

`ParseFloat` ignores the letter case of its input: every letter it reads (`e`, `p`, `x`, the
hexadecimal digits, `inf`, `infinity`, `nan`) is compared after lowering, and every other
character it tests is not a letter. Each reader below, run on the lowered input, reads the
same and leaves the lowered rest. -/

section LetterCase

theorem isDigit_iff {c : Char} : isDigit c = true ↔ 48 ≤ c.toNat ∧ c.toNat ≤ 57 := by
  simp only [isDigit, Bool.and_eq_true, decide_eq_true_eq]; exact Iff.rfl

@[simp] theorem isDigit_asciiLower (c : Char) : isDigit (asciiLower c) = isDigit c := by
  rw [Bool.eq_iff_iff, isDigit_iff, isDigit_iff, asciiLower_toNat]; split_ifs <;> omega

theorem asciiLower_of_isDigit {c : Char} (h : isDigit c = true) : asciiLower c = c := by
  rw [char_eq_iff, asciiLower_toNat, if_neg (by rw [isDigit_iff] at h; omega)]

theorem commonPrefixLenIgnoreCase_toLower :
    ∀ s p : List Char, commonPrefixLenIgnoreCase (toLower s) p = commonPrefixLenIgnoreCase s p
  | [], _ => rfl
  | _ :: _, [] => rfl
  | c :: s, q :: p => by
    have ih := commonPrefixLenIgnoreCase_toLower s p
    simp only [toLower] at ih ⊢
    simp only [List.map_cons, commonPrefixLenIgnoreCase, asciiLower_asciiLower, ih]

theorem specialInf_toLower (neg : Bool) (nsign : ℕ) (s : List Char) :
    specialInf neg nsign (toLower s) = specialInf neg nsign s := by
  simp only [specialInf, commonPrefixLenIgnoreCase_toLower]

theorem special_toLower (s : List Char) : special (toLower s) = special s := by
  cases s with
  | nil => rfl
  | cons c s =>
    have hn := commonPrefixLenIgnoreCase_toLower (c :: s) "nan".toList
    have hi := specialInf_toLower false 0 (c :: s)
    rw [toLower_cons] at hn hi
    simp only [toLower_cons, special, hn, hi, specialInf_toLower,
      asciiLower_eq_iff '+' (by decide), asciiLower_eq_iff '-' (by decide),
      asciiLower_eq_letter_iff 'i' 'I' (by decide), asciiLower_eq_letter_iff 'n' 'N' (by decide),
      asciiLower_ne_upper 'I' (by decide), asciiLower_ne_upper 'N' (by decide), or_false]

theorem readSign_toLower (s : List Char) :
    readSign (toLower s) = ((readSign s).1, toLower (readSign s).2) := by
  cases s with
  | nil => rfl
  | cons c s =>
    simp only [toLower_cons, readSign, asciiLower_eq_iff '+' (by decide),
      asciiLower_eq_iff '-' (by decide)]
    split_ifs <;> rfl

theorem readExpSign_toLower (s : List Char) :
    readExpSign (toLower s) = ((readExpSign s).1, toLower (readExpSign s).2) := by
  cases s with
  | nil => rfl
  | cons c s =>
    simp only [toLower_cons, readExpSign, asciiLower_eq_iff '+' (by decide),
      asciiLower_eq_iff '-' (by decide)]
    split_ifs <;> rfl

theorem readBase_toLower (s : List Char) :
    readBase (toLower s) = ((readBase s).1, toLower (readBase s).2) := by
  match s with
  | [] | [_] | [_, _] => rfl
  | z :: x :: c :: s =>
    simp only [toLower_cons, readBase, asciiLower_eq_iff '0' (by decide), asciiLower_asciiLower]
    split_ifs <;> rfl

theorem readDigits_toLower (hex : Bool) (st : Digits) (s : List Char) :
    readDigits hex st (toLower s) =
      ((readDigits hex st s).1, toLower (readDigits hex st s).2) := by
  induction s generalizing hex st with
  | nil => rfl
  | cons c s ih =>
    simp only [toLower] at ih ⊢
    simp only [List.map_cons, readDigits, asciiLower_eq_iff '_' (by decide),
      asciiLower_eq_iff '.' (by decide), asciiLower_eq_iff '0' (by decide), isDigit_asciiLower,
      asciiLower_asciiLower]
    split_ifs <;> simp only [ih, asciiLower_of_isDigit, List.map_cons, *]

theorem readExpDigits_toLower (e : ℕ) (u : Bool) (s : List Char) :
    readExpDigits e u (toLower s) =
      ((readExpDigits e u s).1, (readExpDigits e u s).2.1, toLower (readExpDigits e u s).2.2) := by
  induction s generalizing e u with
  | nil => rfl
  | cons c s ih =>
    simp only [toLower] at ih ⊢
    simp only [List.map_cons, readExpDigits, asciiLower_eq_iff '_' (by decide),
      isDigit_asciiLower]
    split_ifs <;> simp only [ih, asciiLower_of_isDigit, List.map_cons, *]

theorem underscoreLoop_toLower (hex : Bool) (saw : Saw) (s : List Char) :
    underscoreLoop hex saw (toLower s) = underscoreLoop hex saw s := by
  induction s generalizing saw with
  | nil => rfl
  | cons c s ih =>
    simp only [toLower] at ih ⊢
    simp only [List.map_cons, underscoreLoop, isDigit_asciiLower, asciiLower_asciiLower,
      asciiLower_eq_iff '_' (by decide), ih]

theorem underscoreOK_toLower (s : List Char) : underscoreOK (toLower s) = underscoreOK s := by
  unfold underscoreOK
  rw [readSign_toLower]
  match (readSign s).2 with
  | [] => rfl
  | [c] => exact underscoreLoop_toLower false .start [c]
  | z :: b :: r =>
    simp only [toLower_cons, asciiLower_eq_iff '0' (by decide), asciiLower_asciiLower]
    split_ifs
    · exact underscoreLoop_toLower _ _ r
    · exact underscoreLoop_toLower _ _ (z :: b :: r)

theorem readExpValue_toLower (u : Bool) (s : List Char) :
    readExpValue u (toLower s) = (readExpValue u s).map fun r => (r.1, r.2.1, toLower r.2.2) := by
  simp only [readExpValue, readExpSign_toLower]
  generalize readExpSign s = p
  obtain ⟨esign, _ | ⟨d, r⟩⟩ := p
  · rfl
  · simp only [toLower_cons, isDigit_asciiLower]
    split_ifs
    · rw [← toLower_cons, readExpDigits_toLower]; rfl
    · rfl

theorem readExponent_toLower (hex u : Bool) (s : List Char) :
    readExponent hex u (toLower s) =
      (readExponent hex u s).map fun r => (r.1, r.2.1, toLower r.2.2) := by
  cases s with
  | nil => cases hex <;> rfl
  | cons c s =>
    simp only [toLower_cons, readExponent, asciiLower_asciiLower, readExpValue_toLower]
    split_ifs <;> rfl

theorem readFloat_toLower (s : List Char) : readFloat (toLower s) = readFloat s := by
  have hnil : toLower s = [] ↔ s = [] := List.map_eq_nil_iff
  simp only [readFloat, hnil, readSign_toLower, readBase_toLower, readDigits_toLower,
    readExponent_toLower]
  generalize readExponent _ _ _ = o
  rcases o with _ | ⟨e, u, rest⟩
  · rfl
  · simp only [Option.map_some', length_toLower, ← toLower_take, underscoreOK_toLower]

/-- `ParseFloat` ignores letter case. -/
theorem parseFloat_toLower (s : List Char) : parseFloat (toLower s) = parseFloat s := by
  simp only [parseFloat, special_toLower, readFloat_toLower, length_toLower]

end LetterCase

/-! ## Decimal numerals

A non-empty string of decimal digits, leading zeros included, is read as the natural number it
spells: `ParseFloat` returns `float64(n)`, or the range error when that is an infinity. -/

section Decimal

/-- The natural number a string of decimal digits spells. -/
def decimalValue (ds : List Char) : ℕ := ds.foldl (fun v c => 10 * v + digitVal c) 0

/-- The digit loop reads decimal digits whole, its mantissa growing by the number they spell. -/
theorem readDigits_decimal : ∀ (ds : List Char) (st : Digits), (∀ c ∈ ds, isDigit c = true) →
    (st.nd = 0 → st.mant = 0) → ∃ st', readDigits false st ds = (st', []) ∧
      st'.mant = ds.foldl (fun v c => 10 * v + digitVal c) st.mant ∧ st'.sawdot = st.sawdot ∧
      st'.underscores = st.underscores ∧ st'.sawdigits = (st.sawdigits || !ds.isEmpty)
  | [], st, _, _ => ⟨st, rfl, rfl, rfl, rfl, by simp⟩
  | c :: ds, st, hds, hst => by
    have hc := hds c (List.mem_cons_self _ _)
    have hds' : ∀ c ∈ ds, isDigit c = true := fun c h => hds c (List.mem_cons_of_mem _ h)
    have hcu : c ≠ '_' := by rintro rfl; exact absurd hc (by decide)
    have hcd : c ≠ '.' := by rintro rfl; exact absurd hc (by decide)
    by_cases hz : c = '0' ∧ st.nd = 0
    · obtain ⟨st', h1, h2, h3, h4, h5⟩ :=
        readDigits_decimal ds { st with sawdigits := true, dp := st.dp - 1 } hds' hst
      refine ⟨st', by rw [readDigits, if_neg hcu, if_neg hcd, if_pos hc, if_pos hz, h1], ?_, h3,
        h4, by simp [h5]⟩
      rw [h2, List.foldl_cons, hz.1, hst hz.2]; rfl
    · obtain ⟨st', h1, h2, h3, h4, h5⟩ := readDigits_decimal ds
        { st with sawdigits := true, nd := st.nd + 1, mant := st.mant * 10 + digitVal c } hds'
        fun h => absurd h (Nat.succ_ne_zero _)
      refine ⟨st', by rw [readDigits, if_neg hcu, if_neg hcd, if_pos hc, if_neg hz]; exact h1,
        ?_, h3, h4, by simp [h5]⟩
      rw [h2, List.foldl_cons, Nat.mul_comm]

theorem special_of_isDigit {c : Char} (hc : isDigit c = true) (s : List Char) :
    special (c :: s) = none := by
  have hsigns : ∀ d ∈ "+-iInN".toList, isDigit d = false := by decide
  have h : ∀ d ∈ "+-iInN".toList, c ≠ d := fun d hd he => by
    rw [he, hsigns d hd] at hc; cases hc
  simp only [special]
  rw [if_neg (by simpa using And.intro (h '+' (by decide)) (h '-' (by decide))),
    if_neg (by simpa using And.intro (h 'i' (by decide)) (h 'I' (by decide))),
    if_neg (by simpa using And.intro (h 'n' (by decide)) (h 'N' (by decide)))]

theorem readFloat_decimal {ds : List Char} (hne : ds ≠ []) (hds : ∀ c ∈ ds, isDigit c = true) :
    readFloat ds = some ⟨false, false, decimalValue ds, 0, ds.length⟩ := by
  obtain ⟨st, h1, h2, h3, h4, h5⟩ := readDigits_decimal ds {} hds fun _ => rfl
  have hsign : readSign ds = (false, ds) := by
    obtain ⟨c, s, rfl⟩ := List.exists_cons_of_ne_nil hne
    have hc := hds c (List.mem_cons_self _ _)
    rw [readSign, if_neg (by rintro rfl; exact absurd hc (by decide)),
      if_neg (by rintro rfl; exact absurd hc (by decide))]
  have hbase : readBase ds = (false, ds) := by
    match ds, hds with
    | z :: x :: c :: s, hds =>
      have hx := hds x (by simp)
      rw [readBase, if_neg fun h => absurd (asciiLower_of_isDigit hx ▸ h.2) fun he => by
        subst he; exact absurd hx (by decide)]
    | [], _ | [_], _ | [_, _], _ => rfl
  simp only [readFloat, hne, hsign, hbase, h1, h3, h4, h5, if_false]
  simp [readExponent, decimalValue, h2, hne]

/-- `ParseFloat` of a non-empty string of decimal digits is `float64` of the number it spells,
or the range error when that is an infinity. -/
theorem parseFloat_decimal {ds : List Char} (hne : ds ≠ []) (hds : ∀ c ∈ ds, isDigit c = true) :
    parseFloat ds = if (F64.ofNat (decimalValue ds)).isFinite then .ok (F64.ofNat (decimalValue ds))
      else .error .errRange := by
  obtain ⟨c, s, rfl⟩ := List.exists_cons_of_ne_nil hne
  simp only [parseFloat, special_of_isDigit (hds c (List.mem_cons_self _ _)),
    readFloat_decimal hne hds, if_true, convert, F64.ofNat, F64.isFinite_round]
  simp [Read.frac]

example : parseFloat "4".toList = .ok 4 := by decide
example : parseFloat "-Inf".toList = .ok (.inf true) := by decide
example : parseFloat "1_000".toList = .ok 1000 := by decide
example : parseFloat "1e".toList = .error .errSyntax := by decide

end Decimal

end SlurmExporter.Strconv
